import TagTemplate.Proofs.Render.Confinement
import TagTemplate.Proofs.Render.Pages

/-! # What a fragment leaves alone

An invocation or an inclusion renders a fragment of its own.  The nodes of the fragment bind their
variables in the fragment, so the nodes that were there before keep theirs.

* `Built.scope_eq`: rendering a fragment leaves the variables of older nodes alone, and
  `Built.container_eq`: that of a module their containers too.
* `renderNode_fenced`: so do invocations and inclusions. -/

namespace TagTemplate

/-! ### Fragments -/

section built
variable {env : Environment} (hlocal : ∀ p ∈ env.toolkit.preparers, p.IsLocal)
  {s t u : RenderState} {root : Nat}
include hlocal

theorem Built.scope_eq {parent : Option Nat} (hb : Built s parent root t)
    (h : Acts env root t u) {i : Nat} (hi : i < s.document.size) :
    (u.node i).scope = (s.node i).scope := by
  rw [← hb.old hi]
  by_contra hne
  rcases (h.confined hlocal hb.sound hb.root_lt).scope
    (Nat.lt_of_lt_of_le hi hb.stays.size_le) hne with hd | ⟨hk, _⟩
  · exact absurd (hb.le_of_mem_descendants hd) (Nat.not_le_of_lt hi)
  · rw [hb.kind] at hk
    cases hk

/-- A fragment that stands alone does not see the containers outside. -/
theorem Built.container_eq (hb : Built s none root t) (h : Acts env root t u) {i : Nat}
    (hi : i < s.document.size) : (u.node i).container = (s.node i).container := by
  rw [← hb.old hi]
  by_contra hne
  have hnearest := (h.confined hlocal hb.sound hb.root_lt).container
    (Nat.lt_of_lt_of_le hi hb.stays.size_le) hne
  have hparent : (t.document.node root).parent = none := hb.parent.elim id id
  have hcontainer : (t.document.node root).container = none := hb.container
  rw [hb.sound.nearestContainer?_eq hb.root_lt, hcontainer, hparent] at hnearest
  cases hnearest

end built

/-! ### Nodes that leave the variables of others alone -/

/-- The nodes of the first state have the same variables in the second. -/
structure Fenced (s t : RenderState) : Prop where
  sound : t.document.Sound
  stays : s.document.Stays t.document
  scope {i : Nat} (hi : i < s.document.size) : (t.node i).scope = (s.node i).scope

namespace Fenced

variable {s t u : RenderState}

theorem refl (h : s.document.Sound) : Fenced s s :=
  ⟨h, .refl _, fun _ => rfl⟩

theorem trans (h : Fenced s t) (h' : Fenced t u) : Fenced s u :=
  ⟨h'.sound, h.stays.trans h'.stays, fun hi =>
    (h'.scope (Nat.lt_of_lt_of_le hi h.stays.size_le)).trans (h.scope hi)⟩

theorem of_document_eq (h : s.document.Sound) (hd : t.document = s.document) : Fenced s t :=
  ⟨hd ▸ h, hd ▸ .refl _, fun _ => by rw [RenderState.node, hd, RenderState.node]⟩

end Fenced

namespace Rendering

/-- From every state in which the node is there, the step leaves the variables of all nodes
alone. -/
def Fences {α : Type} (id : Nat) (x : Rendering α) : Prop :=
  ∀ s : RenderState, s.document.Sound → id < s.document.size → Fenced s (x s).2

namespace Fences

variable {α β : Type} {id : Nat}

theorem pure (a : α) : Fences id (pure a) :=
  fun _ hs _ => .refl hs

theorem throw (e : RenderError) : Fences id (throw e : Rendering α) :=
  fun _ hs _ => .refl hs

theorem bind {x : Rendering α} {f : α → Rendering β} (hx : Fences id x)
    (hf : ∀ a, Fences id (f a)) : Fences id (x >>= f) := by
  intro s hs hid
  have h := hx s hs hid
  rw [bind_apply]
  cases hr : x s with
  | mk r t =>
      rw [hr] at h
      cases r with
      | error e => exact h
      | ok a => exact h.trans (hf a t h.sound (Nat.lt_of_lt_of_le hid h.stays.size_le))

theorem get_bind {f : RenderState → Rendering β} (hf : ∀ s, Fences id (f s)) :
    Fences id (get >>= f) :=
  fun s hs hid => hf s s hs hid

theorem node_bind {f : Node → Rendering β} (hf : ∀ n, Fences id (f n)) :
    Fences id (node id >>= f) :=
  fun s hs hid => hf (s.node id) s hs hid

theorem report (kind : EventKind) (detail : String) : Fences id (report id kind detail) :=
  fun s hs _ => .of_document_eq hs (s.report_document id kind detail)

end Fences

section rules
variable {env : Environment} (hlocal : ∀ p ∈ env.toolkit.preparers, p.IsLocal) {depth id : Nat}

theorem fences_tooDeep : Fences id (tooDeep id) :=
  .bind (.report _ _) fun _ => .pure _

theorem fences_loadFor (root : String) : Fences id (loadFor env id root) := by
  refine .node_bind fun n => ?_
  split
  · exact .pure _
  · split
    · exact .bind (.throw _) fun _ => .bind (.report _ _) fun _ => .pure _
    · exact .bind (.report _ _) fun _ => .pure _

include hlocal

theorem fences_renderSource (source : String) (bindings : Scope) (paths : SearchPaths) :
    Fences id (renderSource env id (deeper env depth) source bindings paths) := by
  unfold renderSource deeper
  split
  · exact fences_tooDeep
  · next render hr =>
    split at hr
    · cases hr
      intro s hs hid
      have hparent : ∀ p, some id = some p → p < s.document.size := by
        rintro p ⟨⟩
        exact hid
      cases hb : build env source (some id) bindings paths s with
      | mk r t =>
          cases r with
          | error e =>
              rw [bind_of_error hb]
              have hsound := build_sound hlocal hs hparent hb
              obtain ⟨_, _, rfl⟩ := build_error hb
              refine ⟨hsound, .append _ _, fun hi => ?_⟩
              rw [RenderState.node, RenderState.grow, Document.node_append_left hi]
              rfl
          | ok root =>
              rw [bind_of_ok hb]
              have hbuilt := built_of_build hlocal hs hparent hb
              have hacts := renderNode_acts env (depth + 1) root t hbuilt.root_lt
              rw [snd_bind fun _ _ => rfl]
              exact ⟨hacts.sound hlocal hbuilt.sound hbuilt.root_lt,
                hbuilt.stays.trans hacts.stays, hbuilt.scope_eq hlocal hacts⟩
    · cases hr

theorem fences_invocation : Fences id (invocation env id (deeper env depth)) := by
  refine .get_bind fun s => ?_
  dsimp only
  split
  · exact fences_renderSource hlocal _ _ _
  · exact .bind (.report _ _) fun _ => .pure _

theorem fences_inclusion : Fences id (inclusion env id (deeper env depth)) := by
  refine .bind (fences_loadFor _) fun r => ?_
  split
  · exact .pure _
  · exact .get_bind fun s => fences_renderSource hlocal _ _ _

/-- An invocation or an inclusion leaves the variables of all nodes alone. -/
theorem renderNode_fenced {s : RenderState} (hs : s.document.Sound) (hid : id < s.document.size)
    (hk : (s.node id).kind = .invocation ∨ (s.node id).kind = .inclusion) :
    Fenced s (renderNode env depth id s).2 := by
  have hlife : hasLifecycle (s.node id).kind = true := by
    rcases hk with hk | hk <;> rw [hk] <;> rfl
  have hrule (body : Rendering String) :
      Fences id (rule env id body (deeper env depth) (s.node id).kind.dispatch) := by
    rcases hk with hk | hk <;> rw [hk]
    · exact .bind (fences_invocation hlocal) fun _ => .pure _
    · exact .bind (fences_inclusion hlocal) fun _ => .pure _
  rw [renderNode_eq, nodeWith, bind_of_ok (node_apply id s), withLifecycle_apply _ hlife]
  have hstart : Fenced s (s.report id .started "") :=
    .of_document_eq hs (s.report_document id .started "")
  exact hstart.trans ((Fences.bind (hrule _) fun _ => .bind (.report _ _) fun _ => .pure _) _
    hstart.sound (by rwa [RenderState.report_document]))

end rules

/-- The state in which the root of a page is rendered can be reached. -/
theorem reachable_pageState {loader : Loader} {source : String} {parts : List Part}
    (hread : TagScanner.builtin.read source = { parts }) (globals : Scope) :
    Reachable (.usual loader) (pageState globals source parts) := by
  have hb := build_eq (.usual loader) source none ∅ ∅ { globals }
  have hread' : (Environment.usual loader).scanner.read source = { parts } := hread
  have hsize : ({ globals } : RenderState).document.size + Part.countAll parts =
      Part.countAll parts := Nat.zero_add _
  rw [hread', if_pos rfl, hsize] at hb
  exact .container {} hb (.start globals)

end Rendering

end TagTemplate
