import TagTemplate.Proofs.Render.Acts
import TagTemplate.Proofs.Render.Events

/-! # What acts can change in a document

The acts of a node bind variables in the scopes of the node and of what lies below it; bindings,
expressions, modules and custom tags also bind in the scope of their parent.  Nodes that were there
before keep all but their variables, and only the nearest container is filled.

* `Acts.confined`: the acts of a node are confined in this way.
* `Reachable`: the states that a rendering can get into, all of them with sound documents. -/

namespace TagTemplate

/-! ### Confinement -/

/-- Nodes of these kinds bind variables in the scope of their parent. -/
def NodeKind.bindsOutside : NodeKind → Bool
  | binding | expression | moduleUse | custom => true
  | _ => false

/-- From one document to the other only what the node `id` may change has changed: variables of the
node and of those below, of the parent where the node binds outside, and the nearest container. -/
structure Confined (id : Nat) (s t : RenderState) : Prop where
  stays : s.document.Stays t.document
  scope {j : Nat} (hj : j < s.document.size) (h : (t.node j).scope ≠ (s.node j).scope) :
    j ∈ s.document.descendants id ∨
      (s.node id).kind.bindsOutside = true ∧ (s.node id).parent = some j
  container {j : Nat} (hj : j < s.document.size)
    (h : (t.node j).container ≠ (s.node j).container) :
    s.document.nearestContainer? id = some j

/-! ### Acts keep documents sound -/

namespace Document

theorem Sound.grow_fragment {d : Document} (hd : d.Sound) {g : Option Nat → Node → Node}
    (hg : Grounded g) {q : Option Nat} (hq : ∀ p, q = some p → p < d.size) (parts : List Part)
    (span : Span) : (d.append (Part.fragment g d.size q parts span)).Sound :=
  hd.append (Part.strand_fragment hg d.size q parts span) hq

theorem le_of_mem_descendants_append {d : Document} {q : Option Nat} {ns : List Node}
    (hs : Strand d.size q ns) {i j : Nat} (hi : d.size ≤ i)
    (hj : j ∈ (d.append ns).descendants i) : d.size ≤ j := by
  induction i using Nat.strongRecOn with
  | ind i ih =>
      rcases mem_descendants.mp hj with rfl | ⟨c, hc, hlt, hj⟩
      · exact hi
      · refine ih c hlt ?_ hj
        rcases children_append hs hc with ⟨hold, _⟩ | ⟨_, _, _, _, _, _, _, rfl, _⟩
        · omega
        · exact Nat.le_add_right _ _

theorem node_fragment_root (d : Document) (g : Option Nat → Node → Node) (q : Option Nat)
    (parts : List Part) (span : Span) :
    (d.append (Part.fragment g d.size q parts span)).node (d.size + Part.countAll parts)
      = g q (.root (Part.numbers d.size parts) span) := by
  refine node_append_right ?_
  rw [Part.fragment, List.getElem?_append_right (by simp), Part.length_runAll, Nat.sub_self]
  rfl

end Document

/-- What a successful building adds to a state: a root of its own, with nothing old below it. -/
structure Built (s : RenderState) (parent : Option Nat) (root : Nat) (t : RenderState) :
    Prop where
  sound : t.document.Sound
  stays : s.document.Stays t.document
  size : t.document.size = root + 1
  old {j : Nat} (h : j < s.document.size) : t.node j = s.node j
  kind : (t.node root).kind = .root
  container : (t.node root).container = none
  parent : (t.node root).parent = none ∨ (t.node root).parent = parent
  le_of_mem_descendants {j : Nat} (h : j ∈ t.document.descendants root) : s.document.size ≤ j
  globals : t.globals = s.globals

theorem Built.root_lt {s t : RenderState} {parent : Option Nat} {root : Nat}
    (h : Built s parent root t) : root < t.document.size := by
  rw [h.size]
  exact Nat.lt_succ_self root

section acts
variable {env : Environment} {id : Nat} {s t : RenderState}
  (hlocal : ∀ p ∈ env.toolkit.preparers, p.IsLocal)

theorem Builds.parent_cases {k : NodeKind} {parent : Option Nat} (h : Builds id k parent) :
    parent = none ∨ parent = some id := by
  cases h with
  | invocation => exact .inr rfl
  | inclusion => exact .inr rfl
  | moduleUse => exact .inl rfl

theorem Builds.parent_lt {k : NodeKind} {parent : Option Nat} (h : Builds id k parent)
    (hid : id < s.document.size) : ∀ p, parent = some p → p < s.document.size := by
  rintro p rfl
  rcases h.parent_cases with h | h <;> cases h
  exact hid

include hlocal

theorem build_sound {source : String} {parent : Option Nat} {inherited : Scope}
    {paths : SearchPaths} {r : Except RenderError Nat} (hs : s.document.Sound)
    (hq : ∀ p, parent = some p → p < s.document.size)
    (h : Rendering.build env source parent inherited paths s = (r, t)) : t.document.Sound := by
  cases r with
  | ok root =>
      obtain ⟨_, _, rfl⟩ := Rendering.build_ok h
      exact hs.grow_fragment (Node.grounded_prepared hlocal _) hq _ _
  | error e =>
      obtain ⟨_, _, rfl⟩ := Rendering.build_error h
      exact hs.append (Part.strand_runAll grounded_untouched _ _ _) fun p hp => by cases hp

theorem built_of_build {source : String} {parent : Option Nat} {inherited : Scope}
    {paths : SearchPaths} {root : Nat} (hs : s.document.Sound)
    (hq : ∀ p, parent = some p → p < s.document.size)
    (h : Rendering.build env source parent inherited paths s = (.ok root, t)) :
    Built s parent root t := by
  have hsound := build_sound hlocal hs hq h
  have hg := Node.grounded_prepared hlocal ⟨parent, inherited, paths, env.settings.bubble⟩
  obtain ⟨_, rfl, rfl⟩ := Rendering.build_ok h
  have hroot := s.document.node_fragment_root (Node.prepared env.toolkit.preparers
    ⟨parent, inherited, paths, env.settings.bubble⟩) parent (env.scanner.read source).parts
    ⟨0, source.utf8ByteSize⟩
  refine ⟨hsound, .append _ _, by simp [RenderState.grow, Nat.add_assoc],
    fun hj => Document.node_append_left hj, ?_, ?_, ?_,
    Document.le_of_mem_descendants_append (Part.strand_fragment hg _ _ _ _)
      (Nat.le_add_right _ _), rfl⟩
  · exact (congrArg Node.kind hroot).trans (hg.kind parent _)
  · exact (congrArg Node.container hroot).trans (hg.container parent _)
  · refine (hg.parent parent _).imp (congrArg Node.parent hroot).trans fun hp => ?_
    exact (congrArg Node.parent hroot).trans hp.2

theorem Acts.sound (h : Acts env id s t) :
    s.document.Sound → id < s.document.size → t.document.Sound := by
  induction h with
  | refl id s => exact fun hs _ => hs
  | trans h₁ _ ih₁ ih₂ =>
      exact fun hs hid => ih₂ (ih₁ hs hid) (Nat.lt_of_lt_of_le hid h₁.stays.size_le)
  | own h => exact fun hs _ => h.stays.sound h.size_eq hs
  | child hc hlt _ ih => exact fun hs hid => ih hs (Nat.lt_trans hlt hid)
  | failed hk hb => exact fun hs hid => build_sound hlocal hs (hk.parent_lt hid) hb
  | fragment hk hb _ ih =>
      intro hs hid
      have hbuilt := built_of_build hlocal hs (hk.parent_lt hid) hb
      exact ih hbuilt.sound hbuilt.root_lt

end acts

/-! ### Acts are confined -/

namespace Confined

variable {id : Nat} {s t u : RenderState}

theorem refl (id : Nat) (s : RenderState) : Confined id s s :=
  ⟨.refl _, fun _ h => absurd rfl h, fun _ h => absurd rfl h⟩

theorem trans (hs : s.document.Sound) (ht : t.document.Sound) (hid : id < s.document.size)
    (h₁ : Confined id s t) (h₂ : Confined id t u) : Confined id s u := by
  have hnode := h₁.stays.node hid
  refine ⟨h₁.stays.trans h₂.stays, fun {j} hj h => ?_, fun {j} hj h => ?_⟩
  · by_cases hst : (t.node j).scope = (s.node j).scope
    · have h' : (u.node j).scope ≠ (t.node j).scope := by rwa [hst]
      rcases h₂.scope (Nat.lt_of_lt_of_le hj h₁.stays.size_le) h' with hd | ⟨hk, hp⟩
      · exact .inl ((h₁.stays.mem_descendants hid).mp hd)
      · exact .inr ⟨hnode.kind ▸ hk, hnode.parent ▸ hp⟩
    · exact h₁.scope hj hst
  · by_cases hst : (t.node j).container = (s.node j).container
    · have h' : (u.node j).container ≠ (t.node j).container := by rwa [hst]
      have hn := h₂.container (Nat.lt_of_lt_of_le hj h₁.stays.size_le) h'
      rwa [h₁.stays.nearestContainer? hs ht hid] at hn
    · exact h₁.container hj hst

/-- What holds of the nodes does not depend on the rest of the states. -/
theorem congr {s' t' : RenderState} (h : Confined id s t) (hs : s'.document = s.document)
    (ht : t'.document = t.document) : Confined id s' t' := by
  have hnode (i : Nat) : s'.node i = s.node i := by rw [RenderState.node, hs, RenderState.node]
  have hnode' (i : Nat) : t'.node i = t.node i := by rw [RenderState.node, ht, RenderState.node]
  refine ⟨by rw [hs, ht]; exact h.stays, fun {j} hj hne => ?_, fun {j} hj hne => ?_⟩
  · rw [hnode, hnode'] at hne
    rw [hnode, hs]
    exact h.scope (hs ▸ hj) hne
  · rw [hnode, hnode'] at hne
    rw [hs]
    exact h.container (hs ▸ hj) hne

theorem of_document_eq (id : Nat) (hd : t.document = s.document) : Confined id s t :=
  (refl id s).congr rfl hd

theorem grow (id : Nat) (s : RenderState) (ns : List Node) : Confined id s (s.grow ns) := by
  refine ⟨.append _ _, fun hj hne => absurd ?_ hne, fun hj hne => absurd ?_ hne⟩
  · rw [RenderState.node, RenderState.grow, Document.node_append_left hj]
    rfl
  · rw [RenderState.node, RenderState.grow, Document.node_append_left hj]
    rfl

theorem of_update_scope {k : Nat} {f : Node → Node}
    (hf : ∀ n, f n = { n with scope := (f n).scope })
    (hk : k = id ∨ (s.node id).kind.bindsOutside = true ∧ (s.node id).parent = some k) :
    Confined id s { s with document := s.document.update k f } := by
  have hstays : (s.document.node k).Stays (f (s.document.node k)) := by
    constructor <;> rw [hf]
  refine ⟨.update hstays, fun {j} hj h => ?_, fun {j} hj h => ?_⟩
  · by_cases hkj : k = j
    · subst hkj
      rcases hk with rfl | hk
      · exact .inl (Document.mem_descendants_self _ _)
      · exact .inr hk
    · exact absurd (congrArg Node.scope (Document.node_update_of_ne _ f hkj)) h
  · refine absurd ?_ h
    rw [RenderState.node, Document.node_update _ _ _ _ hj]
    split
    · rw [hf]; rfl
    · rfl

end Confined

theorem Orders.bindsOutside {s : RenderState} {id : Nat} {a : Assignment} (h : Orders s id a) :
    (s.node id).kind.bindsOutside = true := by
  cases h with
  | binding hk _ => rw [hk]; rfl
  | expression _ hk _ _ => rw [hk]; rfl
  | custom hk => rw [hk]; rfl

theorem RenderState.target_cases {s : RenderState} {id : Nat}
    (hk : (s.node id).kind.bindsOutside = true) : s.target id = id ∨
      (s.node id).kind.bindsOutside = true ∧ (s.node id).parent = some (s.target id) := by
  unfold target
  cases (s.node id).parent with
  | none => exact .inl rfl
  | some p => exact .inr ⟨hk, rfl⟩

theorem Act.confined {id : Nat} {s t : RenderState} (h : Act id s t) : Confined id s t := by
  cases h with
  | report kind detail => exact .of_document_eq id (s.report_document id kind detail)
  | assign a ho =>
      cases ha : a.global with
      | true =>
          rw [RenderState.assign_of_global ha]
          exact .of_document_eq id rfl
      | false =>
          rw [RenderState.assign_of_local ha]
          exact .of_update_scope (fun _ => rfl) (RenderState.target_cases ho.bindsOutside)
  | entry scope hk => exact .of_update_scope (fun _ => rfl) (.inl rfl)
  | attempt v hk => exact .of_update_scope (fun _ => rfl) (.inl rfl)
  | define name m hk => exact .of_document_eq id rfl
  | fill f hk =>
      rcases s.updateContainer_cases id f with h | ⟨root, c, hn, hc, h⟩ <;> rw [h]
      · exact .refl id s
      · have hstays : s.document.Stays (s.document.setContainer root (f c)) :=
          .setContainer (by rw [← RenderState.node, hc]; rfl) _
        refine ⟨hstays, fun {j} hj h => ?_, fun {j} hj h => ?_⟩
        · refine absurd ?_ h
          rw [RenderState.node, Document.setContainer, Document.node_update _ _ _ _ hj]
          split <;> rfl
        · by_cases hrj : root = j
          · subst hrj
            exact hn
          · refine absurd ?_ h
            rw [RenderState.node, Document.setContainer, Document.node_update_of_ne _ _ hrj]
            rfl
  | adopt scope hk =>
      exact .of_update_scope (fun _ => rfl) (RenderState.target_cases (by rw [hk]; rfl))

section acts
variable {env : Environment} {id : Nat} {s t : RenderState}

/-- What a node below `id` may change is within what `id` may change. -/
theorem Confined.of_child {c : Nat} (hs : s.document.Sound) (hid : id < s.document.size)
    (hc : c ∈ (s.node id).children) (hlt : c < id) (h : Confined c s t) : Confined id s t := by
  refine ⟨h.stays, fun {j} hj hne => ?_, fun {j} hj hne => ?_⟩
  · rcases h.scope hj hne with hd | ⟨_, hp⟩
    · exact .inl (Document.descendants_of_child hc hlt hd)
    · rcases hs.child_parent hc with hnone | hsome
      · rw [RenderState.node, hnone] at hp; cases hp
      · rw [RenderState.node, hsome] at hp
        cases hp
        exact .inl (Document.mem_descendants_self _ _)
  · have hn := h.container hj hne
    rw [hs.nearestContainer?_eq (Nat.lt_trans hlt hid), hs.child_container hc] at hn
    rcases hs.child_parent hc with hnone | hsome
    · rw [hnone] at hn; cases hn
    · rw [hsome] at hn; simpa using hn

variable (hlocal : ∀ p ∈ env.toolkit.preparers, p.IsLocal)
include hlocal

theorem Confined.of_fragment {root : Nat} {u : RenderState} {parent : Option Nat} {source : String}
    {inherited : Scope} {paths : SearchPaths} (hs : s.document.Sound) (hid : id < s.document.size)
    (hk : Builds id (s.node id).kind parent)
    (hb : Rendering.build env source parent inherited paths s = (.ok root, t))
    (h : Confined root t u) : Confined id s u := by
  have hbuilt := built_of_build hlocal hs (hk.parent_lt hid) hb
  have hlt {j : Nat} (hj : j < s.document.size) : j < t.document.size :=
    Nat.lt_of_lt_of_le hj hbuilt.stays.size_le
  refine ⟨hbuilt.stays.trans h.stays, fun {j} hj hne => ?_, fun {j} hj hne => ?_⟩
  · rw [← hbuilt.old hj] at hne
    rcases h.scope (hlt hj) hne with hd | ⟨hk, _⟩
    · exact absurd (hbuilt.le_of_mem_descendants hd) (Nat.not_le_of_lt hj)
    · rw [hbuilt.kind] at hk
      cases hk
  · rw [← hbuilt.old hj] at hne
    have hn := h.container (hlt hj) hne
    have hc := hbuilt.container
    have hp := hbuilt.parent
    rw [RenderState.node] at hc hp
    rw [hbuilt.sound.nearestContainer?_eq hbuilt.root_lt, hc] at hn
    -- the fragment of a module has no parent; any other stands below the node itself
    rcases hp with hp | hp
    · rw [hp] at hn; cases hn
    · rw [hp] at hn
      rcases hk.parent_cases with rfl | rfl
      · cases hn
      · rw [← hbuilt.stays.nearestContainer? hs hbuilt.sound hid]
        simpa using hn

theorem Acts.confined (h : Acts env id s t) :
    s.document.Sound → id < s.document.size → Confined id s t := by
  induction h with
  | refl id s => exact fun _ _ => .refl id s
  | trans h₁ _ ih₁ ih₂ =>
      intro hs hid
      have ht := h₁.sound hlocal hs hid
      exact (ih₁ hs hid).trans hs ht hid (ih₂ ht (Nat.lt_of_lt_of_le hid h₁.stays.size_le))
  | own h => exact fun _ _ => h.confined
  | child hc hlt _ ih =>
      exact fun hs hid => (ih hs (Nat.lt_trans hlt hid)).of_child hs hid hc hlt
  | failed hk hb =>
      intro hs hid
      obtain ⟨_, _, rfl⟩ := Rendering.build_error hb
      exact .grow _ _ _
  | fragment hk hb h ih =>
      intro hs hid
      have hbuilt := built_of_build hlocal hs (hk.parent_lt hid) hb
      exact .of_fragment hlocal hs hid hk hb (ih hbuilt.sound hbuilt.root_lt)

end acts

/-! ### States that can be reached -/

/-- The states of a rendering: it starts with variables of the template only, builds pages and
layouts as containers, lets nodes act, and reports events of its own. -/
inductive Reachable (env : Environment) : RenderState → Prop
  | start (globals : Scope) : Reachable env { globals }
  | failed {s t : RenderState} {source : String} {e : RenderError}
      (hb : Rendering.build env source none ∅ env.settings.paths s = (.error e, t)) :
      Reachable env s → Reachable env t
  | container {s t : RenderState} {source : String} {root : Nat} (c : Container)
      (hb : Rendering.build env source none ∅ env.settings.paths s = (.ok root, t)) :
      Reachable env s → Reachable env { t with document := t.document.setContainer root c }
  | acts {s t : RenderState} {id : Nat} (hid : id < s.document.size) (h : Acts env id s t) :
      Reachable env s → Reachable env t
  | event {s : RenderState} (e : Event) :
      Reachable env s → Reachable env { s with events := s.events.push e }

/-- A node at the top of its tree can become a container. -/
theorem Document.Sound.setContainer {d : Document} (hd : d.Sound) {root : Nat}
    (hlt : root < d.size) (hheld : ∀ i, root ∉ (d.node i).children)
    (hp : (d.node root).parent = none) (c : Container) : (d.setContainer root c).Sound := by
  have hnode (i : Nat) : (d.setContainer root c).node i
      = if root = i then { d.node i with container := some c } else d.node i := by
    by_cases hi : i < d.size
    · exact node_update _ _ _ _ hi
    · rw [if_neg (by omega)]
      exact node_update_of_ne _ _ (by omega)
  have hchildren (i : Nat) : ((d.setContainer root c).node i).children = (d.node i).children := by
    rw [hnode]
    split <;> rfl
  have hparent (i : Nat) : ((d.setContainer root c).node i).parent = (d.node i).parent := by
    rw [hnode]
    split <;> rfl
  refine ⟨fun {i k} h => ?_, fun {i k} h => ?_, fun {i k} h => ?_, fun {i} h => ?_, ?_⟩
  · rw [hchildren] at h
    exact hd.child_lt h
  · rw [hchildren] at h
    rw [hparent]
    exact hd.child_parent h
  · rw [hchildren] at h
    rw [hnode, if_neg]
    · exact hd.child_container h
    · rintro rfl
      exact hheld _ h
  · rw [hparent]
    rw [hnode] at h
    split at h
    · next heq => rw [← heq, hp]
    · exact hd.container_parent h
  · obtain ⟨rank, hr⟩ := hd.ranked
    refine ⟨rank, fun i hi => ?_⟩
    rw [hparent]
    rw [Document.setContainer, size_update] at hi ⊢
    exact hr i hi

/-- A page or a layout can become a container. -/
theorem Built.setContainer {s t : RenderState} {root : Nat} (h : Built s none root t)
    (c : Container) : (t.document.setContainer root c).Sound :=
  h.sound.setContainer h.root_lt (h.sound.unheld_last h.size) (or_self_iff.mp h.parent) c

namespace Reachable

variable {env : Environment}

theorem sound (hlocal : ∀ p ∈ env.toolkit.preparers, p.IsLocal) {s : RenderState}
    (h : Reachable env s) : s.document.Sound := by
  induction h with
  | start globals => exact Document.sound_empty
  | failed hb _ ih => exact build_sound hlocal ih (fun p hp => by cases hp) hb
  | container c hb _ ih =>
      have hbuilt := built_of_build hlocal ih (fun p hp => by cases hp) hb
      exact hbuilt.setContainer c
  | acts hid h _ ih => exact h.sound hlocal ih hid
  | event e _ ih => exact ih

end Reachable

/-- From the states of one kind the step leads to such states, or it fails because of a text with
errors and leads to a state of the other kind. -/
def Rendering.Preserves {α : Type} (P Q : RenderState → Prop) (x : Rendering α) : Prop :=
  ∀ s, P s → P (x s).2 ∨ Unread (x s).1 ∧ Q (x s).2

namespace Rendering.Preserves

variable {α β : Type} {P Q : RenderState → Prop}

theorem pure (a : α) : Preserves P Q (pure a) :=
  fun _ h => .inl h

theorem bind {x : Rendering α} {f : α → Rendering β} (hx : Preserves P Q x)
    (hf : ∀ a, Preserves P Q (f a)) : Preserves P Q (x >>= f) := by
  intro s hs
  have h := hx s hs
  rw [bind_apply]
  cases hr : x s with
  | mk r t =>
      rw [hr] at h
      cases r with
      | error e => exact h.imp_right fun hlost => ⟨hlost.1.of_error, hlost.2⟩
      | ok a => exact hf a t (h.resolve_right fun hlost => not_unread_ok a hlost.1)

section pages
variable {env : Environment}

theorem reportTemplate {kind : EventKind} {detail : String}
    (hevent : ∀ s, P s → P { s with events := s.events.push ⟨kind, "template", detail⟩ }) :
    Preserves P Q (reportTemplate env kind detail) := by
  unfold Rendering.reportTemplate
  split
  · exact fun s hs => .inl (hevent s hs)
  · exact .pure _

variable (hevent : ∀ s (e : Event), Event.IsWorded e.kind e.detail → P s →
  P { s with events := s.events.push e })
include hevent

theorem loadLayout (name : String) : Preserves P Q (loadLayout env name) := by
  unfold Rendering.loadLayout
  split
  · exact .pure _
  · next e _ =>
    split
    · exact fun s hs => .inl hs
    · have hworded : Event.IsWorded .error e.display := fun _ => .inl (.inr (.inr (.inr ⟨e, rfl⟩)))
      exact .bind (reportTemplate fun s => hevent s _ hworded) fun _ => .pure _

variable (hcontainer : ∀ source slots, Preserves P Q (renderContainer env source slots))
include hcontainer

theorem wrap : ∀ (remaining : Nat) (used : List String) (text : String) (c : Container),
    Preserves P Q (wrap env used text c remaining)
  | 0, used, text, c => by
      unfold Rendering.wrap
      dsimp only
      split
      · next name _ =>
        have hworded : Event.IsWorded .error
            (if name ∈ used then cycleMessage name else "layout chain too deep") := by
          split
          · exact fun _ => .inr (.cycle name)
          · exact fun _ => .inl (.inr (.inr (.inl rfl)))
        exact .bind (reportTemplate fun s => hevent s _ hworded) fun _ => .pure _
      · exact .pure _
  | remaining + 1, used, text, c => by
      unfold Rendering.wrap
      split
      · exact .pure _
      · next name _ =>
        split
        · refine .bind (reportTemplate fun s => hevent s _ ?_) fun _ => .pure _
          exact fun _ => .inr (.cycle name)
        · refine .bind (loadLayout hevent _) fun r => ?_
          split
          · exact .pure _
          · exact .bind (hcontainer _ _) fun _ => wrap remaining _ _ _

/-- A page keeps to the states of a kind if events do, and containers. -/
theorem page (source : String) : Preserves P Q (page env source) :=
  .bind (hcontainer _ _) fun _ => wrap hevent hcontainer _ _ _ _

end pages

end Rendering.Preserves

/-- The step keeps to states that can be reached. -/
def Rendering.Reaches {α : Type} (env : Environment) (x : Rendering α) : Prop :=
  ∀ s, Reachable env s → Reachable env (x s).2

namespace Rendering.Reaches

variable {α β : Type} {env : Environment}

theorem iff_preserves {x : Rendering α} :
    Reaches env x ↔ Preserves (Reachable env) (Reachable env) x :=
  ⟨fun h s hs => .inl (h s hs), fun h s hs => (h s hs).elim id And.right⟩

theorem pure (a : α) : Reaches env (pure a) :=
  fun _ h => h

theorem bind {x : Rendering α} {f : α → Rendering β} (hx : Reaches env x)
    (hf : ∀ a, Reaches env (f a)) : Reaches env (x >>= f) :=
  iff_preserves.mpr (.bind (iff_preserves.mp hx) fun a => iff_preserves.mp (hf a))

theorem reportTemplate (kind : EventKind) (detail : String) :
    Reaches env (reportTemplate env kind detail) :=
  iff_preserves.mpr (.reportTemplate fun _ => .event _)

theorem loadLayout (name : String) : Reaches env (loadLayout env name) :=
  iff_preserves.mpr (.loadLayout (fun _ _ _ => .event _) name)

theorem renderContainer (hlocal : ∀ p ∈ env.toolkit.preparers, p.IsLocal) (source : String)
    (slots : NameMap String) : Reaches env (renderContainer env source slots) := by
  intro s hs
  unfold Rendering.renderContainer
  cases hb : build env source none ∅ env.settings.paths s with
  | mk r t =>
      cases r with
      | error e =>
          rw [bind_of_error hb]
          exact .failed hb hs
      | ok root =>
          rw [bind_of_ok hb]
          have hbuilt := built_of_build hlocal (hs.sound hlocal) (fun p hp => by cases hp) hb
          have hroot : root < (t.document.setContainer root { slots }).size := by
            rw [Document.setContainer, Document.size_update]
            exact hbuilt.root_lt
          let start := { t with document := t.document.setContainer root { slots } }
          have hacts := renderNode_acts env 0 root start hroot
          have hread (text : String) (u : RenderState) :
              ((do return (text, ((← node root).container).getD {}) :
                Rendering (String × Container)) u).2 = u := rfl
          have hend := Reachable.acts hroot hacts (.container { slots } hb hs)
          rw [← snd_bind hread] at hend
          exact hend

/-- All states of the rendering of a page can be reached. -/
theorem page (hlocal : ∀ p ∈ env.toolkit.preparers, p.IsLocal) (source : String) :
    Reaches env (page env source) :=
  iff_preserves.mpr (.page (fun _ _ _ => .event _)
    (fun source slots => iff_preserves.mp (.renderContainer hlocal source slots)) source)

end Rendering.Reaches

end TagTemplate
