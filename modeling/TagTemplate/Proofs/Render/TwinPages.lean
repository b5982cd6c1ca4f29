import TagTemplate.Proofs.Render.Twins
import TagTemplate.Template

/-! # Twin pages

Where a coupling leaves the layouts alone, two renderings of the same source as a container are
twins, and so is all that follows: which layout is loaded, whether one comes again, and how often
the text is put into another one.

* `twins_renderContainer`, `twins_wrap`: containers and their layouts are rendered alike. -/

namespace TagTemplate

/-- The coupling leaves the layouts alone. -/
def Coupling.IsExact (c : Coupling) : Prop :=
  ∀ d i a b, c.layouts d i a b ↔ b = a

theorem Coupling.IsExact.eq {c : Coupling} (h : c.IsExact) {d : Document} {i : Nat}
    {a b : Container} (hab : c.Containers d i a b) : b = a := by
  obtain ⟨slots, layout⟩ := a
  obtain ⟨slots', layout'⟩ := b
  obtain ⟨rfl, hlayouts⟩ := hab
  cases (h d i layout layout').mp hlayouts
  rfl

/-- The coupling of nothing so far: what is appended to documents of these sizes corresponds. -/
def Coupling.behind (size size' : Nat) (known : String → Prop) : Coupling where
  base := size
  base' := size'
  partner i := size' + (i - size)
  linked i := size ≤ i
  whole i := size ≤ i
  layouts _ _ a b := b = a
  known := known
  partner_add k := by rw [Nat.add_sub_cancel_left]
  partner_lt hl hi := absurd hi (Nat.not_lt_of_le hl)
  partner_inj hi hj h := by omega
  whole_add k := Nat.le_add_right _ _
  linked_of_whole h := h
  layouts_mono _ h := h
  layouts_self _ _ _ _ _ _ := rfl

theorem Coupling.isExact_behind (size size' : Nat) (known : String → Prop) :
    (behind size size' known).IsExact :=
  fun _ _ _ _ => Iff.rfl

theorem Coupling.closed_behind (size size' : Nat) (env : Environment) :
    (behind size size' fun _ => True).Closed env :=
  ⟨fun _ => trivial, fun _ _ _ => trivial⟩

/-- Two states with the same variables and macros, whatever their documents hold. -/
theorem RenderState.twin_behind {s t : RenderState} {known : String → Prop}
    (hs : s.document.Sound) (ht : t.document.Sound) (hglobals : t.globals = s.globals)
    (hmacros : t.macros = s.macros)
    (hknown : ∀ name m, s.macros.get? name = some m → known m.body) :
    s.Twin (.behind s.document.size t.document.size known) t := by
  refine ⟨⟨Nat.le_refl _, Nat.add_comm _ _, hs, ht, fun {i} hi => ?_⟩, hglobals, hmacros,
    fun {_ _} h => hknown _ _ h⟩
  have hi : s.document.size ≤ i := hi
  show Node.Coupled _ _ i _ (t.document.node (t.document.size + (i - s.document.size)))
  rw [Document.node_of_size_le hi, Document.node_of_size_le (Nat.le_add_right _ _)]
  exact .default _ _ i

namespace Rendering

variable {env : Environment} {c : Coupling}

theorem twins_reportTemplate (kind : EventKind) (detail : String) :
    Twins env c [] (reportTemplate env kind detail) (reportTemplate env kind detail) := by
  unfold reportTemplate
  exact .ite (.modify fun s t h _ => ⟨h.events _ _, .refl _⟩) (.pure _)

theorem twins_loadLayout (name : String) :
    Twins env c [] (loadLayout env name) (loadLayout env name) := by
  unfold loadLayout
  split
  · exact .pure _
  · split
    · exact .bind (.throw fun _ h => by cases h) fun _ =>
        .bind (twins_reportTemplate _ _) fun _ => .pure _
    · exact .bind (twins_reportTemplate _ _) fun _ => .pure _

theorem known_of_loadLayout (hclosed : c.Closed env) {name source : String} {s : RenderState}
    (h : (loadLayout env name s).1 = .ok (some source)) : c.known source := by
  unfold loadLayout at h
  cases hload : env.loader name (env.settings.paths.directories Loader.templates) with
  | ok loaded =>
      rw [hload] at h
      cases h
      exact hclosed.loaded hload
  | error e =>
      rw [hload] at h
      dsimp only at h
      unfold reportTemplate at h
      split at h
      · cases h
      · split at h <;> cases h

variable (henv : env.toolkit = .builtin) (hclosed : c.Closed env) (hexact : c.IsExact)
include henv hclosed hexact

/-- The root of a container is rendered, and the container looked at. -/
theorem twins_container {root : Nat} (hw : c.whole root) :
    Twins env c [(root, .root)]
      (do
        let text ← renderNode env 0 root
        return (text, ((← node root).container).getD {}))
      (do
        let text ← renderNode env 0 (c.partner root)
        return (text, ((← node (c.partner root)).container).getD {})) := by
  refine (renderNode_twins henv hclosed 0 root .root hw).bind fun text =>
    .node_bind fun s t h _ => ?_
  have hc := (h.node (c.linked_of_whole hw)).container
  have heq : (t.node (c.partner root)).container = (s.node root).container := by
    generalize (s.node root).container = a, (t.node (c.partner root)).container = b at hc
    cases hc with
    | none => rfl
    | some hab => rw [hexact.eq hab]
  rw [heq]
  exact .pure _

theorem twins_renderContainer {source : String} (hsource : c.known source)
    (slots : NameMap String) :
    Twins env c [] (renderContainer env source slots) (renderContainer env source slots) := by
  intro s t h hs
  unfold renderContainer
  rcases build_twin henv hclosed h none (fun p hp => by cases hp) hsource ∅
    env.settings.paths with
    ⟨root, u, v, hu, hv, hroot, huv, hbuilt, hbuilt'⟩ | ⟨u, v, hu, hv, herrors, huv, hgrows⟩
  · have hl := c.linked_of_le hroot
    have hab : c.Containers u.document root { slots } { slots } :=
      ⟨rfl, (hexact _ _ _ _).mpr rfl⟩
    let start : RenderState := { u with document := u.document.setContainer root { slots } }
    let start' : RenderState :=
      { v with document := v.document.setContainer (c.partner root) { slots } }
    have hstart : start.Twin c start' := by
      refine ⟨huv.document.update hl ?_ ?_ rfl ((huv.node hl).setContainer hab), huv.globals,
        huv.macros, huv.known⟩
      · exact hbuilt.setContainer _
      · exact hbuilt'.setContainer _
    have hupdate : u.document.Grows start.document := .update rfl
    have hgrows := (Document.Grows.of_stays hbuilt.stays).trans hupdate
    have hhas := ((Document.Has.nil u.document).cons hbuilt.root_lt hbuilt.kind).grows hupdate
    have hnext := twins_container henv hclosed hexact (c.whole_of_le hroot) start start' hstart hhas
    have hv : build env source none ∅ env.settings.paths t = (.ok (c.partner root), v) := hv
    rw [bind_of_ok hu, bind_of_ok hv]
    exact ⟨hnext.result, hnext.twin, hgrows.trans hnext.grows, hnext.known⟩
  · have hv : build env source none ∅ env.settings.paths t =
        (.error (.parse (env.scanner.read source).errors), v) := hv
    rw [bind_of_error hu, bind_of_error hv]
    refine ⟨rfl, huv, hgrows, fun herr => ?_⟩
    cases herr
    exact ⟨source, hsource, rfl, herrors⟩

theorem twins_wrap (used : List String) (text : String) (a : Container) (remaining : Nat) :
    Twins env c [] (wrap env used text a remaining) (wrap env used text a remaining) := by
  induction remaining generalizing used text a with
  | zero =>
      unfold wrap
      split
      · exact .bind (twins_reportTemplate _ _) fun _ => .pure _
      · exact .pure _
  | succ remaining ih =>
      unfold wrap
      split
      · exact .pure _
      · split
        · exact .bind (twins_reportTemplate _ _) fun _ => .pure _
        · refine (twins_loadLayout _).bind_result fun r u hr => ?_
          split
          · exact .pure _
          · refine .bind (twins_renderContainer henv hclosed hexact
              (known_of_loadLayout hclosed hr) _) fun p => ?_
            exact ih _ _ _

theorem twins_page {source : String} (hsource : c.known source) :
    Twins env c [] (page env source) (page env source) :=
  .bind (twins_renderContainer henv hclosed hexact hsource _) fun _ =>
    twins_wrap henv hclosed hexact _ _ _ _

end Rendering

end TagTemplate
