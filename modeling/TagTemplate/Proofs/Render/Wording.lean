import TagTemplate.Proofs.Render.Moves
import TagTemplate.Proofs.Render.OtherSettings

/-! # The wording of reported errors

Where no tag has a handler of its own, a rendering reports no errors but those of limits, of missing
sources, and of the other faults of the known tags.  The wordings tell the former from the latter.

* `RenderState.IsWorded`: the errors of a state are worded so.
* `Rendering.isWorded_page`: so are those of every state of a page.
* `Template.render_worded`: each error of a rendering is a guard or a fault, and not both. -/

namespace TagTemplate

/-- All errors so far are worded like limits, missing sources or other faults of the known tags. -/
def RenderState.IsWorded (s : RenderState) : Prop :=
  ∀ e ∈ s.events.toList, Event.IsWorded e.kind e.detail

namespace RenderState.IsWorded

variable {s : RenderState}

theorem push (h : s.IsWorded) {e : Event} (he : Event.IsWorded e.kind e.detail) :
    ({ s with events := s.events.push e } : RenderState).IsWorded := by
  rw [IsWorded, Array.toList_push]
  exact List.forall_mem_append.mpr ⟨h, List.forall_mem_singleton.mpr he⟩

theorem reports {id : Nat} {events : List (EventKind × String)} (h : s.IsWorded)
    (hevents : ∀ e ∈ events, Event.IsWorded e.1 e.2) : (s.reports id events).IsWorded := by
  induction events generalizing s with
  | nil => exact h
  | cons e events ih =>
      obtain ⟨he, hrest⟩ := List.forall_mem_cons.mp hevents
      refine ih ?_ hrest
      unfold RenderState.report
      dsimp only
      split
      · exact h.push he
      · exact h

end RenderState.IsWorded

section moves
variable {env : Environment} {s t : RenderState}
  (hhandlers : ∀ tag, Handler.find? env.toolkit.handlers tag = none)
include hhandlers

theorem Node.Says.isWorded {n : Node} {e : EventKind × String} (h : n.Says env e) :
    Event.IsWorded e.1 e.2 := by
  refine h.resolve_left ?_
  rintro ⟨handler, hfind⟩
  rw [hhandlers] at hfind
  cases hfind

/-- A move tells only errors that are worded so. -/
theorem OwnMove.isWorded {id : Nat} (h : OwnMove env id s t) (hs : s.IsWorded) : t.IsWorded := by
  cases h with
  | tell h => exact hs.reports fun e he => (h e he).isWorded hhandlers
  | @assign events h a _ =>
      rw [RenderState.IsWorded, RenderState.assign_events]
      exact hs.reports fun e he => (h e he).isWorded hhandlers
  | entry | attempt | define | adopt => exact hs
  | fill f _ =>
      rw [RenderState.IsWorded, RenderState.updateContainer_events]
      exact hs

/-- So does a history. -/
theorem Leads.isWorded {d : Document} {id : Nat} {moves : List Move} (h : Leads s moves t)
    (hmoves : ∀ p ∈ moves, p.OwnedBy env d id) (hs : s.IsWorded) : t.IsWorded := by
  induction h with
  | nil s => exact hs
  | @cons _ s t _ _ _ ih =>
      obtain ⟨hfirst, hrest⟩ := List.forall_mem_cons.mp hmoves
      refine ih hrest ?_
      rcases hfirst.moves with hmove | ⟨ns, hgrow⟩
      · exact hmove.isWorded hhandlers hs
      · have hgrow : t = s.grow ns := hgrow
        rw [hgrow]
        exact hs

end moves

namespace Rendering

variable {env : Environment} (hlocal : ∀ p ∈ env.toolkit.preparers, p.IsLocal)
  (hhandlers : ∀ tag, Handler.find? env.toolkit.handlers tag = none)
include hlocal hhandlers

theorem renderNode_isWorded {s : RenderState} {depth id : Nat} (hsound : s.document.Sound)
    (hid : id < s.document.size) (hs : s.IsWorded) : (renderNode env depth id s).2.IsWorded := by
  have howned := (Recorded.Own.node hlocal depth id s.document s hid ⟨.refl _, hsound⟩).owned
  have hleads := (recorded env depth id).leads s
  rw [run_recorded] at hleads
  exact hleads.isWorded hhandlers howned hs

theorem preserves_isWorded_renderContainer (source : String) (slots : NameMap String) :
    Preserves (fun s => Reachable env s ∧ s.IsWorded) (fun s => Reachable env s ∧ s.IsWorded)
      (renderContainer env source slots) := by
  refine fun s hs => .inl ⟨Reaches.renderContainer hlocal source slots s hs.1, ?_⟩
  unfold renderContainer
  cases hb : build env source none ∅ env.settings.paths s with
  | mk r t =>
      obtain ⟨ns, hgrow⟩ := build_grow hb
      have ht : t.IsWorded := by
        rw [hgrow]
        exact hs.2
      cases r with
      | error e =>
          rw [bind_of_error hb]
          exact ht
      | ok root =>
          rw [bind_of_ok hb]
          have hbuilt := built_of_build hlocal (hs.1.sound hlocal) (fun p hp => by cases hp) hb
          have hroot : root < (t.document.setContainer root { slots }).size := by
            rw [Document.setContainer, Document.size_update]
            exact hbuilt.root_lt
          let start := { t with document := t.document.setContainer root { slots } }
          have hrender : (renderNode env 0 root start).2.IsWorded :=
            renderNode_isWorded hlocal hhandlers (hbuilt.setContainer _) hroot ht
          have hread (text : String) (u : RenderState) :
              ((do return (text, ((← node root).container).getD {}) :
                Rendering (String × Container)) u).2 = u := rfl
          rw [← snd_bind hread] at hrender
          exact hrender

/-- All errors of a page are worded so. -/
theorem isWorded_page (source : String) (globals : Scope) :
    (page env source { globals }).2.IsWorded := by
  have hpage := Preserves.page (fun s e he hs => ⟨.event e hs.1, hs.2.push he⟩)
    (preserves_isWorded_renderContainer hlocal hhandlers) source { globals }
    ⟨.start globals, List.forall_mem_nil _⟩
  exact hpage.elim And.right fun h => h.2.2

end Rendering

/-- Where no tag has a handler, each error of a rendering says that a limit has been met or a source
is missing, or it tells another fault, and no error does both. -/
theorem Template.render_worded {t : Template} (hlocal : ∀ p ∈ t.toolkit.preparers, p.IsLocal)
    (hhandlers : ∀ tag, Handler.find? t.toolkit.handlers tag = none) (source : String) {e : Event}
    (he : e ∈ (t.render source).events) (hk : e.kind = .error) :
    e.IsGuard ∧ ¬ Event.TellsFault e.detail ∨ Event.TellsFault e.detail ∧ ¬ e.IsGuard := by
  have hworded : Event.IsWorded e.kind e.detail := by
    cases hscanner : TagScanner.ofTags t.toolkit.tags t.settings.delimiters with
    | error cause =>
        rw [render_of_tags_error source hscanner] at he
        cases he
    | ok scanner =>
        let env : Environment := ⟨t.toolkit, scanner, t.settings, t.loader⟩
        have hpage : (Rendering.page env source { globals := t.globals }).2.IsWorded :=
          Rendering.isWorded_page hlocal hhandlers source t.globals
        rw [render_eq_concluded source hscanner, events_concluded] at he
        exact hpage e he
  rcases hworded hk with hguard | hfault
  · exact .inl ⟨⟨hk, hguard⟩, fun hfault => hfault.not_tellsGuard hguard⟩
  · exact .inr ⟨hfault, fun hguard => hfault.not_tellsGuard hguard.2⟩

end TagTemplate
