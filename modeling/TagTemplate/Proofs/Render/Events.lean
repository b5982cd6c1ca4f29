import TagTemplate.Proofs.Render.Steps

/-! # Events as brackets

A `started` event opens a bracket, and a `complete` event with the same tag and the same detail
closes it.  Events of the other kinds stand between the brackets.

* `Event.unclosed`: the brackets that wait for their end after a list of events.
* `Event.Balanced`: a list of events that leaves the brackets waiting before it as they are.
* `Event.Logs`: what a step reports that closes all its brackets if it succeeds.
* `Event.IsGuard`: the events of the limits and of missing sources.
* `Event.TellsFault.not_tellsGuard`: no other error is worded like one of them. -/

namespace TagTemplate

namespace Event

/-- The brackets that wait after an event, the last one first.  An end that does not fit the last
bracket is wrong. -/
def follow (waiting : List Event) (e : Event) : Option (List Event) :=
  match e.kind with
  | .started => some (e :: waiting)
  | .complete =>
    match waiting with
    | [] => none
    | w :: rest => if w.tag = e.tag ∧ w.detail = e.detail then some rest else none
  | _ => some waiting

/-- The brackets that wait after a list of events, if no end is wrong. -/
def unclosed (waiting events : List Event) : Option (List Event) :=
  events.foldlM follow waiting

/-- After the events the same brackets wait as before. -/
def Balanced (events : List Event) : Prop :=
  ∀ waiting, unclosed waiting events = some waiting

namespace Balanced

variable {es fs : List Event}

theorem nil : Balanced [] :=
  fun _ => rfl

theorem append (h : Balanced es) (h' : Balanced fs) : Balanced (es ++ fs) := by
  intro waiting
  have hes : es.foldlM follow waiting = some waiting := h waiting
  rw [unclosed, List.foldlM_append, hes]
  exact h' waiting

theorem single {e : Event} (hs : e.kind ≠ .started) (hc : e.kind ≠ .complete) : Balanced [e] := by
  obtain ⟨kind, tag, detail⟩ := e
  intro waiting
  cases kind with
  | started => exact absurd rfl hs
  | complete => exact absurd rfl hc
  | sent => rfl
  | error => rfl
  | received => rfl

theorem error (tag detail : String) : Balanced [⟨.error, tag, detail⟩] :=
  fun _ => rfl

theorem enclose (h : Balanced es) (tag detail : String) :
    Balanced (⟨.started, tag, detail⟩ :: es ++ [⟨.complete, tag, detail⟩]) := by
  intro waiting
  have hes : es.foldlM follow (⟨.started, tag, detail⟩ :: waiting)
      = some (⟨.started, tag, detail⟩ :: waiting) := h _
  have hstart : follow waiting ⟨.started, tag, detail⟩
      = some (⟨.started, tag, detail⟩ :: waiting) := rfl
  have hend : follow (⟨.started, tag, detail⟩ :: waiting) ⟨.complete, tag, detail⟩
      = some waiting := if_pos ⟨rfl, rfl⟩
  rw [unclosed, List.cons_append, List.foldlM_cons, hstart, Option.bind_eq_bind, Option.bind_some,
    List.foldlM_append, hes, Option.bind_eq_bind, Option.bind_some, List.foldlM_cons, hend]
  rfl

end Balanced

/-- The events of a step with that result: more events would balance them, and none are missing if
the step succeeds. -/
def Logs {ε α : Type} (r : Except ε α) (events : List Event) : Prop :=
  ∃ rest, Balanced (events ++ rest) ∧ ∀ a, r = .ok a → rest = []

namespace Logs

variable {ε α β : Type} {r : Except ε α} {r' : Except ε β} {es fs : List Event}

theorem of_balanced (h : Balanced es) : Logs r es :=
  ⟨[], by rwa [List.append_nil], fun _ _ => rfl⟩

theorem balanced {a : α} (h : Logs (.ok a : Except ε α) es) : Balanced es := by
  obtain ⟨rest, hrest, hnil⟩ := h
  rwa [hnil a rfl, List.append_nil] at hrest

theorem append (h : Balanced es) (h' : Logs r fs) : Logs r (es ++ fs) := by
  obtain ⟨rest, hrest, hnil⟩ := h'
  exact ⟨rest, by rw [List.append_assoc]; exact h.append hrest, hnil⟩

theorem of_error {e e' : ε} (h : Logs (.error e : Except ε α) es) :
    Logs (.error e' : Except ε β) es := by
  obtain ⟨rest, hrest, _⟩ := h
  exact ⟨rest, hrest, nofun⟩

theorem enclose_error {e : ε} (h : Logs (.error e : Except ε α) es) (tag detail : String) :
    Logs (.error e : Except ε β) (⟨.started, tag, detail⟩ :: es) := by
  obtain ⟨rest, hrest, _⟩ := h
  refine ⟨rest ++ [⟨.complete, tag, detail⟩], ?_, nofun⟩
  have := hrest.enclose tag detail
  rwa [List.cons_append, List.append_assoc] at this

end Logs

/-- What the events of limits and of missing sources say. -/
def TellsGuard (detail : String) : Prop :=
  detail = "iteration limit reached" ∨ detail = "maximum nesting depth exceeded" ∨
    detail = "layout chain too deep" ∨ ∃ cause : LoadError, detail = cause.display

/-- The event says that a limit has been reached, or that a source is missing. -/
def IsGuard (e : Event) : Prop :=
  e.kind = .error ∧ TellsGuard e.detail

/-! ### The wording of errors -/

/-- What the other errors of the known tags say. -/
inductive TellsFault : String → Prop
  | evaluation (e : EvalError) : TellsFault e.display
  | coercion (key : String) : TellsFault ("cannot coerce '" ++ key ++ "'")
  | unknownMacro (name : String) : TellsFault ("unknown macro '" ++ name ++ "'")
  | attempts : TellsFault "attempts exhausted"
  | cycle (name : String) : TellsFault (Rendering.cycleMessage name)

/-- An error is worded like a limit, a missing source or another fault of the known tags. -/
def IsWorded (kind : EventKind) (detail : String) : Prop :=
  kind = .error → TellsGuard detail ∨ TellsFault detail

/-- The first nine characters. -/
def stem (detail : String) : List Char :=
  detail.toList.take 9

theorem stem_append {lead : String} (h : 9 ≤ lead.toList.length) (rest : String) :
    stem (lead ++ rest) = stem lead := by
  rw [stem, String.toList_append, List.take_append_of_le_length h, stem]

/-- The stems of what limits and missing sources say. -/
def guardStems : List (List Char) :=
  ["iteration", "maximum n", "layout ch", "template ", "error rea"].map String.toList

theorem TellsGuard.stem_mem {detail : String} (h : TellsGuard detail) :
    stem detail ∈ guardStems := by
  rcases h with rfl | rfl | rfl | ⟨name | ⟨path, cause⟩, rfl⟩
  · decide
  · decide
  · decide
  · show stem ("template source not found: " ++ name) ∈ guardStems
    rw [stem_append (by decide)]
    decide
  · show stem ("error reading template file " ++ path ++ ": " ++ cause.message) ∈ guardStems
    rw [String.append_assoc, String.append_assoc, stem_append (by decide)]
    decide

theorem TellsFault.stem_notMem {detail : String} (h : TellsFault detail) :
    stem detail ∉ guardStems := by
  cases h with
  | evaluation e =>
      cases e with
      | unknownFunction name =>
          show stem ("unknown function: " ++ name) ∉ guardStems
          rw [stem_append (by decide)]
          decide
      | function name cause =>
          show stem ("function '" ++ name ++ "' failed: " ++ cause.display) ∉ guardStems
          rw [String.append_assoc, String.append_assoc, stem_append (by decide)]
          decide
      | malformed expression errors =>
          show stem ("malformed expression '" ++ expression ++ "'") ∉ guardStems
          rw [String.append_assoc, stem_append (by decide)]
          decide
  | coercion key =>
      rw [String.append_assoc, stem_append (by decide)]
      decide
  | unknownMacro name =>
      rw [String.append_assoc, stem_append (by decide)]
      decide
  | attempts => decide
  | cycle name =>
      show stem ("layout cycle at '" ++ name ++ "'") ∉ guardStems
      rw [String.append_assoc, stem_append (by decide)]
      decide

/-- No other error is worded like a limit or a missing source. -/
theorem TellsFault.not_tellsGuard {detail : String} (h : TellsFault detail) :
    ¬ TellsGuard detail :=
  fun hguard => h.stem_notMem hguard.stem_mem

end Event

end TagTemplate
