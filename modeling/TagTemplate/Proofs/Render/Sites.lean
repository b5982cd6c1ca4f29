import TagTemplate.Proofs.Render.Expressions
import TagTemplate.Proofs.Value.Maps

/-! # Where expressions are evaluated

A site is a place where expressions are evaluated: variables are visible there, and assignments and
events change its state.  An evaluation acts on a site through what its outcome names and in no
other way: by the events, in order, and then by the assignment.

* `Expression.Calls`: what the call of an expression comes to, and the events on the way.
* `Site.Settles`: what is left behind by an evaluation whose call has come to a value or an error.
* `Site.evaluate_protocol`: a failure assigns nothing, a success assigns once if there is a target,
  and an error gets out only of an expression that is loud. -/

namespace TagTemplate

/-! ### Calls -/

namespace Expression

/-- The first option of the name is given, with this value or without one. -/
def FirstOption (x : Expression) (name : String) (v : Option Value) : Prop :=
  ∃ before after, x.options = before ++ (name, v) :: after ∧ ∀ o ∈ before, o.1 ≠ name

/-- Failures are errors: the first option `silent` has a value that is not true. -/
def IsLoud (x : Expression) : Prop :=
  ∃ v, x.FirstOption "silent" (some v) ∧ v.isTruthy = false

/-- The target is a variable of the template: the first option `global` has no value, or one that
is true. -/
def IsGlobal (x : Expression) : Prop :=
  ∃ v, x.FirstOption "global" v ∧ ∀ w ∈ v, w.isTruthy = true

variable {x : Expression}

theorem option?_eq_some_iff {name : String} {v : Option Value} :
    x.option? name = some v ↔ x.FirstOption name v :=
  NameMap.find?_eq_some_iff

theorem silent_eq_false_iff : x.silent = false ↔ x.IsLoud := by
  unfold silent IsLoud
  simp only [← option?_eq_some_iff]
  cases x.option? "silent" with
  | none => simp
  | some v => cases v <;> simp

theorem global_eq_true_iff : x.global = true ↔ x.IsGlobal := by
  unfold «global» IsGlobal
  simp only [← option?_eq_some_iff]
  cases x.option? "global" with
  | none => simp
  | some v => cases v <;> simp

/-- The call of an expression reports the events and comes to a value or an error.  Without a
function it comes to the first argument. -/
inductive Calls (functions : NameMap Function) (lookup : String → Option Value) (x : Expression) :
    List (EventKind × String) → Except EvalError Value → Prop
  | first (h : x.function = none) :
      Calls functions lookup x []
        (.ok ((x.arguments.map (argumentValue lookup)).head?.getD .null))
  | unknown {name : String} (h : x.function = some name) (hf : functions.get? name = none) :
      Calls functions lookup x [] (.error (.unknownFunction name))
  | answers {name : String} {f : Function} {v : Value} (h : x.function = some name)
      (hf : functions.get? name = some f)
      (hv : f (x.arguments.map (argumentValue lookup)) = .ok v) :
      Calls functions lookup x [(.sent, name), (.received, name)] (.ok v)
  | fails {name : String} {f : Function} {e : FunctionError} (h : x.function = some name)
      (hf : functions.get? name = some f)
      (he : f (x.arguments.map (argumentValue lookup)) = .error e) :
      Calls functions lookup x [(.sent, name)] (.error (.function name e))

/-- The outcome of an expression whose call has come to a value or an error. -/
def concluded (x : Expression) (events : List (EventKind × String)) :
    Except EvalError Value → Outcome
  | .ok v => .succeeded x events v
  | .error e => .failed x.silent events e

/-- Every call comes to a value or an error, and the outcome follows from it. -/
theorem run_calls (functions : NameMap Function) (lookup : String → Option Value)
    (x : Expression) :
    ∃ events r, x.Calls functions lookup events r ∧
      run functions lookup x = x.concluded events r := by
  cases hx : x.function with
  | none =>
      refine ⟨[], _, .first hx, ?_⟩
      rw [run, hx, List.headD_eq_head?_getD, concluded]
  | some name =>
      cases hf : functions.get? name with
      | none =>
          refine ⟨[], _, .unknown hx hf, ?_⟩
          simp only [run, hx, hf, concluded]
      | some f =>
          cases hv : f (x.arguments.map (argumentValue lookup)) with
          | ok v =>
              refine ⟨_, _, .answers hx hf hv, ?_⟩
              simp only [run, hx, hf, hv, concluded]
          | error e =>
              refine ⟨_, _, .fails hx hf hv, ?_⟩
              simp only [run, hx, hf, hv, concluded]

end Expression

/-! ### Sites -/

/-- A place where expressions are evaluated, with a state of any kind. -/
structure Site (σ : Type) where
  lookup? : σ → String → Option Value
  assign : σ → Assignment → σ
  report : σ → EventKind → String → σ

namespace Site

variable {σ : Type} (site : Site σ)

/-- The state after several events. -/
def reports (s : σ) (events : List (EventKind × String)) : σ :=
  events.foldl (fun s e => site.report s e.1 e.2) s

/-- What is left of an outcome that is carried out. -/
def carryOut (s : σ) (o : Outcome) : Except EvalError Evaluation × σ :=
  let t := site.reports s o.events
  (o.result, o.assignment.elim t (site.assign t))

/-- The evaluation of an expression in text form; a malformed one counts as null. -/
def evaluate (functions : NameMap Function) (source : String) (s : σ) :
    Except EvalError Evaluation × σ :=
  site.carryOut s (Expression.evaluate functions (site.lookup? s) source)

/-- The evaluation of an expression in text form; a malformed one is an error. -/
def evaluateStrict (functions : NameMap Function) (source : String) (s : σ) :
    Except EvalError Evaluation × σ :=
  site.carryOut s (Expression.evaluateStrict functions (site.lookup? s) source)

/-- What an evaluation leaves behind when its call has reported the events and come to a value or
an error. -/
inductive Settles (x : Expression) (s : σ) (events : List (EventKind × String)) :
    Except EvalError Value → Except EvalError Evaluation × σ → Prop
  | shown {v : Value} (h : x.target = none) :
      Settles x s events (.ok v) (.ok { value := v, assigned := none }, site.reports s events)
  | assigned {v : Value} {name : String} {isGlobal : Bool} (h : x.target = some name)
      (hg : isGlobal = true ↔ x.IsGlobal) :
      Settles x s events (.ok v) (.ok { value := v, assigned := some name },
        site.assign (site.reports s events) { name, value := v, «global» := isGlobal })
  | swallowed {e : EvalError} (h : ¬ x.IsLoud) :
      Settles x s events (.error e) (.ok { value := .null, assigned := none },
        site.reports s (events ++ [(.error, e.display)]))
  | surfaced {e : EvalError} (h : x.IsLoud) :
      Settles x s events (.error e) (.error e, site.reports s (events ++ [(.error, e.display)]))

variable {site}

theorem settles_concluded (x : Expression) (s : σ) (events : List (EventKind × String))
    (r : Except EvalError Value) :
    site.Settles x s events r (site.carryOut s (x.concluded events r)) := by
  cases r with
  | ok v =>
      cases htarget : x.target with
      | none =>
          rw [Expression.concluded, Outcome.succeeded, htarget]
          exact .shown htarget
      | some name =>
          rw [Expression.concluded, Outcome.succeeded, htarget]
          exact .assigned htarget Expression.global_eq_true_iff
  | error e =>
      cases hsilent : x.silent with
      | true =>
          rw [Expression.concluded, hsilent]
          refine .swallowed fun h => ?_
          rw [Expression.silent_eq_false_iff.mpr h] at hsilent
          cases hsilent
      | false =>
          rw [Expression.concluded, hsilent]
          exact .surfaced (Expression.silent_eq_false_iff.mp hsilent)

/-- An error gets out of an evaluation only if the call fails and the expression is loud. -/
theorem Settles.error_iff {x : Expression} {s : σ} {events : List (EventKind × String)}
    {r : Except EvalError Value} {out : Except EvalError Evaluation × σ}
    (h : site.Settles x s events r out) (e : EvalError) :
    out.1 = .error e ↔ r = .error e ∧ x.IsLoud := by
  cases h with
  | shown h => simp
  | assigned h hg => simp
  | swallowed h => simp [h]
  | surfaced h => simp [h]

/-- A node as a site of the rendering it belongs to. -/
def ofNode (id : Nat) : Site RenderState where
  lookup? s := s.lookup? id
  assign s := s.assign id
  report s := s.report id

end Site

/-- A rendering carries out an outcome as the site of the node does. -/
theorem Rendering.carryOut_eq (id : Nat) (o : Outcome) (s : RenderState) :
    carryOut id o s = (((Site.ofNode id).carryOut s o).1.mapError .evaluation,
      ((Site.ofNode id).carryOut s o).2) := by
  rw [carryOut, bind_of_ok (forIn_report id o.events s), Site.carryOut]
  obtain ⟨result, events, assignment⟩ := o
  cases assignment <;> cases result <;> rfl

/-! ### The protocol of an evaluation -/

/-- The evaluation of an expression, at every site and with all functions.  If the text is no
expression, an error is surfaced without any effect, or reported and swallowed.  Otherwise both
evaluations do the same, and what they do follows from what the call comes to; it is an error only
if the call fails and the first option `silent` is not true.  The nodes of a rendering are such
sites, and events there leave variables and macros as they are. -/
theorem Site.evaluate_protocol :
    (∀ {σ : Type} (site : Site σ) (functions : NameMap Function) (source : String) (s : σ),
      match Expression.parse source with
      | .error errors =>
        site.evaluate functions source s =
            (.ok { value := .null, assigned := none },
              site.report s .error ("malformed expression '" ++ source ++ "'")) ∧
          site.evaluateStrict functions source s = (.error (.malformed source errors), s)
      | .ok x =>
        site.evaluateStrict functions source s = site.evaluate functions source s ∧
          ∃ events r, x.Calls functions (site.lookup? s) events r ∧
            site.Settles x s events r (site.evaluate functions source s) ∧
            ∀ e, (site.evaluate functions source s).1 = .error e ↔ r = .error e ∧ x.IsLoud) ∧
      ∀ (id : Nat) (s : RenderState),
        (∀ o, Rendering.carryOut id o s = (((Site.ofNode id).carryOut s o).1.mapError .evaluation,
          ((Site.ofNode id).carryOut s o).2)) ∧
        ∀ events, ∃ told, (Site.ofNode id).reports s events = { s with events := told } := by
  refine ⟨fun site functions source s => ?_, fun id s => ⟨fun o => Rendering.carryOut_eq id o s,
    fun events => s.reports_eq id events⟩⟩
  cases hparse : Expression.parse source with
  | error errors =>
      dsimp only
      rw [evaluate, evaluateStrict, Expression.evaluate, Expression.evaluateStrict, hparse]
      exact ⟨rfl, rfl⟩
  | ok x =>
      obtain ⟨events, r, hcalls, hrun⟩ := Expression.run_calls functions (site.lookup? s) x
      have hevaluate : site.evaluate functions source s =
          site.carryOut s (x.concluded events r) := by
        rw [evaluate, Expression.evaluate, hparse, ← hrun]
      have hstrict : site.evaluateStrict functions source s =
          site.carryOut s (x.concluded events r) := by
        rw [evaluateStrict, Expression.evaluateStrict, hparse, ← hrun]
      have hsettles : site.Settles x s events r (site.carryOut s (x.concluded events r)) :=
        settles_concluded x s events r
      dsimp only
      rw [hstrict, hevaluate]
      exact ⟨rfl, events, r, hcalls, hsettles, hsettles.error_iff⟩

end TagTemplate
