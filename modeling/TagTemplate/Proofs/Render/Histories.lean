import TagTemplate.Proofs.Render.Plans

/-! # The history of a rendering

A rendering changes the state in moves: one for each step that a node takes by itself, from the
state in which it takes it to the state after.  Here a rendering keeps a history of its moves,
without being changed by it.  The state settles which moves are made: nothing is in a history but
what happens on the way, and each move starts where the one before it has ended.

* `Recorded`: a step with the moves that it makes from each state.
* `Rendering.recorded`: the rendering of a node with its history.
* `Rendering.run_recorded`: without the history it is the rendering of the node. -/

namespace TagTemplate

/-! ### Moves -/

/-- A step that the node `id` takes by itself. -/
structure Move where
  id : Nat
  before : RenderState
  after : RenderState

/-- The moves lead from the first state to the second, each from where the one before has ended. -/
inductive Leads : RenderState → List Move → RenderState → Prop
  | nil (s : RenderState) : Leads s [] s
  | cons {id : Nat} {s t u : RenderState} {moves : List Move} (h : Leads t moves u) :
      Leads s (⟨id, s, t⟩ :: moves) u

namespace Leads

theorem single (id : Nat) (s t : RenderState) : Leads s [⟨id, s, t⟩] t :=
  .cons (.nil t)

theorem append {s t u : RenderState} {moves rest : List Move} (h : Leads s moves t)
    (h' : Leads t rest u) : Leads s (moves ++ rest) u := by
  induction h with
  | nil s => exact h'
  | cons _ ih => exact .cons (ih h')

end Leads

/-! ### Steps with a history -/

/-- A step of a rendering with the moves that it makes from each state. -/
structure Recorded (α : Type) where
  run : Rendering α
  moves (s : RenderState) : List Move
  leads (s : RenderState) : Leads s (moves s) (run s).2

namespace Recorded

variable {α β : Type}

/-- A result without any move. -/
def pure (a : α) : Recorded α where
  run := Pure.pure a
  moves _ := []
  leads s := .nil s

/-- One move of a node. -/
def own (id : Nat) (x : Rendering α) : Recorded α where
  run := x
  moves s := [⟨id, s, (x s).2⟩]
  leads s := .single id s (x s).2

/-- What comes after a first step: nothing if it has failed. -/
def onward (f : α → Recorded β) : Except RenderError α × RenderState → List Move
  | (.ok a, t) => (f a).moves t
  | (.error _, _) => []

/-- One step after another, if the first succeeds. -/
def bind (x : Recorded α) (f : α → Recorded β) : Recorded β where
  run := x.run >>= fun a => (f a).run
  moves s := x.moves s ++ onward f (x.run s)
  leads s := by
    have h := x.leads s
    rw [Rendering.bind_apply]
    cases hr : x.run s with
    | mk r t =>
        rw [hr] at h
        cases r with
        | ok a => exact h.append ((f a).leads t)
        | error e => exact h.append (.nil t)

/-- A step and then, whether it succeeded or not, a move of the node. -/
def ensuring (x : Recorded α) (id : Nat) (f : RenderState → RenderState) : Recorded α where
  run := x.run.ensuring f
  moves s := x.moves s ++ [⟨id, (x.run s).2, f (x.run s).2⟩]
  leads s := (x.leads s).append (.single id _ _)

/-- The texts of a list of nodes, one after another. -/
def texts (render : Nat → Recorded String) : List Nat → Recorded (List String)
  | [] => .pure []
  | c :: ids => (render c).bind fun text => (texts render ids).bind fun rest => .pure (text :: rest)

theorem run_texts (render : Nat → Recorded String) :
    ∀ ids : List Nat, (texts render ids).run = ids.mapM fun c => (render c).run
  | [] => rfl
  | c :: ids => by
      rw [List.mapM_cons, ← run_texts render ids]
      rfl

def held (render : Nat → Recorded String) (id : Nat) : Recorded String :=
  (own id (Rendering.node id)).bind fun n =>
    (texts render n.children).bind fun texts => .pure (String.join texts)

theorem run_held {render : Nat → Recorded String} {render' : Nat → Rendering String} {id : Nat}
    (h : ∀ c, (render c).run = if c < id then render' c else Pure.pure "") :
    (held render id).run = Rendering.held render' id := by
  refine bind_congr fun n => ?_
  rw [Rendering.sequence, ← funext h, ← run_texts]
  rfl

end Recorded

/-! ### The history of a plan -/

/-- The plan of the node `id`, carried out with a history. -/
def Plan.recorded (env : Environment) (id : Nat) (body : Recorded String)
    (nested : Option (Nat → Recorded String)) : {α : Type} → Plan α → Recorded α
  | _, .done a => .pure a
  | _, .own x next => (Recorded.own id x).bind fun b => recorded env id body nested (next b)
  | _, .body next => body.bind fun text => recorded env id body nested (next text)
  | _, .ensuring x f next =>
    ((recorded env id body nested x).ensuring id f).bind fun b =>
      recorded env id body nested (next b)
  | _, .fragment source parent inherited paths tooDeep next =>
    match nested with
    | none => recorded env id body nested tooDeep
    | some render =>
      (Recorded.own id (Rendering.build env source parent inherited paths)).bind fun root =>
        (render root).bind fun text => recorded env id body nested (next root text)

theorem Plan.run_recorded (env : Environment) (id : Nat) (body : Recorded String)
    (nested : Option (Nat → Recorded String)) {α : Type} (p : Plan α) :
    (p.recorded env id body nested).run =
      p.run env body.run (nested.map fun render root => (render root).run) := by
  induction p with
  | done a => rfl
  | own x next ih => exact bind_congr fun b => ih b
  | body next ih => exact bind_congr fun text => ih text
  | ensuring x f next ihx ih =>
      rw [run, ← ihx]
      exact bind_congr fun b => ih b
  | fragment source parent inherited paths tooDeep next ihDeep ih =>
      cases nested with
      | none => exact ihDeep
      | some render => exact bind_congr fun root => bind_congr fun text => ih root text

/-! ### The history of a node -/

namespace Rendering

/-- The rendering of a node with its history. -/
def recorded (env : Environment) (depth id : Nat) : Recorded String :=
  (Plan.node env id).recorded env id
    (.held (fun child => if _h : child < id then recorded env depth child else .pure "") id)
    (if _h : depth < env.settings.maxDepth then some fun root => recorded env (depth + 1) root
      else none)
termination_by (env.settings.maxDepth - depth, id)
decreasing_by
  · exact Prod.Lex.right _ _h
  · exact Prod.Lex.left _ _ (by omega)

theorem recorded_eq (env : Environment) (depth id : Nat) :
    recorded env depth id = (Plan.node env id).recorded env id
      (.held (fun child => if child < id then recorded env depth child else .pure "") id)
      (if depth < env.settings.maxDepth then some (recorded env (depth + 1)) else none) := by
  rw [recorded]
  rfl

/-- The history leaves the rendering of a node alone. -/
theorem run_recorded (env : Environment) (depth id : Nat) :
    (recorded env depth id).run = renderNode env depth id := by
  refine depth_induction env.settings.maxDepth
    (P := fun depth id => (recorded env depth id).run = renderNode env depth id) ?_ depth id
  intro depth id ihchild ihdeeper
  have hheld : (Recorded.held (fun child =>
      if child < id then recorded env depth child else .pure "") id).run =
        held (renderNode env depth) id := by
    refine Recorded.run_held fun c => ?_
    split
    · next hc => exact ihchild c hc
    · rfl
  have hdeeper : (if depth < env.settings.maxDepth then some (recorded env (depth + 1))
      else none).map (fun render root => (render root).run) = deeper env depth := by
    unfold deeper
    split
    · next hd => exact congrArg some (funext (ihdeeper hd))
    · rfl
  rw [recorded_eq, Plan.run_recorded, hheld, hdeeper, ← renderNode_eq_run]

end Rendering

end TagTemplate
