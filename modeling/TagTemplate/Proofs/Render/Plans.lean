import TagTemplate.Proofs.Render.Steps

/-! # Rules as plans

The rule of a node is made of steps of its own, renderings of what the node holds, and renderings of
the fragments that it brings in.  A plan tells them apart, so that something can be shown of all
rules, or done between their steps, without going through each of them.

* `Plan.run`: the step of a rendering that a plan stands for.
* `Plan.node`: the plan of a node.
* `Plan.run_node`: every node is rendered by its plan. -/

namespace TagTemplate

/-- What a rule does before it comes to a result. -/
inductive Plan : Type → Type 1 where
  /-- The rule has come to a result. -/
  | done {α : Type} (a : α) : Plan α
  /-- A step in which nothing is rendered. -/
  | own {α β : Type} (x : Rendering β) (next : β → Plan α) : Plan α
  /-- What the node holds is rendered. -/
  | body {α : Type} (next : String → Plan α) : Plan α
  /-- The state is changed after a part of the rule, also if that has failed. -/
  | ensuring {α β : Type} (x : Plan β) (f : RenderState → RenderState) (next : β → Plan α) : Plan α
  /-- A source is read and rendered as a fragment, unless fragments are nested too deep. -/
  | fragment {α : Type} (source : String) (parent : Option Nat) (inherited : Scope)
      (paths : SearchPaths) (tooDeep : Plan α) (next : Nat → String → Plan α) : Plan α

namespace Plan

variable {α β : Type}

/-- One plan after another. -/
def bind : Plan α → (α → Plan β) → Plan β
  | done a, f => f a
  | own x next, f => .own x fun b => (next b).bind f
  | body next, f => .body fun text => (next text).bind f
  | ensuring x g next, f => .ensuring x g fun b => (next b).bind f
  | fragment source parent inherited paths tooDeep next, f =>
    .fragment source parent inherited paths (tooDeep.bind f) fun root text =>
      (next root text).bind f

/-- A plan with a function of its result. -/
def map (f : α → β) (p : Plan α) : Plan β :=
  p.bind fun a => .done (f a)

/-- The step that a plan stands for, where `body` renders what the node holds and `nested` a node
one level deeper. -/
def run (env : Environment) (body : Rendering String)
    (nested : Option (Nat → Rendering String)) : {α : Type} → Plan α → Rendering α
  | _, .done a => pure a
  | _, .own x next => x >>= fun b => run env body nested (next b)
  | _, .body next => body >>= fun text => run env body nested (next text)
  | _, .ensuring x f next =>
    (run env body nested x).ensuring f >>= fun b => run env body nested (next b)
  | _, .fragment source parent inherited paths tooDeep next =>
    match nested with
    | none => run env body nested tooDeep
    | some render => do
      let root ← Rendering.build env source parent inherited paths
      let text ← render root
      run env body nested (next root text)

/-! ### The plans of the rules -/

section rules
variable (env : Environment) (id : Nat)

/-- The body if the condition holds. -/
def conditional : Plan String :=
  .own get fun s => if s.condition id then .body .done else .done ""

/-- The texts of the body while the condition holds. -/
def whileTexts : Nat → Plan (List String)
  | 0 => .own (Rendering.whileTexts id (pure "") 0) .done
  | limit + 1 => .own get fun s =>
    if s.condition id then .body fun text => (whileTexts limit).map (text :: ·) else .done []

/-- The texts of the body for the entries. -/
def eachTexts (index : Nat) : List LoopEntry → Plan (List String)
  | [] => .done []
  | e :: rest => .own (modify fun s => s.setScope id (e.scope index)) fun _ =>
    .body fun text => (eachTexts (index + 1) rest).map (text :: ·)

/-- The texts of the entries between the glue. -/
def eachLoop : Plan String :=
  .own get fun s =>
    .ensuring (eachTexts id 0 (s.loopEntries id)) (·.setScope id (s.node id).scope) fun texts =>
      .done (((s.node id).attributeText "glue").intercalate texts)

/-- The text of the first attempt that is accepted, or of the last one. -/
def attemptsFrom (accepts : Validator) (attempt : Nat) : Nat → Plan String
  | 0 => .own (modify fun s => s.bind id "@attempt" (Function.ofNat attempt)) fun _ =>
    .body fun text =>
      .own (do if !accepts text then Rendering.report id .error "attempts exhausted") fun _ =>
        .done text
  | count + 1 => .own (modify fun s => s.bind id "@attempt" (Function.ofNat attempt)) fun _ =>
    .body fun text => if accepts text then .done text else attemptsFrom accepts (attempt + 1) count

/-- The body until a validator accepts its text. -/
def untilLoop (validators : NameMap Validator) : Plan String :=
  .own (Rendering.node id) fun n =>
    match (n.attributes.text? "validator").bind validators.get? with
    | some accepts => attemptsFrom id accepts 1 (Rendering.attemptCount n - 1)
    | none => .body .done

/-- The body between the events of something awaited. -/
def await : Plan String :=
  .own (Rendering.node id) fun n =>
    let event := (n.attributes.text? "event").getD "await"
    .own (Rendering.report id .started event) fun _ =>
      .own (Rendering.report id .received event) fun _ =>
        .body fun text => .own (Rendering.report id .complete event) fun _ => .done text

def layout : Plan String :=
  .own (Rendering.node id) fun n =>
    match n.attributes.text? "name" with
    | none => .done ""
    | some name =>
      let fill (content : Option String) : Plan String :=
        .own (modify fun s => s.updateContainer id fun c =>
          { layout := some name
            slots := content.elim c.slots (c.slots.insert contentSlot) }) fun _ => .done ""
      if n.children.isEmpty then fill none else .body fun text => fill (some text)

/-- The body, which fills a slot. -/
def slot : Plan String :=
  .body fun text => .own (Rendering.slot id (pure text)) .done

/-- The program of a handler. -/
def ofProgram : TagProgram α → Plan α
  | .done a => .done a
  | .fail e => .own (throw e : Rendering α) .done
  | .look next => .own get fun s => ofProgram (next id (s.node id) (s.lookup? id))
  | .assign a next => .own (modify fun s => s.assign id a) fun _ => ofProgram next
  | .report kind detail next => .own (Rendering.report id kind detail) fun _ => ofProgram next
  | .renderChildren next => .body fun text => ofProgram (next text)

/-- The handler of a custom tag. -/
def customRule : Plan String :=
  .own (Rendering.node id) fun n =>
    match Handler.find? env.toolkit.handlers n.tag with
    | some (.text p) => ofProgram id p
    | some (.action p) => (ofProgram id p).map Value.display
    | none => .body .done

/-- A source as a fragment below the node. -/
def renderSource (source : String) (bindings : Scope) (paths : SearchPaths) : Plan Value :=
  .fragment source (some id) bindings paths (.own (Rendering.tooDeep id) .done) fun _ text =>
    .done (.text text)

/-- The body of a macro. -/
def invocation : Plan Value :=
  .own get fun s =>
    let n := s.node id
    match s.macros.get? n.givenName with
    | some m => renderSource id m.body (m.parameters.extend (s.arguments id)) n.paths
    | none =>
      .own (Rendering.report id .error ("unknown macro '" ++ n.givenName ++ "'")) fun _ =>
        .done .null

def inclusion : Plan Value :=
  .own (Rendering.loadFor env id Loader.templates) fun r =>
    match r with
    | none => .done .null
    | some source => .own get fun s => renderSource id source (s.arguments id) (s.node id).paths

/-- A module, of which the variables are taken over. -/
def moduleUse : Plan Value :=
  .own (Rendering.loadFor env id Loader.modules) fun r =>
    match r with
    | none => .done .null
    | some source =>
      .own (Rendering.node id) fun n =>
        .fragment source none ∅ n.paths (.own (Rendering.tooDeep id) .done) fun root _ =>
          .own (modify fun s =>
            let target := s.target id
            s.setScope target ((s.node target).scope.extend (s.node root).scope)) fun _ =>
              .done .null

/-- The rules that produce text by themselves. -/
def ownText : Plan String :=
  .own (Rendering.node id) fun n =>
    match n.kind with
    | .literal => .done (n.text?.getD "")
    | .reference => .own get fun s => .done (s.referenceText env.toolkit.generators id)
    | .conditional => conditional id
    | .whileLoop => (whileTexts id env.settings.maxIterations).map String.join
    | .eachLoop => eachLoop id
    | .untilLoop => untilLoop id env.toolkit.validators
    | .await => await id
    | .comment => .done ""
    | _ => .body .done

/-- The variables of pairs, bound one after another. -/
def bindPairs (datatype : Option Datatype) (isGlobal : Bool) :
    List (String × AttrValue) → Plan Value
  | [] => .done .null
  | (key, raw) :: rest =>
    .own (Rendering.bindPair id datatype isGlobal key raw) fun _ => bindPairs datatype isGlobal rest

/-- A binding, pair by pair. -/
def binding : Plan Value :=
  .own (Rendering.node id) fun n =>
    bindPairs id ((n.attributes.text? "type").bind env.toolkit.datatypes.get?)
      (((n.attributes.get? "global").map fun v => v.toValue.isTruthy).getD false)
      (n.attributes.pairs.filter fun p => p.1 ∉ Rendering.bindingOptions)

def actionRule : ActionRule → Plan Value
  | .binding => binding env id
  | .expression => .own (Rendering.expression env id) .done
  | .definition => .own (Rendering.definition id) .done
  | .invocation => invocation id
  | .inclusion => inclusion env id
  | .moduleUse => moduleUse env id

def rule : Dispatch → Plan String
  | .render .own => ownText env id
  | .render .layout => layout id
  | .render .slot => slot id
  | .render .output => .own (Rendering.output id) .done
  | .execute r => (actionRule env id r).map Value.display
  | .custom => customRule env id

/-- The rule of a node between its events. -/
def node : Plan String :=
  .own (Rendering.node id) fun n =>
    .own (do if Rendering.hasLifecycle n.kind then Rendering.report id .started "") fun _ =>
      (rule env id n.kind.dispatch).bind fun text =>
        .own (do if Rendering.hasLifecycle n.kind then Rendering.report id .complete "") fun _ =>
          .done text

end rules

/-! ### Running the plans -/

section run
variable {env : Environment} {body : Rendering String} {nested : Option (Nat → Rendering String)}

theorem run_bind (p : Plan α) (f : α → Plan β) :
    run env body nested (p.bind f) =
      run env body nested p >>= fun a => run env body nested (f a) := by
  induction p with
  | done a => rfl
  | own x next ih =>
      rw [bind, run, run, bind_assoc]
      exact bind_congr fun b => ih b f
  | body next ih =>
      rw [bind, run, run, bind_assoc]
      exact bind_congr fun text => ih text f
  | ensuring x g next _ ih =>
      rw [bind, run, run, bind_assoc]
      exact bind_congr fun b => ih b f
  | fragment source parent inherited paths tooDeep next ihDeep ih =>
      cases nested with
      | none => exact ihDeep f
      | some render =>
          simp only [bind, run, bind_assoc]
          exact bind_congr fun root => bind_congr fun text => ih root text f

theorem run_map (f : α → β) (p : Plan α) :
    run env body nested (p.map f) = run env body nested p >>= fun a => pure (f a) :=
  run_bind p _

theorem run_conditional (id : Nat) :
    run env body nested (conditional id) = Rendering.conditional id body := by
  refine bind_congr fun s => ?_
  dsimp only
  split
  · exact bind_pure body
  · rfl

theorem run_whileTexts (id : Nat) : ∀ limit : Nat,
    run env body nested (whileTexts id limit) = Rendering.whileTexts id body limit
  | 0 => bind_pure _
  | limit + 1 => by
      rw [Rendering.whileTexts]
      refine bind_congr fun s => ?_
      dsimp only
      split
      · rw [run]
        refine bind_congr fun text => ?_
        rw [run_map, run_whileTexts id limit]
      · rfl

theorem run_eachTexts (id : Nat) : ∀ (index : Nat) (entries : List LoopEntry),
    run env body nested (eachTexts id index entries) = Rendering.eachTexts id body index entries
  | _, [] => rfl
  | index, e :: rest => by
      rw [Rendering.eachTexts]
      refine bind_congr fun _ => bind_congr fun text => ?_
      rw [run_map, run_eachTexts id (index + 1) rest]

theorem run_eachLoop (id : Nat) :
    run env body nested (eachLoop id) = Rendering.eachLoop id body := by
  refine bind_congr fun s => ?_
  rw [run, run_eachTexts]
  rfl

theorem run_attemptsFrom (id : Nat) (accepts : Validator) : ∀ attempt count : Nat,
    run env body nested (attemptsFrom id accepts attempt count) =
      Rendering.attemptsFrom id body accepts attempt count
  | _, 0 => by
      rw [Rendering.attemptsFrom]
      refine bind_congr fun _ => bind_congr fun text => ?_
      rw [run]
      split <;> rfl
  | attempt, count + 1 => by
      rw [Rendering.attemptsFrom]
      refine bind_congr fun _ => bind_congr fun text => ?_
      dsimp only
      split
      · rfl
      · exact run_attemptsFrom id accepts (attempt + 1) count

theorem run_untilLoop (id : Nat) (validators : NameMap Validator) :
    run env body nested (untilLoop id validators) = Rendering.untilLoop id body validators := by
  refine bind_congr fun n => ?_
  dsimp only
  cases (n.attributes.text? "validator").bind validators.get? with
  | some accepts => exact run_attemptsFrom id accepts 1 _
  | none => exact bind_pure body

theorem run_await (id : Nat) : run env body nested (await id) = Rendering.await id body :=
  rfl

theorem run_layout (id : Nat) : run env body nested (layout id) = Rendering.layout id body := by
  refine bind_congr fun n => ?_
  dsimp only
  cases n.attributes.text? "name" with
  | none => rfl
  | some name =>
      dsimp only
      split
      · rfl
      · rw [map_eq_pure_bind, bind_assoc]
        rfl

theorem run_slot (id : Nat) : run env body nested (slot id) = Rendering.slot id body := by
  refine bind_congr fun text => ?_
  exact bind_pure _

theorem run_ofProgram (id : Nat) : ∀ p : TagProgram α,
    run env body nested (ofProgram id p) = Rendering.runProgram id body p
  | .done _ => rfl
  | .fail _ => rfl
  | .look _ => bind_congr fun _ => run_ofProgram id _
  | .assign _ next => bind_congr fun _ => run_ofProgram id next
  | .report _ _ next => bind_congr fun _ => run_ofProgram id next
  | .renderChildren next => bind_congr fun text => run_ofProgram id (next text)

theorem run_customRule (id : Nat) :
    run env body nested (customRule env id) = Rendering.customRule env id body := by
  refine bind_congr fun n => ?_
  dsimp only
  rcases Handler.find? env.toolkit.handlers n.tag with _ | ⟨p | p⟩
  · exact bind_pure body
  · exact run_ofProgram id p
  · dsimp only
    rw [run_map, run_ofProgram]

theorem run_renderSource (id : Nat) (source : String) (bindings : Scope) (paths : SearchPaths) :
    run env body nested (renderSource id source bindings paths) =
      Rendering.renderSource env id nested source bindings paths := by
  cases nested with
  | none => exact bind_pure _
  | some render => rfl

theorem run_invocation (id : Nat) :
    run env body nested (invocation id) = Rendering.invocation env id nested := by
  refine bind_congr fun s => ?_
  dsimp only
  cases s.macros.get? (s.node id).givenName with
  | some m => exact run_renderSource id _ _ _
  | none => rfl

theorem run_inclusion (id : Nat) :
    run env body nested (inclusion env id) = Rendering.inclusion env id nested := by
  refine bind_congr fun r => ?_
  cases r with
  | none => rfl
  | some source => exact bind_congr fun s => run_renderSource id source _ _

theorem run_moduleUse (id : Nat) :
    run env body nested (moduleUse env id) = Rendering.moduleUse env id nested := by
  refine bind_congr fun r => ?_
  cases r with
  | none => rfl
  | some source =>
      cases nested with
      | none =>
          funext s
          exact congrFun (bind_pure (Rendering.tooDeep id)) s
      | some render => rfl

theorem run_ownText (id : Nat) :
    run env body nested (ownText env id) = Rendering.ownText env id body := by
  refine bind_congr fun n => ?_
  dsimp only
  cases n.kind with
  | literal | reference | comment => rfl
  | conditional => exact run_conditional id
  | whileLoop =>
      dsimp only
      rw [run_map, run_whileTexts]
      rfl
  | eachLoop => exact run_eachLoop id
  | untilLoop => exact run_untilLoop id _
  | await => exact run_await id
  | _ => exact bind_pure body

theorem run_bindPairs (id : Nat) (datatype : Option Datatype) (isGlobal : Bool) :
    ∀ pairs : List (String × AttrValue),
      run env body nested (bindPairs id datatype isGlobal pairs) =
        (forIn pairs PUnit.unit fun p _ => do
          Rendering.bindPair id datatype isGlobal p.1 p.2
          pure (ForInStep.yield PUnit.unit)) >>= fun _ => pure .null
  | [] => rfl
  | (key, raw) :: rest => by
      rw [bindPairs, run, List.forIn_cons, bind_assoc, bind_assoc]
      refine bind_congr fun _ => ?_
      rw [pure_bind, run_bindPairs id datatype isGlobal rest]

theorem run_binding (id : Nat) :
    run env body nested (binding env id) = Rendering.binding env id :=
  bind_congr fun _ => run_bindPairs id _ _ _

theorem run_actionRule (id : Nat) (r : ActionRule) :
    run env body nested (actionRule env id r) = Rendering.actionRule env id nested r := by
  cases r with
  | binding => exact run_binding id
  | expression | definition => exact bind_pure _
  | invocation => exact run_invocation id
  | inclusion => exact run_inclusion id
  | moduleUse => exact run_moduleUse id

theorem run_rule (id : Nat) (r : Dispatch) :
    run env body nested (rule env id r) = Rendering.rule env id body nested r := by
  cases r with
  | render r =>
      cases r with
      | own => exact run_ownText id
      | layout => exact run_layout id
      | slot => exact run_slot id
      | output => exact bind_pure _
  | execute r =>
      rw [rule, run_map, run_actionRule]
      rfl
  | custom => exact run_customRule id

/-- Every node is rendered by its plan. -/
theorem run_node (id : Nat) :
    run env body nested (node env id) = Rendering.nodeWith env id body nested := by
  funext s
  show (Rendering.node id >>= _) s = _
  rw [Rendering.bind_of_ok (Rendering.node_apply id s), Rendering.nodeWith,
    Rendering.bind_of_ok (Rendering.node_apply id s), Rendering.withLifecycle,
    Rendering.bind_of_ok (Rendering.node_apply id s)]
  dsimp only
  rw [run]
  by_cases hlife : Rendering.hasLifecycle (s.node id).kind = true
  · simp only [if_pos hlife]
    rw [run_bind, run_rule]
    rfl
  · simp only [if_neg hlife]
    rw [run_bind, run_rule]
    rfl

end run

end Plan

theorem Rendering.renderNode_eq_run (env : Environment) (depth id : Nat) :
    renderNode env depth id =
      (Plan.node env id).run env (held (renderNode env depth) id) (deeper env depth) := by
  rw [renderNode_eq, Plan.run_node]

end TagTemplate
