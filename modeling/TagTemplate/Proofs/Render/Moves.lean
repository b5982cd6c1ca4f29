import TagTemplate.Proofs.Render.Confinement
import TagTemplate.Proofs.Render.Events
import TagTemplate.Proofs.Render.Histories
import TagTemplate.Proofs.Render.Leaves

/-! # The moves of a node

What a node can do in one move, kind by kind, with all that it reads and writes: the assignments
are those that the node is written with, and what it says is worded as the known tags word it.  All
moves in the history of a node are such moves, or the building of a fragment.

* `Makes`: the assignments that a node makes in a state.
* `OwnMove`: what a node can do in one move.
* `Plan.own_node`: the plan of a node consists of its moves.
* `Recorded.Own.node`: so does its history, and the moves are made by the node, by those below it,
  and by what is built on the way. -/

namespace TagTemplate

/-! ### What evaluations say -/

/-- The events of an evaluation are worded as those of the known tags. -/
theorem Expression.isWorded_evaluate (functions : NameMap Function)
    (lookup : String → Option Value) (source : String) :
    ∀ e ∈ (evaluate functions lookup source).events, Event.IsWorded e.1 e.2 := by
  have hfailed (silent : Bool) (before : List (EventKind × String)) (cause : EvalError)
      (h : ∀ e ∈ before, Event.IsWorded e.1 e.2) :
      ∀ e ∈ (Outcome.failed silent before cause).events, Event.IsWorded e.1 e.2 :=
    List.forall_mem_append.mpr
      ⟨h, List.forall_mem_singleton.mpr fun _ => .inr (.evaluation cause)⟩
  have hsent (name : String) : ∀ e ∈ [(EventKind.sent, name)], Event.IsWorded e.1 e.2 :=
    List.forall_mem_singleton.mpr nofun
  unfold evaluate
  split
  · next expr _ =>
    unfold run
    dsimp only
    split
    · exact List.forall_mem_nil _
    · split
      · exact hfailed _ _ _ (List.forall_mem_nil _)
      · split
        · exact List.forall_mem_cons.mpr ⟨nofun, List.forall_mem_singleton.mpr nofun⟩
        · exact hfailed _ _ _ (hsent _)
  · next errors _ =>
    exact List.forall_mem_singleton.mpr fun _ => .inr (.evaluation (.malformed _ errors))

/-! ### The assignments of a node -/

/-- The program of a node `id` makes the assignment in one of its runs. -/
inductive TagProgram.MayAssign {α : Type} (id : Nat) (a : Assignment) : TagProgram α → Prop
  | now (next : TagProgram α) : MayAssign id a (.assign a next)
  | assign (b : Assignment) {next : TagProgram α} (h : MayAssign id a next) :
      MayAssign id a (.assign b next)
  | report (kind : EventKind) (detail : String) {next : TagProgram α} (h : MayAssign id a next) :
      MayAssign id a (.report kind detail next)
  | look (s : RenderState) {next : Nat → Node → (String → Option Value) → TagProgram α}
      (h : MayAssign id a (next id (s.node id) (s.lookup? id))) : MayAssign id a (.look next)
  | renderChildren (text : String) {next : String → TagProgram α}
      (h : MayAssign id a (next text)) : MayAssign id a (.renderChildren next)

/-- The handler of a node `id` makes the assignment in one of its runs. -/
def Handler.MayAssign (id : Nat) (a : Assignment) : Handler → Prop
  | .text p => p.MayAssign id a
  | .action p => p.MayAssign id a

/-- What a binding assigns for one of its pairs: the value, in the type asked for if it has one,
to the template if the attribute `global` is true. -/
def RenderState.pairAssignment (s : RenderState) (env : Environment) (id : Nat) (key : String)
    (raw : AttrValue) : Assignment :=
  let attributes := (s.node id).attributes
  let datatype := (attributes.text? "type").bind env.toolkit.datatypes.get?
  let value := s.attributeValue id raw
  { name := key
    value := (datatype.elim (some value) fun type => type value).getD value
    «global» := ((attributes.get? "global").map fun v => v.toValue.isTruthy).getD false }

/-- The node makes the assignment in the state: a binding for one of its pairs, an expression as
its evaluation asks for, and a custom tag by its handler. -/
inductive Makes (env : Environment) (s : RenderState) (id : Nat) : Assignment → Prop
  | binding {key : String} {raw : AttrValue} (hk : (s.node id).kind = .binding)
      (hpair : (key, raw) ∈ (s.node id).attributes.pairs)
      (hkey : key ∉ Rendering.bindingOptions) : Makes env s id (s.pairAssignment env id key raw)
  | expression {a : Assignment} (hk : (s.node id).kind = .expression)
      (h : (Expression.evaluate env.toolkit.functions (s.lookup? id)
        ((s.node id).attributes.expression.getD "")).assignment = some a) : Makes env s id a
  | custom {a : Assignment} {handler : Handler} (hk : (s.node id).kind = .custom)
      (hfind : Handler.find? env.toolkit.handlers (s.node id).tag = some handler)
      (h : handler.MayAssign id a) : Makes env s id a

theorem Makes.bindsOutside {env : Environment} {s : RenderState} {id : Nat} {a : Assignment}
    (h : Makes env s id a) : (s.node id).kind.bindsOutside = true := by
  cases h with
  | binding hk _ _ => rw [hk]; rfl
  | expression hk _ => rw [hk]; rfl
  | custom hk _ _ => rw [hk]; rfl

/-! ### Moves -/

/-- The node can say so: it is worded as the known tags word it, or the tag has a handler of its
own. -/
def Node.Says (env : Environment) (n : Node) (e : EventKind × String) : Prop :=
  (∃ handler, Handler.find? env.toolkit.handlers n.tag = some handler) ∨ Event.IsWorded e.1 e.2

/-- What a node can do in one move. -/
inductive OwnMove (env : Environment) (id : Nat) (s : RenderState) : RenderState → Prop
  | tell {events : List (EventKind × String)} (h : ∀ e ∈ events, (s.node id).Says env e) :
      OwnMove env id s (s.reports id events)
  | assign {events : List (EventKind × String)} (h : ∀ e ∈ events, (s.node id).Says env e)
      {a : Assignment} (ha : Makes env s id a) :
      OwnMove env id s ((s.reports id events).assign id a)
  | entry (scope : Scope) (hk : (s.node id).kind = .eachLoop) :
      OwnMove env id s (s.setScope id scope)
  | attempt (v : Value) (hk : (s.node id).kind = .untilLoop) :
      OwnMove env id s (s.bind id "@attempt" v)
  | define (name : String) (m : MacroDefinition) (hk : (s.node id).kind = .definition) :
      OwnMove env id s (s.define name m)
  | fill (f : Container → Container)
      (hk : (s.node id).kind = .layout ∨ (s.node id).kind = .slot) :
      OwnMove env id s (s.updateContainer id f)
  | adopt (scope : Scope) (hk : (s.node id).kind = .moduleUse) :
      OwnMove env id s (s.setScope (s.target id) scope)

namespace OwnMove

variable {env : Environment} {id : Nat} {s t : RenderState}

theorem size_eq (h : OwnMove env id s t) : t.document.size = s.document.size := by
  cases h with
  | @tell events _ =>
      obtain ⟨_, htold⟩ := s.reports_eq id events
      rw [htold]
  | @assign events _ a _ =>
      obtain ⟨_, htold⟩ := s.reports_eq id events
      rw [htold, RenderState.size_assign]
  | entry | attempt | adopt => exact Document.size_update _ _ _
  | define => rfl
  | fill f hk => exact (Act.fill f hk).size_eq

theorem stays (h : OwnMove env id s t) : s.document.Stays t.document := by
  cases h with
  | @tell events _ =>
      obtain ⟨_, htold⟩ := s.reports_eq id events
      rw [htold]
      exact .refl _
  | @assign events _ a _ =>
      obtain ⟨told, htold⟩ := s.reports_eq id events
      rw [htold]
      exact RenderState.assign_stays { s with events := told } id a
  | entry scope _ => exact .setScope _ _ _
  | attempt v _ => exact .bind _ _ _ _
  | define => exact .refl _
  | fill f _ => exact s.updateContainer_stays id f
  | adopt scope _ => exact .setScope _ _ _

end OwnMove

/-! ### Steps that are moves -/

namespace Rendering

/-- From every state where the node is what `n` was, the step does nothing but tell events that the
node can say. -/
def Tells {α : Type} (env : Environment) (id : Nat) (n : Node) (x : Rendering α) : Prop :=
  ∀ s : RenderState, n.Stays (s.node id) →
    ∃ events, (x s).2 = s.reports id events ∧ ∀ e ∈ events, n.Says env e

namespace Tells

variable {α β : Type} {env : Environment} {id : Nat} {n : Node}

theorem pure (a : α) : Tells env id n (pure a) :=
  fun _ _ => ⟨[], rfl, List.forall_mem_nil _⟩

theorem throw (e : RenderError) : Tells env id n (throw e : Rendering α) :=
  fun _ _ => ⟨[], rfl, List.forall_mem_nil _⟩

theorem get : Tells env id n get :=
  fun _ _ => ⟨[], rfl, List.forall_mem_nil _⟩

theorem node : Tells env id n (node id) :=
  fun _ _ => ⟨[], rfl, List.forall_mem_nil _⟩

theorem report {kind : EventKind} {detail : String} (h : n.Says env (kind, detail)) :
    Tells env id n (report id kind detail) :=
  fun _ _ => ⟨[(kind, detail)], rfl, List.forall_mem_singleton.mpr h⟩

theorem bind {x : Rendering α} {f : α → Rendering β} (hx : Tells env id n x)
    (hf : ∀ a, Tells env id n (f a)) : Tells env id n (x >>= f) := by
  intro s hs
  obtain ⟨events, hstate, hsaid⟩ := hx s hs
  rw [bind_apply]
  cases hr : x s with
  | mk r t =>
      rw [hr] at hstate
      cases r with
      | error e => exact ⟨events, hstate, hsaid⟩
      | ok a =>
          have hstate : t = s.reports id events := hstate
          have hnode : n.Stays (t.node id) := by rwa [hstate, RenderState.node_reports]
          obtain ⟨more, hrest, hmore⟩ := hf a t hnode
          refine ⟨events ++ more, ?_, List.forall_mem_append.mpr ⟨hsaid, hmore⟩⟩
          rw [RenderState.reports_append, ← hstate]
          exact hrest

theorem ite {c : Prop} [Decidable c] {x y : Rendering α} (hx : Tells env id n x)
    (hy : Tells env id n y) : Tells env id n (if c then x else y) := by
  split
  · exact hx
  · exact hy

end Tells

/-- From every state where the node is what `n` was, the step is a move of the node. -/
def Own {α : Type} (env : Environment) (id : Nat) (n : Node) (x : Rendering α) : Prop :=
  ∀ s : RenderState, n.Stays (s.node id) → OwnMove env id s (x s).2

section steps
variable {α : Type} {env : Environment} {id : Nat} {n : Node}

theorem Tells.own {x : Rendering α} (h : Tells env id n x) : Own env id n x := by
  intro s hs
  obtain ⟨events, hstate, hsaid⟩ := h s hs
  rw [hstate]
  refine .tell fun e he => ?_
  have hsaid := hsaid e he
  rwa [Node.Says, ← hs.tag] at hsaid

theorem own_bindPair (hk : n.kind = .binding) {key : String} {raw : AttrValue}
    (hpair : (key, raw) ∈ n.attributes.pairs) (hkey : key ∉ bindingOptions) :
    Own env id n (bindPair id ((n.attributes.text? "type").bind env.toolkit.datatypes.get?)
      (((n.attributes.get? "global").map fun v => v.toValue.isTruthy).getD false) key raw) := by
  intro s hs
  have hmakes : Makes env s id (s.pairAssignment env id key raw) := by
    refine .binding (hs.kind.trans hk) ?_ hkey
    rwa [hs.attributes]
  rw [← hs.attributes]
  unfold bindPair
  rw [bind_of_ok (get_apply s)]
  dsimp only
  split
  · have hsaid : ∀ e ∈ [(EventKind.error, "cannot coerce '" ++ key ++ "'")],
        (s.node id).Says env e :=
      List.forall_mem_singleton.mpr (.inr fun _ => .inr (.coercion key))
    exact OwnMove.assign hsaid hmakes
  · exact OwnMove.assign (List.forall_mem_nil _) hmakes

/-- An expression carries out the assignment that its evaluation asks for. -/
theorem own_expression (hk : n.kind = .expression) : Own env id n (expression env id) := by
  intro s hs
  rw [expression, bind_of_ok (get_apply s), snd_bind fun _ _ => rfl]
  have hmakes (a : Assignment) := @Makes.expression env s id a (hs.kind.trans hk)
  have hworded := Expression.isWorded_evaluate env.toolkit.functions (s.lookup? id)
    ((s.node id).attributes.expression.getD "")
  generalize Expression.evaluate env.toolkit.functions (s.lookup? id) _ = o at hmakes hworded ⊢
  rw [carryOut, bind_of_ok (forIn_report id o.events s)]
  obtain ⟨result, events, assignment⟩ := o
  have hsaid : ∀ e ∈ events, (s.node id).Says env e := fun e he => .inr (hworded e he)
  cases assignment with
  | none => cases result <;> exact .tell hsaid
  | some a => cases result <;> exact .assign hsaid (hmakes a rfl)

theorem tells_tooDeep : Tells env id n (tooDeep id) :=
  .bind (.report (.inr fun _ => .inl (.inr (.inl rfl)))) fun _ => .pure _

theorem tells_loadFor (root : String) : Tells env id n (loadFor env id root) := by
  refine .bind .node fun m => ?_
  split
  · exact .pure _
  · next e _ =>
    have hsaid : n.Says env (.error, e.display) := .inr fun _ => .inl (.inr (.inr (.inr ⟨e, rfl⟩)))
    split
    · exact .bind (.throw _) fun _ => .bind (.report hsaid) fun _ => .pure _
    · exact .bind (.report hsaid) fun _ => .pure _

theorem tells_limit : Tells env id n (whileTexts id (pure "") 0) := by
  refine .bind .get fun s => ?_
  split
  · exact .bind (.report (.inr fun _ => .inl (.inl rfl))) fun _ => .pure _
  · exact .pure _

theorem own_definition (hk : n.kind = .definition) : Own env id n (definition id) := by
  intro s hs
  rw [definition, bind_of_ok (node_apply id s)]
  cases (s.node id).attributes.name with
  | some name => exact .define name _ (hs.kind.trans hk)
  | none => exact (Tells.pure _).own s hs

end steps

end Rendering

/-! ### Plans -/

/-- All steps that the plan takes by itself are moves of the node, wherever the node is what `n`
was, and it builds fragments only as a node of its kind does. -/
inductive Plan.Own (env : Environment) (id : Nat) (n : Node) : {α : Type} → Plan α → Prop
  | done {α : Type} (a : α) : Own env id n (.done a)
  | own {α β : Type} {x : Rendering β} {next : β → Plan α} (hx : x.Own env id n)
      (hnext : ∀ s, n.Stays (s.node id) → ∀ b, (x s).1 = .ok b → Own env id n (next b)) :
      Own env id n (.own x next)
  | body {α : Type} {next : String → Plan α} (hnext : ∀ text, Own env id n (next text)) :
      Own env id n (.body next)
  | ensuring {α β : Type} {x : Plan β} {f : RenderState → RenderState} {next : β → Plan α}
      (hx : Own env id n x) (hf : Rendering.Own env id n (modify f))
      (hnext : ∀ b, Own env id n (next b)) : Own env id n (.ensuring x f next)
  | fragment {α : Type} {source : String} {parent : Option Nat} {inherited : Scope}
      {paths : SearchPaths} {tooDeep : Plan α} {next : Nat → String → Plan α}
      (hk : Builds id n.kind parent) (hdeep : Own env id n tooDeep)
      (hnext : ∀ root text, Own env id n (next root text)) :
      Own env id n (.fragment source parent inherited paths tooDeep next)

namespace Plan

variable {α β : Type} {env : Environment} {id : Nat} {n : Node}

namespace Own

/-- A step after which the plan goes on in the same way whatever it has come to. -/
theorem step {x : Rendering β} {next : β → Plan α} (hx : x.Own env id n)
    (hnext : ∀ b, Own env id n (next b)) : Own env id n (.own x next) :=
  .own hx fun _ _ b _ => hnext b

theorem tells {x : Rendering β} {next : β → Plan α} (hx : x.Tells env id n)
    (hnext : ∀ b, Own env id n (next b)) : Own env id n (.own x next) :=
  .step hx.own hnext

theorem get {next : RenderState → Plan α}
    (hnext : ∀ s, n.Stays (s.node id) → Own env id n (next s)) :
    Own env id n (.own get next) := by
  refine .own Rendering.Tells.get.own fun s hs b hb => ?_
  cases hb
  exact hnext s hs

theorem node {next : Node → Plan α} (hnext : ∀ m, n.Stays m → Own env id n (next m)) :
    Own env id n (.own (Rendering.node id) next) := by
  refine .own Rendering.Tells.node.own fun s hs b hb => ?_
  cases hb
  exact hnext _ hs

theorem report {kind : EventKind} {detail : String} (h : n.Says env (kind, detail))
    {next : Unit → Plan α} (hnext : Own env id n (next ⟨⟩)) :
    Own env id n (.own (Rendering.report id kind detail) next) :=
  .tells (.report h) fun _ => hnext

theorem bind {p : Plan α} {f : α → Plan β} (hp : Own env id n p)
    (hf : ∀ a, Own env id n (f a)) : Own env id n (p.bind f) := by
  induction hp with
  | done a => exact hf a
  | own hx _ ih => exact .own hx fun s hs b hb => ih s hs b hb hf
  | body _ ih => exact .body fun text => ih text hf
  | ensuring hx hg _ _ ih => exact .ensuring hx hg fun b => ih b hf
  | fragment hk _ _ ihDeep ih => exact .fragment hk (ihDeep hf) fun root text => ih root text hf

theorem map {p : Plan α} (f : α → β) (hp : Own env id n p) : Own env id n (p.map f) :=
  hp.bind fun a => .done (f a)

end Own

/-! ### The rules of a node -/

section rules

theorem own_conditional : Own env id n (conditional id) := by
  refine .get fun s _ => ?_
  split
  · exact .body .done
  · exact .done _

theorem own_whileTexts : ∀ limit, Own env id n (whileTexts id limit)
  | 0 => .tells Rendering.tells_limit .done
  | limit + 1 => by
      refine .get fun s _ => ?_
      split
      · exact .body fun text => (own_whileTexts limit).map _
      · exact .done []

theorem own_eachTexts (hk : n.kind = .eachLoop) :
    ∀ (index : Nat) (entries : List LoopEntry), Own env id n (eachTexts id index entries)
  | _, [] => .done []
  | index, _ :: rest => .step (fun _ hs => .entry _ (hs.kind.trans hk)) fun _ =>
      .body fun _ => (own_eachTexts hk (index + 1) rest).map _

theorem own_eachLoop (hk : n.kind = .eachLoop) : Own env id n (eachLoop id) := by
  refine .get fun s _ => .ensuring (own_eachTexts hk 0 _) (fun t ht => ?_) fun _ => .done _
  exact .entry _ (ht.kind.trans hk)

theorem own_attemptsFrom (hk : n.kind = .untilLoop) (accepts : Validator) :
    ∀ attempt count, Own env id n (attemptsFrom id accepts attempt count)
  | attempt, 0 => by
      refine .step (fun _ hs => .attempt _ (hs.kind.trans hk)) fun _ => .body fun text => ?_
      exact .tells (.ite (.report (.inr fun _ => .inr .attempts)) (.pure _)) fun _ => .done text
  | attempt, count + 1 => by
      refine .step (fun _ hs => .attempt _ (hs.kind.trans hk)) fun _ => .body fun text => ?_
      split
      · exact .done text
      · exact own_attemptsFrom hk accepts (attempt + 1) count

theorem own_untilLoop (hk : n.kind = .untilLoop) (validators : NameMap Validator) :
    Own env id n (untilLoop id validators) := by
  refine .node fun m _ => ?_
  split
  · exact own_attemptsFrom hk _ 1 _
  · exact .body .done

theorem own_await : Own env id n (await id) := by
  refine .node fun m _ => ?_
  dsimp only
  refine .report ?_ (.report ?_ (.body fun text => .report ?_ (.done text)))
  all_goals exact .inr nofun

theorem own_layout (hk : n.kind = .layout) : Own env id n (layout id) := by
  refine .node fun m _ => ?_
  split
  · exact .done _
  · next name _ =>
    have hfill (content : Option String) : Rendering.Own env id n (modify fun s =>
        s.updateContainer id fun c =>
          { layout := some name, slots := content.elim c.slots (c.slots.insert contentSlot) }) :=
      fun s hs => .fill _ (.inl (hs.kind.trans hk))
    dsimp only
    split
    · exact .step (hfill none) fun _ => .done _
    · exact .body fun text => .step (hfill (some text)) fun _ => .done _

theorem own_slot (hk : n.kind = .slot) : Own env id n (slot id) := by
  refine .body fun text => .step (fun s hs => ?_) .done
  rw [Rendering.slot, Rendering.bind_of_ok (Rendering.pure_apply text s),
    Rendering.bind_of_ok (Rendering.node_apply id s)]
  cases (s.node id).attributes.text? "name" with
  | some name => exact .fill _ (.inr (hs.kind.trans hk))
  | none => exact (Rendering.Tells.pure text).own s hs

/-- A handler makes the assignments of its program, and says what it likes. -/
theorem own_ofProgram (hsaid : ∀ e, n.Says env e) {program : TagProgram α}
    (hmakes : ∀ s a, n.Stays (s.node id) → program.MayAssign id a → Makes env s id a) :
    Own env id n (ofProgram id program) := by
  induction program with
  | done a => exact .done a
  | fail e => exact .tells (.throw e) .done
  | look next ih =>
      exact .get fun t _ => ih _ _ _ fun s a hs h => hmakes s a hs (.look t h)
  | assign a next ih =>
      refine .step (fun s hs => ?_) fun _ => ih fun s b hs h => hmakes s b hs (.assign a h)
      exact OwnMove.assign (List.forall_mem_nil _) (hmakes s a hs (.now next))
  | report kind detail next ih =>
      exact .report (hsaid _) (ih fun s a hs h => hmakes s a hs (.report kind detail h))
  | renderChildren next ih =>
      exact .body fun text => ih text fun s a hs h => hmakes s a hs (.renderChildren text h)

theorem own_customRule (hk : n.kind = .custom) : Own env id n (customRule env id) := by
  refine .node fun m hm => ?_
  have hmakes {handler : Handler} (hfind : Handler.find? env.toolkit.handlers m.tag = some handler)
      (s : RenderState) (a : Assignment) (hs : n.Stays (s.node id)) (h : handler.MayAssign id a) :
      Makes env s id a := by
    refine .custom (hs.kind.trans hk) ?_ h
    rwa [hs.tag, ← hm.tag]
  have hsaid {handler : Handler} (hfind : Handler.find? env.toolkit.handlers m.tag = some handler)
      (e : EventKind × String) : n.Says env e :=
    .inl ⟨handler, by rwa [← hm.tag]⟩
  split
  · next p hfind => exact own_ofProgram (hsaid hfind) (hmakes hfind)
  · next p hfind => exact (own_ofProgram (hsaid hfind) (hmakes hfind)).map _
  · exact .body .done

theorem own_renderSource (hk : Builds id n.kind (some id)) (source : String)
    (bindings : Scope) (paths : SearchPaths) :
    Own env id n (renderSource id source bindings paths) :=
  .fragment hk (.tells Rendering.tells_tooDeep .done) fun _ _ => .done _

theorem own_invocation (hk : n.kind = .invocation) : Own env id n (invocation id) := by
  refine .get fun s _ => ?_
  dsimp only
  split
  · exact own_renderSource (by rw [hk]; exact .invocation) _ _ _
  · exact .report (.inr fun _ => .inr (.unknownMacro _)) (.done _)

theorem own_inclusion (hk : n.kind = .inclusion) : Own env id n (inclusion env id) := by
  refine .tells (Rendering.tells_loadFor _) fun r => ?_
  split
  · exact .done _
  · exact .get fun s _ => own_renderSource (by rw [hk]; exact .inclusion) _ _ _

theorem own_moduleUse (hk : n.kind = .moduleUse) : Own env id n (moduleUse env id) := by
  refine .tells (Rendering.tells_loadFor _) fun r => ?_
  split
  · exact .done _
  · refine .node fun m _ => .fragment (by rw [hk]; exact .moduleUse)
      (.tells Rendering.tells_tooDeep .done) fun root _ => ?_
    exact .step (fun _ hs => .adopt _ (hs.kind.trans hk)) fun _ => .done _

theorem own_ownText : Own env id n (ownText env id) := by
  refine .node fun m hm => ?_
  have hk := hm.kind
  split
  · exact .done _
  · exact .get fun s _ => .done _
  · exact own_conditional
  · exact (own_whileTexts _).map _
  · next h => exact own_eachLoop (hk ▸ h)
  · next h => exact own_untilLoop (hk ▸ h) _
  · exact own_await
  · exact .done _
  · exact .body .done

theorem own_bindPairs (hk : n.kind = .binding) :
    ∀ pairs : List (String × AttrValue),
      (∀ p ∈ pairs, p ∈ n.attributes.pairs ∧ p.1 ∉ Rendering.bindingOptions) →
      Own env id n (bindPairs id
        ((n.attributes.text? "type").bind env.toolkit.datatypes.get?)
        (((n.attributes.get? "global").map fun v => v.toValue.isTruthy).getD false) pairs)
  | [], _ => .done _
  | (key, raw) :: rest, h => by
      have hfirst := h (key, raw) List.mem_cons_self
      refine .step (Rendering.own_bindPair hk hfirst.1 hfirst.2) fun _ => ?_
      exact own_bindPairs hk rest fun p hp => h p (List.mem_cons_of_mem _ hp)

theorem own_binding (hk : n.kind = .binding) : Own env id n (binding env id) := by
  refine .node fun m hm => ?_
  rw [hm.attributes]
  refine own_bindPairs hk _ fun p hp => ?_
  simpa using hp

theorem own_actionRule (r : ActionRule) (hr : n.kind.dispatch = .execute r) :
    Own env id n (actionRule env id r) := by
  have hk := NodeKind.eq_of_execute hr
  cases r with
  | binding => exact own_binding hk
  | expression => exact .step (Rendering.own_expression hk) .done
  | definition => exact .step (Rendering.own_definition hk) .done
  | invocation => exact own_invocation hk
  | inclusion => exact own_inclusion hk
  | moduleUse => exact own_moduleUse hk

theorem own_rule : Own env id n (rule env id n.kind.dispatch) := by
  cases h : n.kind.dispatch with
  | render r =>
      cases r with
      | own => exact own_ownText
      | layout => exact own_layout (NodeKind.eq_of_layout h)
      | slot => exact own_slot (NodeKind.eq_of_slot h)
      | output => exact .tells (.bind .get fun _ => .pure _) .done
  | execute r => exact (own_actionRule r h).map _
  | custom => exact own_customRule (NodeKind.eq_of_custom h)

/-- All steps that a node takes by itself are its moves. -/
theorem own_node : Own env id n (Plan.node env id) := by
  refine .node fun m hm => .tells (.ite (.report (.inr nofun)) (.pure _)) fun _ => ?_
  rw [hm.kind]
  exact own_rule.bind fun text =>
    .tells (.ite (.report (.inr nofun)) (.pure _)) fun _ => .done text

end rules

end Plan

/-! ### Histories -/

/-- The state comes after the document: it has the nodes of the document and perhaps more. -/
structure Document.Before (d : Document) (s : RenderState) : Prop where
  stays : d.Stays s.document
  sound : s.document.Sound

/-- The move is one of its node, or the building of a fragment, and it is made by the node `id` of
an earlier document, by one below it, or by one that has been built since. -/
structure Move.OwnedBy (env : Environment) (d : Document) (id : Nat) (p : Move) : Prop where
  moves : OwnMove env p.id p.before p.after ∨ ∃ ns, p.after = p.before.grow ns
  mem : p.id ∈ d.descendants id ∨ d.size ≤ p.id

namespace Move.OwnedBy

variable {env : Environment} {d : Document} {id : Nat} {p : Move}

theorem of_child {c : Nat} (hc : c ∈ (d.node id).children) (hlt : c < id)
    (h : p.OwnedBy env d c) : p.OwnedBy env d id :=
  ⟨h.moves, h.mem.imp_left (Document.descendants_of_child hc hlt)⟩

/-- The moves of a fragment are made by nodes that have been built since. -/
theorem of_built {s t : RenderState} {root : Nat} {parent : Option Nat} (hd : d.Before s)
    (hb : Built s parent root t) (h : p.OwnedBy env t.document root) : p.OwnedBy env d id := by
  refine ⟨h.moves, .inr (Nat.le_trans hd.stays.size_le ?_)⟩
  rcases h.mem with hmem | hle
  · exact hb.le_of_mem_descendants hmem
  · exact Nat.le_trans hb.stays.size_le hle

end Move.OwnedBy

/-- From the state, which comes after the document, the step makes moves of the node, and leads to
a state that comes after the document too. -/
structure Recorded.Own {α : Type} (env : Environment) (d : Document) (id : Nat)
    (x : Recorded α) (s : RenderState) : Prop where
  before : d.Before (x.run s).2
  owned : ∀ p ∈ x.moves s, p.OwnedBy env d id

namespace Recorded.Own

variable {α β : Type} {env : Environment} {d : Document} {id : Nat} {s : RenderState}

theorem pure (a : α) (hs : d.Before s) : Own env d id (.pure a) s :=
  ⟨hs, List.forall_mem_nil _⟩

theorem bind {x : Recorded α} {f : α → Recorded β} (hx : Own env d id x s)
    (hf : ∀ a t, x.run s = (.ok a, t) → d.Before t → Own env d id (f a) t) :
    Own env d id (x.bind f) s := by
  have hbefore := hx.before
  cases hr : x.run s with
  | mk r t =>
      rw [hr] at hbefore
      have hrun : (x.bind f).run s = (x.run >>= fun a => (f a).run) s := rfl
      have hmoves : (x.bind f).moves s = x.moves s ++ onward f (x.run s) := rfl
      rw [Rendering.bind_apply, hr] at hrun
      rw [hr] at hmoves
      cases r with
      | error e =>
          refine ⟨by rw [hrun]; exact hbefore, fun p hp => ?_⟩
          rw [hmoves, onward, List.append_nil] at hp
          exact hx.owned p hp
      | ok a =>
          have hrest := hf a t hr hbefore
          refine ⟨by rw [hrun]; exact hrest.before, fun p hp => ?_⟩
          rw [hmoves, List.mem_append] at hp
          exact hp.elim (hx.owned p) (hrest.owned p)

theorem single {x : Rendering α} (hid : id < d.size) (hs : d.Before s)
    (hx : x.Own env id (d.node id)) : Own env d id (.own id x) s := by
  have hmove := hx s (hs.stays.node hid)
  refine ⟨⟨hs.stays.trans hmove.stays, hmove.stays.sound hmove.size_eq hs.sound⟩, fun p hp => ?_⟩
  rw [List.mem_singleton.mp hp]
  exact ⟨.inl hmove, .inl (Document.mem_descendants_self d id)⟩

theorem ensuring {x : Recorded α} {f : RenderState → RenderState} (hid : id < d.size)
    (hx : Own env d id x s) (hf : Rendering.Own env id (d.node id) (modify f)) :
    Own env d id (x.ensuring id f) s := by
  have hlast := single hid hx.before hf
  refine ⟨hlast.before, fun p hp => ?_⟩
  exact (List.mem_append.mp hp).elim (hx.owned p) (hlast.owned p)

theorem of_child {c : Nat} {x : Recorded α} (hc : c ∈ (d.node id).children) (hlt : c < id)
    (h : Own env d c x s) : Own env d id x s :=
  ⟨h.before, fun p hp => (h.owned p hp).of_child hc hlt⟩

theorem texts {render : Nat → Recorded String} : ∀ {ids : List Nat} {s : RenderState},
    (∀ c ∈ ids, ∀ t, d.Before t → Own env d id (render c) t) → d.Before s →
      Own env d id (texts render ids) s
  | [], _, _, hs => .pure [] hs
  | c :: ids, s, h, hs => by
      refine .bind (h c List.mem_cons_self s hs) fun text t _ ht => ?_
      have hrest := texts (fun c' hc' => h c' (List.mem_cons_of_mem c hc')) ht
      exact .bind hrest fun rest u _ hu => .pure _ hu

theorem held {render : Nat → Recorded String} (hid : id < d.size) (hs : d.Before s)
    (h : ∀ c ∈ (d.node id).children, ∀ t, d.Before t → Own env d id (render c) t) :
    Own env d id (held render id) s := by
  refine .bind (.single hid hs Rendering.Tells.node.own) fun n t hn ht => ?_
  cases hn
  have hchildren : (s.node id).children = (d.node id).children := (hs.stays.node hid).children
  rw [hchildren]
  exact .bind (.texts h ht) fun texts u _ hu => .pure _ hu

/-- A fragment is built by a move of the node, and then the moves are those of its root. -/
theorem fragment (hlocal : ∀ p ∈ env.toolkit.preparers, p.IsLocal) (hid : id < d.size)
    (hs : d.Before s) {parent : Option Nat} (hk : Builds id (d.node id).kind parent)
    (source : String) (inherited : Scope) (paths : SearchPaths)
    {render : Nat → Recorded String} {f : Nat → String → Recorded α}
    (hrender : ∀ root t, root < t.document.size → t.document.Sound →
      Own env t.document root (render root) t)
    (hf : ∀ root text t, d.Before t → Own env d id (f root text) t) :
    Own env d id ((Recorded.own id (Rendering.build env source parent inherited paths)).bind
      fun root => (render root).bind fun text => f root text) s := by
  have hparent := hk.parent_lt (Nat.lt_of_lt_of_le hid hs.stays.size_le)
  have hbuild : Own env d id
      (.own id (Rendering.build env source parent inherited paths)) s := by
    cases hb : Rendering.build env source parent inherited paths s with
    | mk r t =>
        have hsound := build_sound hlocal hs.sound hparent hb
        obtain ⟨ns, rfl⟩ := Rendering.build_grow hb
        have hafter : (Rendering.build env source parent inherited paths s).2 = s.grow ns := by
          rw [hb]
        refine ⟨?_, fun p hp => ?_⟩
        · show d.Before (Rendering.build env source parent inherited paths s).2
          rw [hafter]
          exact ⟨hs.stays.trans (.append _ ns), hsound⟩
        · rw [List.mem_singleton.mp hp, hafter]
          exact ⟨.inr ⟨ns, rfl⟩, .inl (Document.mem_descendants_self d id)⟩
  refine .bind hbuild fun root t hb ht => ?_
  have hbuilt := built_of_build hlocal hs.sound hparent hb
  have hroot := hrender root t hbuilt.root_lt hbuilt.sound
  have hinner : Own env d id (render root) t :=
    ⟨⟨ht.stays.trans hroot.before.stays, hroot.before.sound⟩,
      fun p hp => (hroot.owned p hp).of_built hs hbuilt⟩
  exact .bind hinner fun text u _ hu => hf root text u hu

/-- The moves of a plan, where what the node holds makes moves of the node, and so does a node one
level deeper. -/
theorem plan (hlocal : ∀ p ∈ env.toolkit.preparers, p.IsLocal) (hid : id < d.size)
    {body : Recorded String} {nested : Option (Nat → Recorded String)}
    (hbody : ∀ t, d.Before t → Own env d id body t)
    (hnested : ∀ render, nested = some render → ∀ root t, root < t.document.size →
      t.document.Sound → Own env t.document root (render root) t)
    {p : Plan α} (hp : p.Own env id (d.node id)) (hs : d.Before s) :
    Own env d id (p.recorded env id body nested) s := by
  induction p generalizing s with
  | done a => exact .pure a hs
  | own x next ih =>
      cases hp with
      | own hx hnext =>
          refine .bind (.single hid hs hx) fun b t hb ht => ?_
          exact ih b (hnext s (hs.stays.node hid) b (congrArg Prod.fst hb)) ht
  | body next ih =>
      cases hp with
      | body hnext => exact .bind (hbody s hs) fun text t _ ht => ih text (hnext text) ht
  | ensuring x f next ihx ih =>
      cases hp with
      | ensuring hx hf hnext =>
          exact .bind (.ensuring hid (ihx hx hs) hf) fun b t _ ht => ih b (hnext b) ht
  | fragment source parent inherited paths tooDeep next ihDeep ih =>
      cases hp with
      | fragment hk hdeep hnext =>
          cases nested with
          | none => exact ihDeep hdeep hs
          | some render =>
              exact .fragment hlocal hid hs hk source inherited paths (hnested render rfl)
                fun root text t ht => ih root text (hnext root text) ht

/-- The moves of a node are made by the node, by those below it, and by what is built on the way. -/
theorem node (hlocal : ∀ p ∈ env.toolkit.preparers, p.IsLocal) (depth id : Nat) :
    ∀ (d : Document) (s : RenderState), id < d.size → d.Before s →
      Own env d id (Rendering.recorded env depth id) s := by
  refine Rendering.depth_induction env.settings.maxDepth (P := fun depth id =>
    ∀ (d : Document) (s : RenderState), id < d.size → d.Before s →
      Own env d id (Rendering.recorded env depth id) s) ?_ depth id
  intro depth id ihchild ihdeeper d s hid hs
  rw [Rendering.recorded_eq]
  refine .plan hlocal hid (fun t ht => .held hid ht fun c hc u hu => ?_)
    (fun render hr root t hroot hsound => ?_) Plan.own_node hs
  · split
    · next hlt => exact (ihchild c hlt d u (Nat.lt_trans hlt hid) hu).of_child hc hlt
    · exact .pure "" hu
  · split at hr
    · next hd =>
      cases hr
      exact ihdeeper hd root t.document t hroot ⟨.refl _, hsound⟩
    · cases hr

end Recorded.Own

end TagTemplate
