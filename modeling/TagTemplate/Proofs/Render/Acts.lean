import TagTemplate.Proofs.Render.Steps

/-! # The acts of a node

All that rendering a node can do to the state is a sequence of acts: of the node itself, of the
nodes it holds, and of the roots of the fragments that it builds.  `Act` lists what a node of each
kind can do in one act, and `Acts` the sequences.

* `Acts.stays`: the acts of a node leave all nodes what they are.
* `renderNode_deeds`: rendering a node is a sequence of its acts, whatever its outcome, and comes
  across no text with errors unless it fails because of one. -/

namespace TagTemplate

/-! ### Acts and their sequences -/

/-- The node orders the assignment: a binding takes the scope from its attribute `global`, an
expression from its text, a custom tag from its handler. -/
inductive Orders (s : RenderState) (id : Nat) (a : Assignment) : Prop
  | binding (hk : (s.node id).kind = .binding)
      (h : a.global = (((s.node id).attributes.get? "global").map
        fun v => v.toValue.isTruthy).getD false)
  | expression (expr : Expression) (hk : (s.node id).kind = .expression)
      (hp : Expression.parse ((s.node id).attributes.expression.getD "") = .ok expr)
      (h : a.global = expr.global)
  | custom (hk : (s.node id).kind = .custom)

/-- What a node does by itself in one act. -/
inductive Act (id : Nat) (s : RenderState) : RenderState → Prop
  | report (kind : EventKind) (detail : String) : Act id s (s.report id kind detail)
  | assign (a : Assignment) (h : Orders s id a) : Act id s (s.assign id a)
  | entry (scope : Scope) (hk : (s.node id).kind = .eachLoop) : Act id s (s.setScope id scope)
  | attempt (v : Value) (hk : (s.node id).kind = .untilLoop) :
      Act id s (s.bind id "@attempt" v)
  | define (name : String) (m : MacroDefinition) (hk : (s.node id).kind = .definition) :
      Act id s { s with macros := s.macros.insert name m }
  | fill (f : Container → Container)
      (hk : (s.node id).kind = .layout ∨ (s.node id).kind = .slot) :
      Act id s (s.updateContainer id f)
  | adopt (scope : Scope) (hk : (s.node id).kind = .moduleUse) :
      Act id s (s.setScope (s.target id) scope)

/-- The parent of the fragments that a node builds: the node itself, or none for a module. -/
inductive Builds (id : Nat) : NodeKind → Option Nat → Prop
  | invocation : Builds id .invocation (some id)
  | inclusion : Builds id .inclusion (some id)
  | moduleUse : Builds id .moduleUse none

/-- Sequences of acts of a node, of the nodes it holds, and of the fragments it builds. -/
inductive Acts (env : Environment) : Nat → RenderState → RenderState → Prop
  | refl (id : Nat) (s : RenderState) : Acts env id s s
  | trans {id : Nat} {s t u : RenderState} : Acts env id s t → Acts env id t u → Acts env id s u
  | own {id : Nat} {s t : RenderState} : Act id s t → Acts env id s t
  | child {id c : Nat} {s t : RenderState} (hc : c ∈ (s.node id).children) (hlt : c < id) :
      Acts env c s t → Acts env id s t
  | failed {id : Nat} {s t : RenderState} {parent : Option Nat} {source : String}
      {inherited : Scope} {paths : SearchPaths} {e : RenderError}
      (hk : Builds id (s.node id).kind parent)
      (hb : Rendering.build env source parent inherited paths s = (.error e, t)) : Acts env id s t
  | fragment {id root : Nat} {s t u : RenderState} {parent : Option Nat} {source : String}
      {inherited : Scope} {paths : SearchPaths}
      (hk : Builds id (s.node id).kind parent)
      (hb : Rendering.build env source parent inherited paths s = (.ok root, t)) :
      Acts env root t u → Acts env id s u

/-- Such sequences of acts that come across a text with errors only if `lost` holds. -/
inductive Deeds (env : Environment) (lost : Prop) : Nat → RenderState → RenderState → Prop
  | refl (id : Nat) (s : RenderState) : Deeds env lost id s s
  | trans {id : Nat} {s t u : RenderState} :
      Deeds env lost id s t → Deeds env lost id t u → Deeds env lost id s u
  | own {id : Nat} {s t : RenderState} : Act id s t → Deeds env lost id s t
  | child {id c : Nat} {s t : RenderState} (hc : c ∈ (s.node id).children) (hlt : c < id) :
      Deeds env lost c s t → Deeds env lost id s t
  | failed {id : Nat} {s t : RenderState} {parent : Option Nat} {source : String}
      {inherited : Scope} {paths : SearchPaths} {e : RenderError} (hlost : lost)
      (hk : Builds id (s.node id).kind parent)
      (hb : Rendering.build env source parent inherited paths s = (.error e, t)) :
      Deeds env lost id s t
  | fragment {id root : Nat} {s t u : RenderState} {parent : Option Nat} {source : String}
      {inherited : Scope} {paths : SearchPaths}
      (hk : Builds id (s.node id).kind parent)
      (hb : Rendering.build env source parent inherited paths s = (.ok root, t)) :
      Deeds env lost root t u → Deeds env lost id s u

namespace Deeds

variable {env : Environment} {lost lost' : Prop} {id : Nat} {s t : RenderState}

theorem acts (h : Deeds env lost id s t) : Acts env id s t := by
  induction h with
  | refl id s => exact .refl id s
  | trans _ _ ih₁ ih₂ => exact ih₁.trans ih₂
  | own h => exact .own h
  | child hc hlt _ ih => exact .child hc hlt ih
  | failed _ hk hb => exact .failed hk hb
  | fragment hk hb _ ih => exact .fragment hk hb ih

theorem mono (hlost : lost → lost') (h : Deeds env lost id s t) : Deeds env lost' id s t := by
  induction h with
  | refl id s => exact .refl id s
  | trans _ _ ih₁ ih₂ => exact ih₁.trans ih₂
  | own h => exact .own h
  | child hc hlt _ ih => exact .child hc hlt ih
  | failed h hk hb => exact .failed (hlost h) hk hb
  | fragment hk hb _ ih => exact .fragment hk hb ih

end Deeds

/-- What an evaluation assigns is meant for the template if its expression says so. -/
theorem Expression.global_of_evaluate {functions : NameMap Function}
    {lookup : String → Option Value} {source : String} {a : Assignment}
    (h : (evaluate functions lookup source).assignment = some a) :
    ∃ expr, parse source = .ok expr ∧ a.global = expr.global := by
  unfold evaluate at h
  split at h
  · next expr hp =>
    refine ⟨expr, hp, ?_⟩
    have hs (events : List (EventKind × String)) (v : Value)
        (h : (Outcome.succeeded expr events v).assignment = some a) : a.global = expr.global := by
      obtain ⟨name, _, rfl⟩ := Option.map_eq_some_iff.mp h
      rfl
    unfold run at h
    dsimp only at h
    split at h
    · exact hs _ _ h
    · split at h
      · cases h
      · split at h
        · exact hs _ _ h
        · cases h
  · cases h

/-! ### What acts leave alone -/

namespace RenderState

variable {s : RenderState} {id : Nat}

@[simp] theorem report_document (s : RenderState) (id : Nat) (kind : EventKind)
    (detail : String) : (s.report id kind detail).document = s.document := by
  unfold report
  dsimp only
  split <;> rfl

@[simp] theorem report_globals (s : RenderState) (id : Nat) (kind : EventKind)
    (detail : String) : (s.report id kind detail).globals = s.globals := by
  unfold report
  dsimp only
  split <;> rfl

@[simp] theorem report_macros (s : RenderState) (id : Nat) (kind : EventKind) (detail : String) :
    (s.report id kind detail).macros = s.macros := by
  unfold report
  dsimp only
  split <;> rfl

theorem assign_of_global {a : Assignment} (h : a.global = true) (s : RenderState) (id : Nat) :
    s.assign id a = { s with globals := s.globals.insert a.name a.value } := by
  rw [assign, if_pos h]

theorem assign_of_local {a : Assignment} (h : a.global = false) (s : RenderState) (id : Nat) :
    s.assign id a = { s with document := s.document.bind (s.target id) a.name a.value } := by
  rw [assign, if_neg (by simp [h])]

theorem assign_stays (s : RenderState) (id : Nat) (a : Assignment) :
    s.document.Stays (s.assign id a).document := by
  cases h : a.global with
  | true =>
      rw [assign_of_global h]
      exact .refl _
  | false =>
      rw [assign_of_local h]
      exact .bind _ _ _ _

theorem size_assign (s : RenderState) (id : Nat) (a : Assignment) :
    (s.assign id a).document.size = s.document.size := by
  cases h : a.global with
  | true => rw [assign_of_global h]
  | false =>
      rw [assign_of_local h]
      exact Document.size_update _ _ _

@[simp] theorem assign_events (s : RenderState) (id : Nat) (a : Assignment) :
    (s.assign id a).events = s.events := by
  rw [assign]
  split <;> rfl

theorem updateContainer_cases (s : RenderState) (id : Nat) (f : Container → Container) :
    s.updateContainer id f = s ∨
      ∃ root c, s.document.nearestContainer? id = some root ∧
        (s.node root).container = some c ∧
        s.updateContainer id f =
          { s with document := s.document.setContainer root (f c) } := by
  unfold updateContainer container?
  cases hn : s.document.nearestContainer? id with
  | none => exact .inl rfl
  | some root =>
      cases hc : (s.node root).container with
      | none => exact .inl (by simp [hc])
      | some c => exact .inr ⟨root, c, rfl, hc, by simp [hc]⟩

theorem updateContainer_stays (s : RenderState) (id : Nat) (f : Container → Container) :
    s.document.Stays (s.updateContainer id f).document := by
  rcases s.updateContainer_cases id f with h | ⟨root, c, _, hc, h⟩ <;> rw [h]
  · exact .refl _
  · exact .setContainer (by rw [← RenderState.node, hc]; rfl) _

@[simp] theorem updateContainer_events (s : RenderState) (id : Nat) (f : Container → Container) :
    (s.updateContainer id f).events = s.events := by
  rw [updateContainer]
  split <;> rfl

end RenderState

theorem Act.size_eq {id : Nat} {s t : RenderState} (h : Act id s t) :
    t.document.size = s.document.size := by
  cases h with
  | report kind detail => rw [RenderState.report_document]
  | assign a _ => exact s.size_assign id a
  | entry scope _ => exact Document.size_update _ _ _
  | attempt v _ => exact Document.size_update _ _ _
  | define name m _ => rfl
  | fill f _ =>
      rcases s.updateContainer_cases id f with h | ⟨root, c, _, _, h⟩ <;> rw [h]
      exact Document.size_update _ _ _
  | adopt scope _ => exact Document.size_update _ _ _

theorem Act.stays {id : Nat} {s t : RenderState} (h : Act id s t) :
    s.document.Stays t.document := by
  cases h with
  | report kind detail =>
      rw [RenderState.report_document]
      exact .refl _
  | assign a _ => exact s.assign_stays id a
  | entry scope _ => exact .setScope _ _ _
  | attempt v _ => exact .bind _ _ _ _
  | define name m _ => exact .refl _
  | fill f _ => exact s.updateContainer_stays id f
  | adopt scope _ => exact .setScope _ _ _

namespace Rendering

theorem build_ok {env : Environment} {source : String} {parent : Option Nat} {inherited : Scope}
    {paths : SearchPaths} {s t : RenderState} {root : Nat}
    (h : build env source parent inherited paths s = (.ok root, t)) :
    let parts := (env.scanner.read source).parts
    (env.scanner.read source).errors = [] ∧
    root = s.document.size + Part.countAll parts ∧
    t = s.grow (Part.fragment (Node.prepared env.toolkit.preparers
      ⟨parent, inherited, paths, env.settings.bubble⟩) s.document.size parent parts
      ⟨0, source.utf8ByteSize⟩) := by
  rw [build_eq] at h
  split at h
  · next he =>
    obtain ⟨hr, rfl⟩ := Prod.mk.injEq _ _ _ _ ▸ h
    cases hr
    exact ⟨he, rfl, rfl⟩
  · cases h

theorem build_error {env : Environment} {source : String} {parent : Option Nat}
    {inherited : Scope} {paths : SearchPaths} {s t : RenderState} {e : RenderError}
    (h : build env source parent inherited paths s = (.error e, t)) :
    (env.scanner.read source).errors ≠ [] ∧ e = .parse (env.scanner.read source).errors ∧
    t = s.grow (Part.runAll Document.untouched s.document.size none
      (env.scanner.read source).parts) := by
  rw [build_eq] at h
  split at h
  · cases h
  · next he =>
    obtain ⟨hr, rfl⟩ := Prod.mk.injEq _ _ _ _ ▸ h
    cases hr
    exact ⟨he, rfl, rfl⟩

theorem build_grow {env : Environment} {source : String} {parent : Option Nat}
    {inherited : Scope} {paths : SearchPaths} {s t : RenderState} {r : Except RenderError Nat}
    (h : build env source parent inherited paths s = (r, t)) : ∃ ns, t = s.grow ns := by
  cases r with
  | ok root => exact ⟨_, (build_ok h).2.2⟩
  | error e => exact ⟨_, (build_error h).2.2⟩

theorem build_stays {env : Environment} {source : String} {parent : Option Nat}
    {inherited : Scope} {paths : SearchPaths} {s t : RenderState} {r : Except RenderError Nat}
    (h : build env source parent inherited paths s = (r, t)) :
    s.document.Stays t.document := by
  obtain ⟨ns, rfl⟩ := build_grow h
  exact .append _ _

end Rendering

theorem Acts.stays {env : Environment} {id : Nat} {s t : RenderState} (h : Acts env id s t) :
    s.document.Stays t.document := by
  induction h with
  | refl id s => exact .refl _
  | trans _ _ ih₁ ih₂ => exact ih₁.trans ih₂
  | own h => exact h.stays
  | child _ _ _ ih => exact ih
  | failed _ hb => exact Rendering.build_stays hb
  | fragment _ hb _ ih => exact (Rendering.build_stays hb).trans ih

/-! ### Steps that are sequences of acts -/

namespace Rendering

/-- The step has failed because of a text with errors. -/
def Unread {α : Type} (r : Except RenderError α) : Prop :=
  ∃ errors, r = .error (.parse errors)

theorem not_unread_ok {α : Type} (a : α) : ¬ Unread (.ok a) :=
  nofun

theorem Unread.of_error {α β : Type} {e : RenderError}
    (h : Unread (.error e : Except RenderError α)) : Unread (.error e : Except RenderError β) := by
  obtain ⟨errors, h⟩ := h
  cases h
  exact ⟨errors, rfl⟩

/-- From every state where the node is what `n` was, the step is a sequence of acts of the node,
which comes across a text with errors only if the step fails because of it. -/
def Follows {α : Type} (env : Environment) (id : Nat) (n : Node) (x : Rendering α) : Prop :=
  ∀ s : RenderState, id < s.document.size → n.Stays (s.node id) →
    Deeds env (Unread (x s).1) id s (x s).2

namespace Follows

variable {α β : Type} {env : Environment} {id : Nat} {n : Node}

theorem pure (a : α) : Follows env id n (pure a) :=
  fun s _ _ => .refl id s

theorem throw (e : RenderError) : Follows env id n (throw e : Rendering α) :=
  fun s _ _ => .refl id s

/-- The second step may rely on the node being what it was before the first. -/
theorem bind {x : Rendering α} {f : α → Rendering β} (hx : Follows env id n x)
    (hf : ∀ a, Follows env id n (f a)) : Follows env id n (x >>= f) := by
  intro s hid hn
  have h := hx s hid hn
  rw [bind_apply]
  cases hr : x s with
  | mk r t =>
      rw [hr] at h
      cases r with
      | error e => exact h.mono .of_error
      | ok a =>
          have hstays := h.acts.stays
          have hrest := hf a t (Nat.lt_of_lt_of_le hid hstays.size_le)
            (hn.trans (hstays.node hid))
          exact (h.mono fun hlost => absurd hlost (not_unread_ok a)).trans hrest

theorem map {x : Rendering α} (f : α → β) (hx : Follows env id n x) :
    Follows env id n (f <$> x) := by
  rw [← bind_pure_comp]
  exact hx.bind fun a => .pure (f a)

theorem node_bind {f : Node → Rendering β} (hf : ∀ m, n.Stays m → Follows env id n (f m)) :
    Follows env id n (node id >>= f) :=
  fun s hid hn => hf (s.node id) hn s hid hn

theorem get_bind {f : RenderState → Rendering β}
    (hf : ∀ s, n.Stays (s.node id) → Follows env id n (f s)) :
    Follows env id n (get >>= f) :=
  fun s hid hn => hf s hn s hid hn

theorem report (kind : EventKind) (detail : String) :
    Follows env id n (report id kind detail) :=
  fun _ _ _ => .own (.report kind detail)

theorem modify {f : RenderState → RenderState}
    (hf : ∀ s, n.Stays (s.node id) → Act id s (f s)) : Follows env id n (modify f) :=
  fun s _ hn => .own (hf s hn)

theorem ensuring {x : Rendering α} {f : RenderState → RenderState} (hx : Follows env id n x)
    (hf : ∀ s, n.Stays (s.node id) → Act id s (f s)) : Follows env id n (ensuring x f) := by
  intro s hid hn
  have h := hx s hid hn
  exact h.trans (.own (hf _ (hn.trans (h.acts.stays.node hid))))

theorem report_if {c : Prop} [Decidable c] (kind : EventKind) (detail : String)
    {f : Unit → Rendering α} (hf : Follows env id n (f ⟨⟩)) :
    Follows env id n (if c then Rendering.report id kind detail >>= f else f ⟨⟩) := by
  split
  · exact (report kind detail).bind fun _ => hf
  · exact hf

theorem ite {c : Prop} [Decidable c] {x y : Rendering α} (hx : Follows env id n x)
    (hy : Follows env id n y) : Follows env id n (if c then x else y) := by
  split
  · exact hx
  · exact hy

theorem mapM {γ : Type} {f : γ → Rendering β} (l : List γ)
    (hf : ∀ c ∈ l, Follows env id n (f c)) : Follows env id n (l.mapM f) := by
  induction l with
  | nil => exact .pure _
  | cons c l ih =>
      rw [List.mapM_cons]
      refine (hf c List.mem_cons_self).bind fun b => ?_
      exact (ih fun d hd => hf d (List.mem_cons_of_mem c hd)).bind fun bs => .pure _

theorem forM {γ : Type} {f : γ → Rendering Unit} (l : List γ)
    (hf : ∀ c ∈ l, Follows env id n (f c)) :
    Follows env id n (forIn l PUnit.unit fun c _ => do
      f c
      return ForInStep.yield PUnit.unit) := by
  induction l with
  | nil => exact .pure _
  | cons c l ih =>
      rw [List.forIn_cons]
      refine ((hf c List.mem_cons_self).bind fun _ => .pure _).bind fun r => ?_
      cases r with
      | done b => exact .pure _
      | yield b => exact ih fun d hd => hf d (List.mem_cons_of_mem c hd)

end Follows

/-! ### The rules of a node -/

section rules
variable {α : Type} {env : Environment} {id : Nat} {n : Node} {body : Rendering String}

theorem follows_conditional (hb : Follows env id n body) : Follows env id n (conditional id body) :=
  .get_bind fun _ _ => .ite hb (.pure _)

theorem follows_whileTexts (hb : Follows env id n body) :
    ∀ limit, Follows env id n (whileTexts id body limit)
  | 0 => .get_bind fun _ _ => .report_if _ _ (.pure _)
  | limit + 1 => .get_bind fun _ _ =>
      .ite (hb.bind fun _ => (follows_whileTexts hb limit).bind fun _ => .pure _) (.pure _)

theorem follows_eachTexts (hk : n.kind = .eachLoop) (hb : Follows env id n body) :
    ∀ (index : Nat) (entries : List LoopEntry), Follows env id n (eachTexts id body index entries)
  | _, [] => .pure _
  | index, e :: rest => by
      refine .bind (.modify fun s hn => .entry _ (hn.kind.trans hk)) fun _ => ?_
      exact hb.bind fun _ => (follows_eachTexts hk hb (index + 1) rest).bind fun _ => .pure _

theorem follows_eachLoop (hk : n.kind = .eachLoop) (hb : Follows env id n body) :
    Follows env id n (eachLoop id body) := by
  refine .get_bind fun s _ => .bind (.ensuring (follows_eachTexts hk hb 0 _) ?_) fun _ => .pure _
  exact fun t hn => .entry _ (hn.kind.trans hk)

theorem follows_attemptsFrom (hk : n.kind = .untilLoop) (hb : Follows env id n body)
    (accepts : Validator) :
    ∀ attempt count, Follows env id n (attemptsFrom id body accepts attempt count)
  | attempt, 0 => by
      refine .bind (.modify fun s hn => .attempt _ (hn.kind.trans hk)) fun _ => ?_
      exact hb.bind fun _ => .report_if _ _ (.pure _)
  | attempt, count + 1 => by
      refine .bind (.modify fun s hn => .attempt _ (hn.kind.trans hk)) fun _ => ?_
      exact hb.bind fun _ =>
        .ite (.pure _) (follows_attemptsFrom hk hb accepts (attempt + 1) count)

theorem follows_untilLoop (hk : n.kind = .untilLoop) (hb : Follows env id n body)
    (validators : NameMap Validator) : Follows env id n (untilLoop id body validators) := by
  refine .node_bind fun m hm => ?_
  split
  · exact follows_attemptsFrom hk hb _ 1 _
  · exact hb

theorem follows_await (hb : Follows env id n body) : Follows env id n (await id body) := by
  refine .node_bind fun m _ => .bind (.report _ _) fun _ => .bind (.report _ _) fun _ => ?_
  exact hb.bind fun _ => .bind (.report _ _) fun _ => .pure _

theorem follows_layout (hk : n.kind = .layout) (hb : Follows env id n body) :
    Follows env id n (layout id body) := by
  refine .node_bind fun m _ => ?_
  have hf (content : Option String) (name : String) : Follows env id n (modify fun s =>
      s.updateContainer id fun c =>
        { layout := some name, slots := content.elim c.slots (c.slots.insert contentSlot) }) :=
    .modify fun s hn => .fill _ (.inl (hn.kind.trans hk))
  split
  · split
    · exact .bind (.pure _) fun content => (hf content _).bind fun _ => .pure _
    · exact .bind (.map _ hb) fun content => (hf content _).bind fun _ => .pure _
  · exact .pure _

theorem follows_slot (hk : n.kind = .slot) (hb : Follows env id n body) :
    Follows env id n (slot id body) := by
  refine hb.bind fun text => .node_bind fun m _ => ?_
  split
  · exact .bind (.modify fun s hn => .fill _ (.inr (hn.kind.trans hk))) fun _ => .pure _
  · exact .pure _

theorem follows_bindPair (hk : n.kind = .binding) {isGlobal : Bool}
    (hg : isGlobal = ((n.attributes.get? "global").map fun v => v.toValue.isTruthy).getD false)
    (datatype : Option Datatype) (key : String) (raw : AttrValue) :
    Follows env id n (bindPair id datatype isGlobal key raw) := by
  refine .get_bind fun s _ => .report_if _ _ ?_
  refine .modify fun t hn => .assign _ (.binding (hn.kind.trans hk) ?_)
  rw [hn.attributes]
  exact hg

theorem follows_binding (hk : n.kind = .binding) : Follows env id n (binding env id) := by
  refine .node_bind fun m hm => .bind (.forM _ fun p _ => ?_) fun _ => .pure _
  exact follows_bindPair hk (by rw [hm.attributes]) _ _ _

theorem follows_carryOut (o : Outcome)
    (ha : ∀ a, o.assignment = some a → ∀ s, n.Stays (s.node id) → Orders s id a) :
    Follows env id n (carryOut id o) := by
  obtain ⟨result, events, assignment⟩ := o
  refine .bind (.forM _ fun e _ => .report _ _) fun _ => ?_
  have hassign (a : Assignment) (h : assignment = some a) :
      Follows env id n (modify fun s => s.assign id a) :=
    .modify fun s hn => .assign a (ha a h s hn)
  cases result with
  | ok e =>
      cases assignment with
      | none => exact .pure _
      | some a => exact (hassign a rfl).bind fun _ => .pure _
  | error e =>
      cases assignment with
      | none => exact .throw _
      | some a => exact (hassign a rfl).bind fun _ => .throw _

theorem follows_expression (hk : n.kind = .expression) : Follows env id n (expression env id) := by
  refine .get_bind fun s hs => .bind (follows_carryOut _ fun a ha t ht => ?_) fun _ => .pure _
  obtain ⟨expr, hp, hg⟩ := Expression.global_of_evaluate ha
  refine .expression expr (ht.kind.trans hk) ?_ hg
  rw [ht.attributes, ← hs.attributes]
  exact hp

theorem follows_definition (hk : n.kind = .definition) : Follows env id n (definition id) := by
  refine .node_bind fun m _ => ?_
  split
  · exact .bind (.modify fun s hn => .define _ _ (hn.kind.trans hk)) fun _ => .pure _
  · exact .pure _

theorem follows_tooDeep : Follows env id n (tooDeep id) :=
  .bind (.report _ _) fun _ => .pure _

/-- Rendering a node one level deeper is a sequence of its acts. -/
def Nested (env : Environment) (nested : Option (Nat → Rendering String)) : Prop :=
  ∀ render, nested = some render → ∀ (root : Nat) (s : RenderState), root < s.document.size →
    Deeds env (Unread (render root s).1) root s (render root s).2

/-- A fragment is built, its root rendered, and then the step goes on. -/
theorem follows_build {nested : Option (Nat → Rendering String)} (hn : Nested env nested)
    {render : Nat → Rendering String} (hr : nested = some render) {parent : Option Nat}
    (hk : Builds id n.kind parent) (source : String) (inherited : Scope) (paths : SearchPaths)
    {f : Nat → String → Rendering α} (hf : ∀ root text, Follows env id n (f root text)) :
    Follows env id n (do
      let root ← build env source parent inherited paths
      let text ← render root
      f root text) := by
  intro s hid hs
  cases hb : build env source parent inherited paths s with
  | mk r t =>
      have hkind : Builds id (s.node id).kind parent := hs.kind ▸ hk
      cases r with
      | error e =>
          rw [bind_of_error hb]
          obtain ⟨_, he, _⟩ := build_error hb
          exact .failed ⟨_, congrArg Except.error he⟩ hkind hb
      | ok root =>
          rw [bind_of_ok hb]
          have hroot : root < t.document.size := by
            obtain ⟨_, rfl, rfl⟩ := build_ok hb
            simp [RenderState.grow]
          have hdeeds := hn render hr root t hroot
          cases hx : render root t with
          | mk q u =>
              rw [hx] at hdeeds
              cases q with
              | error e =>
                  rw [bind_of_error hx]
                  exact .fragment hkind hb (hdeeds.mono .of_error)
              | ok text =>
                  rw [bind_of_ok hx]
                  have hfirst := Acts.fragment hkind hb hdeeds.acts
                  have hrest := hf root text u (Nat.lt_of_lt_of_le hid hfirst.stays.size_le)
                    (hs.trans (hfirst.stays.node hid))
                  exact .trans (.fragment hkind hb
                    (hdeeds.mono fun hlost => absurd hlost (not_unread_ok text))) hrest

theorem follows_renderSource {nested : Option (Nat → Rendering String)} (hn : Nested env nested)
    (hk : Builds id n.kind (some id)) (source : String) (bindings : Scope) (paths : SearchPaths) :
    Follows env id n (renderSource env id nested source bindings paths) := by
  unfold renderSource
  split
  · exact follows_tooDeep
  · exact follows_build hn rfl hk source bindings paths fun _ _ => .pure _

theorem follows_invocation {nested : Option (Nat → Rendering String)} (hn : Nested env nested)
    (hk : n.kind = .invocation) : Follows env id n (invocation env id nested) := by
  refine .get_bind fun s _ => ?_
  dsimp only
  split
  · exact follows_renderSource hn (by rw [hk]; exact .invocation) _ _ _
  · exact .bind (.report _ _) fun _ => .pure _

theorem follows_loadFor (root : String) : Follows env id n (loadFor env id root) := by
  refine .node_bind fun m _ => ?_
  split
  · exact .pure _
  · split
    · exact .bind (.throw _) fun _ => .bind (.report _ _) fun _ => .pure _
    · exact .bind (.report _ _) fun _ => .pure _

theorem follows_inclusion {nested : Option (Nat → Rendering String)} (hn : Nested env nested)
    (hk : n.kind = .inclusion) : Follows env id n (inclusion env id nested) := by
  refine .bind (follows_loadFor _) fun r => ?_
  split
  · exact .pure _
  · refine .get_bind fun s _ => ?_
    exact follows_renderSource hn (by rw [hk]; exact .inclusion) _ _ _

theorem follows_moduleUse {nested : Option (Nat → Rendering String)} (hn : Nested env nested)
    (hk : n.kind = .moduleUse) : Follows env id n (moduleUse env id nested) := by
  refine .bind (follows_loadFor _) fun r => ?_
  split
  · exact .pure _
  · split
    · exact follows_tooDeep
    · refine .node_bind fun m _ => ?_
      refine follows_build hn rfl (by rw [hk]; exact .moduleUse) _ _ _ fun root _ => ?_
      exact .bind (.modify fun s hn => .adopt _ (hn.kind.trans hk)) fun _ => .pure _

theorem follows_runProgram (hk : n.kind = .custom) (hb : Follows env id n body) :
    ∀ p : TagProgram α, Follows env id n (runProgram id body p)
  | .done a => .pure a
  | .fail e => .throw e
  | .look _ => .get_bind fun _ _ => follows_runProgram hk hb _
  | .assign a next => .bind (.modify fun _ hn => .assign a (.custom (hn.kind.trans hk)))
      fun _ => follows_runProgram hk hb next
  | .report kind detail next =>
      .bind (.report kind detail) fun _ => follows_runProgram hk hb next
  | .renderChildren next => hb.bind fun text => follows_runProgram hk hb (next text)

theorem follows_customRule (hk : n.kind = .custom) (hb : Follows env id n body) :
    Follows env id n (customRule env id body) := by
  refine .node_bind fun m _ => ?_
  split
  · exact follows_runProgram hk hb _
  · exact .bind (follows_runProgram hk hb _) fun _ => .pure _
  · exact hb

theorem follows_ownText (hb : Follows env id n body) : Follows env id n (ownText env id body) := by
  refine .node_bind fun m hm => ?_
  have hk := hm.kind
  split
  · exact .pure _
  · exact .get_bind fun _ _ => .pure _
  · exact follows_conditional hb
  · exact .bind (follows_whileTexts hb _) fun _ => .pure _
  · next h => exact follows_eachLoop (hk ▸ h) hb
  · next h => exact follows_untilLoop (hk ▸ h) hb _
  · exact follows_await hb
  · exact .pure _
  · exact hb

theorem follows_textRule (r : TextRule) (hr : n.kind.dispatch = .render r)
    (hb : Follows env id n body) : Follows env id n (textRule env id body r) := by
  cases r with
  | own => exact follows_ownText hb
  | layout => exact follows_layout (NodeKind.eq_of_layout hr) hb
  | slot => exact follows_slot (NodeKind.eq_of_slot hr) hb
  | output => exact .get_bind fun _ _ => .pure _

theorem follows_actionRule {nested : Option (Nat → Rendering String)} (hn : Nested env nested)
    (r : ActionRule) (hr : n.kind.dispatch = .execute r) :
    Follows env id n (actionRule env id nested r) := by
  have hk := NodeKind.eq_of_execute hr
  cases r with
  | binding => exact follows_binding hk
  | expression => exact follows_expression hk
  | definition => exact follows_definition hk
  | invocation => exact follows_invocation hn hk
  | inclusion => exact follows_inclusion hn hk
  | moduleUse => exact follows_moduleUse hn hk

theorem follows_rule {nested : Option (Nat → Rendering String)} (hn : Nested env nested)
    (hb : Follows env id n body) :
    Follows env id n (rule env id body nested n.kind.dispatch) := by
  cases h : n.kind.dispatch with
  | render r => exact follows_textRule r h hb
  | execute r => exact .bind (follows_actionRule hn r h) fun _ => .pure _
  | custom => exact follows_customRule (NodeKind.eq_of_custom h) hb

theorem follows_withLifecycle {x : Rendering String} (hx : Follows env id n x) :
    Follows env id n (withLifecycle id x) := by
  refine .node_bind fun m _ => .report_if _ _ (hx.bind fun text => .report_if _ _ (.pure _))

theorem follows_nodeWith {nested : Option (Nat → Rendering String)} (hn : Nested env nested)
    (hb : Follows env id n body) : Follows env id n (nodeWith env id body nested) := by
  refine .node_bind fun m hm => follows_withLifecycle ?_
  rw [hm.kind]
  exact follows_rule hn hb

theorem follows_child {depth c : Nat} (hc : c ∈ n.children) (h : c < id → ∀ s : RenderState,
    c < s.document.size →
      Deeds env (Unread (renderNode env depth c s).1) c s (renderNode env depth c s).2) :
    Follows env id n (if c < id then renderNode env depth c else pure "") := by
  intro s hid hn
  split
  · next hlt =>
    have hc' : c ∈ (s.node id).children := by rwa [hn.children]
    exact .child hc' hlt (h hlt s (Nat.lt_trans hlt hid))
  · exact .refl _ _

theorem follows_held {depth : Nat} (h : ∀ c < id, ∀ s : RenderState, c < s.document.size →
      Deeds env (Unread (renderNode env depth c s).1) c s (renderNode env depth c s).2) :
    Follows env id n (held (renderNode env depth) id) := by
  refine .node_bind fun m hm => .bind (.mapM _ fun c hc => ?_) fun _ => .pure _
  rw [hm.children] at hc
  exact follows_child hc (h c)

end rules

/-- Rendering a node is a sequence of its acts, whatever the outcome, and comes across a text with
errors only if it fails because of it. -/
theorem renderNode_deeds (env : Environment) (depth id : Nat) :
    ∀ s : RenderState, id < s.document.size →
      Deeds env (Unread (renderNode env depth id s).1) id s (renderNode env depth id s).2 := by
  refine depth_induction env.settings.maxDepth (P := fun depth id => ∀ s : RenderState,
    id < s.document.size →
      Deeds env (Unread (renderNode env depth id s).1) id s (renderNode env depth id s).2)
    ?_ depth id
  intro depth id ihchild ihdeeper s hid
  rw [renderNode_eq]
  refine follows_nodeWith (n := s.node id) (fun render hr root t hroot => ?_)
    (follows_held ihchild) s hid (.refl _)
  unfold deeper at hr
  split at hr
  · next hd =>
    cases hr
    exact ihdeeper hd root t hroot
  · cases hr

/-- Rendering a node is a sequence of its acts, whatever the outcome. -/
theorem renderNode_acts (env : Environment) (depth id : Nat) (s : RenderState)
    (hid : id < s.document.size) : Acts env id s (renderNode env depth id s).2 :=
  (renderNode_deeds env depth id s hid).acts

theorem held_acts (env : Environment) (depth id : Nat) (s : RenderState)
    (hid : id < s.document.size) : Acts env id s (held (renderNode env depth) id s).2 :=
  (follows_held (fun c _ => renderNode_deeds env depth c) s hid (.refl _)).acts

end Rendering

end TagTemplate
