import TagTemplate.Proofs.Document.Rift
import TagTemplate.Proofs.Render.Confinement

/-! # Rendering on both sides of a rift

A rendering does not see what other fragments its document has taken in: from two states that
differ by a rift in the numbers of their nodes only, a node is rendered to the same text, and the
states differ by the same rift afterwards.

* `RenderState.Spread`: the second state is the first one with a rift.
* `RenderState.Abreast`: two states come to other ones with the same events.
* `Mirrors`: a step and its mirror image do the same on both sides of a rift.
* `renderNode_mirrors`: rendering a node mirrors itself, if the toolkit does not see numbers. -/

namespace TagTemplate

/-! ### Toolkits that do not see numbers -/

/-- The program goes on in the same way on both sides of a rift. -/
def TagProgram.IsBlind {α : Type} : TagProgram α → Prop
  | .done _ => True
  | .fail _ => True
  | .look next =>
    (∀ (g : Rift) id n lookup, next (g.across id) (n.renumber g) lookup = next id n lookup) ∧
      ∀ id n lookup, (next id n lookup).IsBlind
  | .assign _ next => next.IsBlind
  | .report _ _ next => next.IsBlind
  | .renderChildren next => ∀ text, (next text).IsBlind

/-- The program of the handler does not see numbers of nodes. -/
def Handler.IsBlind : Handler → Prop
  | .text p => p.IsBlind
  | .action p => p.IsBlind

/-- Nothing in the toolkit sees numbers of nodes. -/
structure Toolkit.IsBlind (k : Toolkit) : Prop where
  preparer {p : Preparer} (h : p ∈ k.preparers) : p.IsBlind
  generator {name : String} {f : Generator} (h : k.generators.get? name = some f) :
    Generator.IsBlind f
  handler {name : String} {p : Handler} (h : k.handlers.get? name = some p) : p.IsBlind

theorem Handler.isBlind_of_find? {k : Toolkit} (hk : k.IsBlind) {tag : String} {p : Handler}
    (h : find? k.handlers tag = some p) : p.IsBlind := by
  unfold find? at h
  split at h
  · next heq =>
    cases h
    exact hk.handler heq
  · exact hk.handler h

theorem Generator.isBlind_of_builtins {name : String} {f : Generator}
    (h : builtins.get? name = some f) : IsBlind f := by
  rcases eq_of_builtins h with rfl | rfl <;> exact fun _ _ => rfl

theorem Toolkit.isBlind_builtin : builtin.IsBlind :=
  ⟨Preparer.isBlind_of_mem_builtins, Generator.isBlind_of_builtins, fun h => by cases h⟩

/-! ### States with a rift -/

namespace RenderState

/-- The second state is the first one with a rift among the nodes; its events do not matter. -/
structure Spread (g : Rift) (s t : RenderState) : Prop where
  document : s.document.Spread g t.document
  sound : s.document.Sound
  sound' : t.document.Sound
  globals : t.globals = s.globals
  macros : t.macros = s.macros

namespace Spread

variable {g : Rift} {s t : RenderState}

theorem node (h : s.Spread g t) (i : Nat) : t.node (g.across i) = (s.node i).renumber g :=
  h.document.node i

theorem report (h : s.Spread g t) (id : Nat) (kind : EventKind) (detail : String) :
    (s.report id kind detail).Spread g (t.report (g.across id) kind detail) := by
  constructor <;> simp only [report_document, report_globals, report_macros]
  · exact h.document
  · exact h.sound
  · exact h.sound'
  · exact h.globals
  · exact h.macros

theorem target (h : s.Spread g t) (id : Nat) : t.target (g.across id) = g.across (s.target id) := by
  unfold RenderState.target
  rw [h.node, Node.renumber_parent]
  cases (s.node id).parent <;> rfl

theorem update (h : s.Spread g t) (id : Nat) {f f' : Node → Node}
    (hf : ∀ n, f' (n.renumber g) = (f n).renumber g)
    (hs : (s.node id).Stays (f (s.node id)))
    (ht : (t.node (g.across id)).Stays (f' (t.node (g.across id)))) :
    Spread g { s with document := s.document.update id f }
      { t with document := t.document.update (g.across id) f' } := by
  refine ⟨h.document.update id hf, ?_, ?_, h.globals, h.macros⟩
  · exact (Document.Stays.update hs).sound (Document.size_update _ _ _) h.sound
  · exact (Document.Stays.update ht).sound (Document.size_update _ _ _) h.sound'

theorem updateScope (h : s.Spread g t) (id : Nat) (f : Scope → Scope) :
    Spread g { s with document := s.document.update id fun n => { n with scope := f n.scope } }
      { t with document := t.document.update (g.across id) fun n => { n with scope := f n.scope } } :=
  h.update id (fun _ => rfl) ⟨rfl, rfl⟩ ⟨rfl, rfl⟩

theorem setScope (h : s.Spread g t) (id : Nat) (scope : Scope) :
    (s.setScope id scope).Spread g (t.setScope (g.across id) scope) :=
  h.updateScope id fun _ => scope

theorem bind (h : s.Spread g t) (id : Nat) (name : String) (value : Value) :
    (s.bind id name value).Spread g (t.bind (g.across id) name value) :=
  h.updateScope id fun scope => scope.insert name value

theorem assign (h : s.Spread g t) (id : Nat) (a : Assignment) :
    (s.assign id a).Spread g (t.assign (g.across id) a) := by
  cases ha : a.global with
  | true =>
      rw [assign_of_global ha, assign_of_global ha, h.globals]
      exact ⟨h.document, h.sound, h.sound', rfl, h.macros⟩
  | false =>
      rw [assign_of_local ha, assign_of_local ha, h.target]
      exact h.bind (s.target id) a.name a.value

/-! What is seen from a node. -/

section seen
variable (h : s.Spread g t) {id : Nat} (hid : id < s.document.size)
include h hid

theorem lookup? (name : String) : t.lookup? (g.across id) name = s.lookup? id name := by
  unfold RenderState.lookup?
  rw [h.document.lookup? h.sound h.sound' hid, h.globals]

theorem attributeValue (v : AttrValue) :
    t.attributeValue (g.across id) v = s.attributeValue id v := by
  unfold RenderState.attributeValue
  simp only [h.lookup? hid]

theorem arguments : t.arguments (g.across id) = s.arguments id := by
  unfold RenderState.arguments
  rw [h.node]
  simp only [h.attributeValue hid]
  rfl

theorem referenceText {generators : NameMap Generator}
    (hg : ∀ {name f}, generators.get? name = some f → Generator.IsBlind f) :
    t.referenceText generators (g.across id) = s.referenceText generators id := by
  unfold RenderState.referenceText
  simp only [h.node, h.lookup? hid]
  rw [Node.renumber_attributes]
  split
  · rfl
  · split
    · rfl
    · split
      · rfl
      · cases hf : ((s.node id).attributes.text? "generator").bind generators.get? with
        | none => rfl
        | some f =>
            obtain ⟨name, _, hname⟩ := Option.bind_eq_some_iff.mp hf
            exact hg hname g (s.node id)

theorem condition : t.condition (g.across id) = s.condition id := by
  unfold RenderState.condition
  simp only [h.node, h.lookup? hid, h.attributeValue hid]
  rfl

theorem loopEntries : t.loopEntries (g.across id) = s.loopEntries id := by
  unfold RenderState.loopEntries
  simp only [h.node, h.lookup? hid]
  rfl

theorem container? :
    t.container? (g.across id) = (s.container? id).map fun c => (g.across c.1, c.2) := by
  unfold RenderState.container?
  rw [h.document.nearestContainer? h.sound h.sound' hid]
  cases s.document.nearestContainer? id with
  | none => rfl
  | some root =>
      rw [Option.map_some, Option.bind_some, Option.bind_some, h.node, Option.map_map]
      rfl

theorem updateContainer (f : Container → Container) :
    (s.updateContainer id f).Spread g (t.updateContainer (g.across id) f) := by
  unfold RenderState.updateContainer
  rw [h.container? hid]
  cases hc : s.container? id with
  | none => exact h
  | some c =>
      obtain ⟨root, c⟩ := c
      obtain ⟨_, _, hroot⟩ := Option.bind_eq_some_iff.mp hc
      obtain ⟨_, hcontainer, heq⟩ := Option.map_eq_some_iff.mp hroot
      cases heq
      have hsome := (congrArg Option.isSome hcontainer).symm
      refine h.update root (fun _ => rfl) ⟨rfl, hsome⟩ ⟨rfl, ?_⟩
      rw [h.node]
      exact hsome

end seen

end Spread

/-- From the states `s` and `t` on, `s'` and `t'` have seen the same events. -/
def Abreast (s t s' t' : RenderState) : Prop :=
  ∃ events : List Event, s'.events.toList = s.events.toList ++ events ∧
    t'.events.toList = t.events.toList ++ events

namespace Abreast

variable {s t s' t' s'' t'' : RenderState}

theorem of_events (h : s'.events = s.events) (h' : t'.events = t.events) : Abreast s t s' t' :=
  ⟨[], by rw [h, List.append_nil], by rw [h', List.append_nil]⟩

theorem trans (h : Abreast s t s' t') (h' : Abreast s' t' s'' t'') : Abreast s t s'' t'' := by
  obtain ⟨es, hs, ht⟩ := h
  obtain ⟨fs, hs', ht'⟩ := h'
  exact ⟨es ++ fs, by rw [hs', hs, List.append_assoc], by rw [ht', ht, List.append_assoc]⟩

end Abreast

theorem Spread.report_abreast {g : Rift} {s t : RenderState} (h : s.Spread g t) (id : Nat)
    (kind : EventKind) (detail : String) :
    Abreast s t (s.report id kind detail) (t.report (g.across id) kind detail) := by
  have hsubscribed : (t.node (g.across id)).subscribed = (s.node id).subscribed := by
    rw [h.node]
    rfl
  have hlabel : (t.node (g.across id)).label = (s.node id).label := by
    rw [h.node]
    rfl
  simp only [RenderState.report, hsubscribed, hlabel]
  split
  · exact ⟨[⟨kind, (s.node id).label, detail⟩], Array.toList_push, Array.toList_push⟩
  · exact .of_events rfl rfl

end RenderState

/-! ### Steps and their mirror images -/

namespace Rendering

/-- From two states with the rift, in which the node is there, both steps come to the same result
and to two states with the rift, with the same events; no node goes away. -/
def Mirrors {α : Type} (g : Rift) (id : Nat) (x y : Rendering α) : Prop :=
  ∀ s t : RenderState, s.Spread g t → id < s.document.size →
    (y t).1 = (x s).1 ∧ (x s).2.Spread g (y t).2 ∧ s.document.size ≤ (x s).2.document.size ∧
      RenderState.Abreast s t (x s).2 (y t).2

namespace Mirrors

variable {α β : Type} {g : Rift} {id : Nat}

theorem pure (a : α) : Mirrors g id (pure a) (pure a) :=
  fun _ _ h _ => ⟨rfl, h, Nat.le_refl _, .of_events rfl rfl⟩

theorem throw (e : RenderError) : Mirrors g id (throw e : Rendering α) (throw e) :=
  fun _ _ h _ => ⟨rfl, h, Nat.le_refl _, .of_events rfl rfl⟩

theorem mono {c : Nat} {x y : Rendering α} (hc : c ≤ id) (h : Mirrors g c x y) :
    Mirrors g id x y :=
  fun s t hst hid => h s t hst (Nat.lt_of_le_of_lt hc hid)

theorem bind {x y : Rendering α} {f f' : α → Rendering β} (hx : Mirrors g id x y)
    (hf : ∀ a, Mirrors g id (f a) (f' a)) : Mirrors g id (x >>= f) (y >>= f') := by
  intro s t h hid
  obtain ⟨hr, hst, hle, hevents⟩ := hx s t h hid
  rw [bind_apply, bind_apply]
  cases hxs : x s with
  | mk r s' =>
      cases hyt : y t with
      | mk r' t' =>
          rw [hxs, hyt] at hr hst hevents
          rw [hxs] at hle
          cases hr
          cases r with
          | error e => exact ⟨rfl, hst, hle, hevents⟩
          | ok a =>
              obtain ⟨hr, hst, hle', hevents'⟩ := hf a s' t' hst (Nat.lt_of_lt_of_le hid hle)
              exact ⟨hr, hst, Nat.le_trans hle hle', hevents.trans hevents'⟩

theorem map {x y : Rendering α} (f : α → β) (hx : Mirrors g id x y) :
    Mirrors g id (f <$> x) (f <$> y) := by
  rw [← bind_pure_comp, ← bind_pure_comp]
  exact hx.bind fun a => .pure (f a)

theorem node_bind {f f' : Node → Rendering β} (hf : ∀ n, Mirrors g id (f n) (f' (n.renumber g))) :
    Mirrors g id (node id >>= f) (node (g.across id) >>= f') := by
  intro s t h hid
  have hn := hf (s.node id) s t h hid
  rw [← h.node] at hn
  exact hn

theorem get_bind {f f' : RenderState → Rendering β}
    (hf : ∀ s t, s.Spread g t → id < s.document.size → Mirrors g id (f s) (f' t)) :
    Mirrors g id (get >>= f) (get >>= f') :=
  fun s t h hid => hf s t h hid s t h hid

theorem modify {f f' : RenderState → RenderState}
    (hf : ∀ s t, s.Spread g t → id < s.document.size →
      (f s).Spread g (f' t) ∧ s.document.size ≤ (f s).document.size ∧
        RenderState.Abreast s t (f s) (f' t)) :
    Mirrors g id (modify f) (modify f') :=
  fun s t h hid => ⟨rfl, hf s t h hid⟩

theorem ensuring {x y : Rendering α} {f f' : RenderState → RenderState} (hx : Mirrors g id x y)
    (hf : ∀ s t, s.Spread g t → id < s.document.size →
      (f s).Spread g (f' t) ∧ s.document.size ≤ (f s).document.size ∧
        RenderState.Abreast s t (f s) (f' t)) :
    Mirrors g id (ensuring x f) (ensuring y f') := by
  intro s t h hid
  obtain ⟨hr, hst, hle, hevents⟩ := hx s t h hid
  obtain ⟨hst', hle', hevents'⟩ := hf _ _ hst (Nat.lt_of_lt_of_le hid hle)
  exact ⟨hr, hst', Nat.le_trans hle hle', hevents.trans hevents'⟩

theorem report (kind : EventKind) (detail : String) :
    Mirrors g id (report id kind detail) (report (g.across id) kind detail) :=
  .modify fun s _ h _ => ⟨h.report id kind detail, by rw [RenderState.report_document],
    h.report_abreast id kind detail⟩

theorem report_if {c : Prop} [Decidable c] (kind : EventKind) (detail : String)
    {f f' : Unit → Rendering α} (hf : Mirrors g id (f ⟨⟩) (f' ⟨⟩)) :
    Mirrors g id (if c then Rendering.report id kind detail >>= f else f ⟨⟩)
      (if c then Rendering.report (g.across id) kind detail >>= f' else f' ⟨⟩) := by
  split
  · exact (report kind detail).bind fun _ => hf
  · exact hf

theorem ite {c : Prop} [Decidable c] {x x' y y' : Rendering α} (hx : Mirrors g id x x')
    (hy : Mirrors g id y y') : Mirrors g id (if c then x else y) (if c then x' else y') := by
  split
  · exact hx
  · exact hy

/-- A step for each of a list of numbers, and its mirror image for their images. -/
theorem mapM {f f' : Nat → Rendering β} (l : List Nat)
    (hf : ∀ c ∈ l, Mirrors g id (f c) (f' (g.across c))) :
    Mirrors g id (l.mapM f) ((l.map g.across).mapM f') := by
  induction l with
  | nil => exact .pure _
  | cons c l ih =>
      rw [List.map_cons, List.mapM_cons, List.mapM_cons]
      refine (hf c List.mem_cons_self).bind fun b => ?_
      exact (ih fun d hd => hf d (List.mem_cons_of_mem c hd)).bind fun bs => .pure _

theorem forM {γ : Type} {f f' : γ → Rendering Unit} (l : List γ)
    (hf : ∀ c ∈ l, Mirrors g id (f c) (f' c)) :
    Mirrors g id
      (forIn l PUnit.unit fun c _ => do
        f c
        return ForInStep.yield PUnit.unit)
      (forIn l PUnit.unit fun c _ => do
        f' c
        return ForInStep.yield PUnit.unit) := by
  induction l with
  | nil => exact .pure _
  | cons c l ih =>
      rw [List.forIn_cons, List.forIn_cons]
      refine ((hf c List.mem_cons_self).bind fun _ => .pure _).bind fun r => ?_
      cases r with
      | done b => exact .pure _
      | yield b => exact ih fun d hd => hf d (List.mem_cons_of_mem c hd)

end Mirrors

/-! ### The rules of a node -/

section rules
variable {α : Type} {g : Rift} {env : Environment} {id : Nat} {body body' : Rendering String}

theorem mirrors_assign (a : Assignment) :
    Mirrors g id (modify fun s => s.assign id a) (modify fun s => s.assign (g.across id) a) :=
  .modify fun s _ h _ => ⟨h.assign id a, (s.assign_stays id a).size_le,
    .of_events (s.assign_events id a) (RenderState.assign_events _ _ a)⟩

theorem mirrors_setScope (scope : Scope) :
    Mirrors g id (modify fun s => s.setScope id scope)
      (modify fun s => s.setScope (g.across id) scope) :=
  .modify fun _ _ h _ => ⟨h.setScope id scope, (Document.Stays.setScope _ _ _).size_le,
    .of_events rfl rfl⟩

theorem mirrors_bind (name : String) (value : Value) :
    Mirrors g id (modify fun s => s.bind id name value)
      (modify fun s => s.bind (g.across id) name value) :=
  .modify fun _ _ h _ => ⟨h.bind id name value, (Document.Stays.bind _ _ _ _).size_le,
    .of_events rfl rfl⟩

theorem mirrors_updateContainer (f : Container → Container) :
    Mirrors g id (modify fun s => s.updateContainer id f)
      (modify fun s => s.updateContainer (g.across id) f) :=
  .modify fun s _ h hid => ⟨h.updateContainer hid f, (s.updateContainer_stays id f).size_le,
    .of_events (s.updateContainer_events id f) (RenderState.updateContainer_events _ _ f)⟩

theorem mirrors_conditional (hb : Mirrors g id body body') :
    Mirrors g id (conditional id body) (conditional (g.across id) body') := by
  refine .get_bind fun s t h hid => ?_
  rw [h.condition hid]
  exact .ite hb (.pure _)

theorem mirrors_whileTexts (hb : Mirrors g id body body') :
    ∀ limit, Mirrors g id (whileTexts id body limit) (whileTexts (g.across id) body' limit)
  | 0 => by
      refine .get_bind fun s t h hid => ?_
      rw [h.condition hid]
      exact .report_if _ _ (.pure _)
  | limit + 1 => by
      refine .get_bind fun s t h hid => ?_
      rw [h.condition hid]
      exact .ite (hb.bind fun _ => (mirrors_whileTexts hb limit).bind fun _ => .pure _) (.pure _)

theorem mirrors_eachTexts (hb : Mirrors g id body body') :
    ∀ (index : Nat) (entries : List LoopEntry),
      Mirrors g id (eachTexts id body index entries) (eachTexts (g.across id) body' index entries)
  | _, [] => .pure _
  | index, _ :: rest =>
      (mirrors_setScope _).bind fun _ => hb.bind fun _ =>
        (mirrors_eachTexts hb (index + 1) rest).bind fun _ => .pure _

theorem mirrors_eachLoop (hb : Mirrors g id body body') :
    Mirrors g id (eachLoop id body) (eachLoop (g.across id) body') := by
  refine .get_bind fun s t h hid => ?_
  simp only [h.node, h.loopEntries hid]
  refine .bind (.ensuring (mirrors_eachTexts hb 0 _) fun u v hu _ => ?_) fun _ => .pure _
  exact ⟨hu.setScope id _, (Document.Stays.setScope _ _ _).size_le, .of_events rfl rfl⟩

theorem mirrors_attemptsFrom (hb : Mirrors g id body body') (accepts : Validator) :
    ∀ attempt count, Mirrors g id (attemptsFrom id body accepts attempt count)
      (attemptsFrom (g.across id) body' accepts attempt count)
  | _, 0 =>
      (mirrors_bind _ _).bind fun _ => hb.bind fun _ => .report_if _ _ (.pure _)
  | attempt, count + 1 =>
      (mirrors_bind _ _).bind fun _ => hb.bind fun _ =>
        .ite (.pure _) (mirrors_attemptsFrom hb accepts (attempt + 1) count)

theorem mirrors_untilLoop (hb : Mirrors g id body body') (validators : NameMap Validator) :
    Mirrors g id (untilLoop id body validators) (untilLoop (g.across id) body' validators) := by
  refine .node_bind fun n => ?_
  rw [Node.renumber_attributes]
  split
  · exact mirrors_attemptsFrom hb _ 1 _
  · exact hb

theorem mirrors_await (hb : Mirrors g id body body') :
    Mirrors g id (await id body) (await (g.across id) body') :=
  .node_bind fun _ => .bind (.report _ _) fun _ => .bind (.report _ _) fun _ =>
    hb.bind fun _ => .bind (.report _ _) fun _ => .pure _

theorem mirrors_layout (hb : Mirrors g id body body') :
    Mirrors g id (layout id body) (layout (g.across id) body') := by
  refine .node_bind fun n => ?_
  have hempty : (n.renumber g).children.isEmpty = n.children.isEmpty := by
    rw [Node.renumber_children]
    cases n.children <;> rfl
  rw [Node.renumber_attributes, hempty]
  split
  · split
    · exact .bind (.pure _) fun _ => (mirrors_updateContainer _).bind fun _ => .pure _
    · exact .bind (hb.map _) fun _ => (mirrors_updateContainer _).bind fun _ => .pure _
  · exact .pure _

theorem mirrors_slot (hb : Mirrors g id body body') :
    Mirrors g id (slot id body) (slot (g.across id) body') := by
  refine hb.bind fun text => .node_bind fun n => ?_
  rw [Node.renumber_attributes]
  split
  · exact (mirrors_updateContainer _).bind fun _ => .pure _
  · exact .pure _

theorem mirrors_output : Mirrors g id (output id) (output (g.across id)) := by
  refine .get_bind fun s t h hid => ?_
  have hslots : (t.container? (g.across id)).elim (∅ : NameMap String) (·.2.slots)
      = (s.container? id).elim ∅ (·.2.slots) := by
    rw [h.container? hid]
    cases s.container? id <;> rfl
  simp only [h.node, hslots]
  exact .pure _

theorem mirrors_bindPair (datatype : Option Datatype) (isGlobal : Bool) (key : String)
    (raw : AttrValue) :
    Mirrors g id (bindPair id datatype isGlobal key raw)
      (bindPair (g.across id) datatype isGlobal key raw) := by
  refine .get_bind fun s t h hid => ?_
  rw [h.attributeValue hid]
  exact .report_if _ _ (mirrors_assign _)

theorem mirrors_binding : Mirrors g id (binding env id) (binding env (g.across id)) :=
  .node_bind fun _ => .bind (.forM _ fun _ _ => mirrors_bindPair _ _ _ _) fun _ => .pure _

theorem mirrors_carryOut (o : Outcome) : Mirrors g id (carryOut id o) (carryOut (g.across id) o) := by
  obtain ⟨result, events, assignment⟩ := o
  refine .bind (.forM _ fun _ _ => .report _ _) fun _ => ?_
  cases result with
  | ok _ =>
      cases assignment with
      | none => exact .pure _
      | some a => exact (mirrors_assign a).bind fun _ => .pure _
  | error _ =>
      cases assignment with
      | none => exact .throw _
      | some a => exact (mirrors_assign a).bind fun _ => .throw _

theorem mirrors_expression : Mirrors g id (expression env id) (expression env (g.across id)) := by
  refine .get_bind fun s t h hid => ?_
  simp only [h.node, funext (h.lookup? hid)]
  exact (mirrors_carryOut _).bind fun _ => .pure _

theorem mirrors_definition : Mirrors g id (definition id) (definition (g.across id)) := by
  refine .node_bind fun n => ?_
  rw [Node.renumber_attributes, Node.renumber_text?]
  split
  · refine .bind (.modify fun s t h _ => ⟨?_, Nat.le_refl _, .of_events rfl rfl⟩) fun _ => .pure _
    rw [h.macros]
    exact ⟨h.document, h.sound, h.sound', h.globals, rfl⟩
  · exact .pure _

theorem mirrors_tooDeep : Mirrors g id (tooDeep id) (tooDeep (g.across id)) :=
  .bind (.report _ _) fun _ => .pure _

section nested
variable (hlocal : ∀ p ∈ env.toolkit.preparers, p.IsLocal) (hblind : env.toolkit.IsBlind)
include hlocal hblind

/-- Building a fragment on both sides of a rift: its root gets the number behind the rift. -/
theorem build_spread {s t : RenderState} (h : s.Spread g t) {parent : Option Nat}
    (hp : ∀ p, parent = some p → p < s.document.size) (source : String) (inherited : Scope)
    (paths : SearchPaths) :
    (build env source (parent.map g.across) inherited paths t).1
        = (build env source parent inherited paths s).1.map g.across ∧
      (build env source parent inherited paths s).2.Spread g
        (build env source (parent.map g.across) inherited paths t).2 := by
  have hp' : ∀ p, parent.map g.across = some p → p < t.document.size := by
    intro p hmap
    obtain ⟨q, hq, rfl⟩ := Option.map_eq_some_iff.mp hmap
    exact h.document.across_lt (hp q hq)
  have hstart := h.document.start_le
  have hs := build_eq env source parent inherited paths s
  have ht := build_eq env source (parent.map g.across) inherited paths t
  rw [h.document.size] at ht
  by_cases herrors : (env.scanner.read source).errors = []
  · have hcrosses := Node.crosses_prepared (fun p hp => hblind.preparer hp) g
      ⟨parent, inherited, paths, env.settings.bubble⟩
    rw [if_pos herrors] at hs ht
    rw [Part.fragment_renumber hcrosses hstart] at ht
    have hsound := build_sound hlocal h.sound hp hs
    have hsound' := build_sound hlocal h.sound' hp' ht
    rw [hs, ht]
    refine ⟨congrArg Except.ok ?_, h.document.append _, hsound, hsound', h.globals, h.macros⟩
    rw [g.across_of_le (by omega)]
    omega
  · rw [if_neg herrors] at hs ht
    have hcrosses := Part.runAll_renumber (crosses_untouched g) hstart none
      (env.scanner.read source).parts
    rw [Option.map_none] at hcrosses
    rw [hcrosses] at ht
    have hsound := build_sound hlocal h.sound hp hs
    have hsound' := build_sound hlocal h.sound' hp' ht
    rw [hs, ht]
    exact ⟨rfl, h.document.append _, hsound, hsound', h.globals, h.macros⟩

omit hlocal hblind in
theorem build_events {source : String} {parent : Option Nat} {inherited : Scope}
    {paths : SearchPaths} {s t : RenderState} {r : Except RenderError Nat}
    (h : build env source parent inherited paths s = (r, t)) : t.events = s.events := by
  rw [build_eq] at h
  split at h <;> cases h <;> rfl

/-- A fragment is built, its root rendered, and then the step goes on. -/
theorem mirrors_build {render : Nat → Rendering String}
    (hr : ∀ root, Mirrors g root (render root) (render (g.across root))) {parent : Option Nat}
    (hp : parent = none ∨ parent = some id) (source : String) (inherited : Scope)
    (paths : SearchPaths) {f f' : Nat → String → Rendering α}
    (hf : ∀ root text, Mirrors g id (f root text) (f' (g.across root) text)) :
    Mirrors g id
      (do
        let root ← build env source parent inherited paths
        let text ← render root
        f root text)
      (do
        let root ← build env source (parent.map g.across) inherited paths
        let text ← render root
        f' root text) := by
  intro s t h hid
  have hlt : ∀ p, parent = some p → p < s.document.size := by
    rintro p rfl
    rcases hp with hp | hp <;> cases hp
    exact hid
  obtain ⟨hroot, hspread⟩ := build_spread hlocal hblind h hlt source inherited paths
  cases hb : build env source parent inherited paths s with
  | mk r u =>
      cases hb' : build env source (parent.map g.across) inherited paths t with
      | mk r' v =>
          have hle := (build_stays hb).size_le
          have hevents : RenderState.Abreast s t u v :=
            .of_events (build_events hb) (build_events hb')
          rw [hb, hb'] at hroot hspread
          cases hroot
          cases r with
          | error e =>
              rw [bind_of_error hb, bind_of_error hb']
              exact ⟨rfl, hspread, hle, hevents⟩
          | ok root =>
              have hlast := (built_of_build hlocal h.sound hlt hb).root_lt
              rw [bind_of_ok hb, bind_of_ok hb']
              have hid' : max id root < u.document.size := by omega
              obtain ⟨hr, hst, hle', hevents'⟩ := Mirrors.bind
                ((hr root).mono (Nat.le_max_right id root))
                (fun text => (hf root text).mono (Nat.le_max_left id root)) u v hspread hid'
              exact ⟨hr, hst, Nat.le_trans hle hle', hevents.trans hevents'⟩

/-- Rendering nodes one level deeper mirrors itself. -/
def NestedMirrors (g : Rift) (nested : Option (Nat → Rendering String)) : Prop :=
  ∀ render, nested = some render → ∀ root, Mirrors g root (render root) (render (g.across root))

theorem mirrors_renderSource {nested : Option (Nat → Rendering String)}
    (hn : NestedMirrors g nested) (source : String) (bindings : Scope) (paths : SearchPaths) :
    Mirrors g id (renderSource env id nested source bindings paths)
      (renderSource env (g.across id) nested source bindings paths) := by
  unfold renderSource
  split
  · exact mirrors_tooDeep
  · exact mirrors_build hlocal hblind (hn _ rfl) (.inr rfl) source bindings paths fun _ _ =>
      .pure _

theorem mirrors_invocation {nested : Option (Nat → Rendering String)}
    (hn : NestedMirrors g nested) :
    Mirrors g id (invocation env id nested) (invocation env (g.across id) nested) := by
  refine .get_bind fun s t h hid => ?_
  simp only [h.node, h.macros, h.arguments hid, Node.renumber_givenName, Node.renumber_paths]
  split
  · exact mirrors_renderSource hlocal hblind hn _ _ _
  · exact .bind (.report _ _) fun _ => .pure _

omit hlocal hblind in
theorem mirrors_loadFor (root : String) :
    Mirrors g id (loadFor env id root) (loadFor env (g.across id) root) := by
  refine .node_bind fun n => ?_
  rw [Node.renumber_givenName, Node.renumber_paths]
  split
  · exact .pure _
  · split
    · exact .bind (.throw _) fun _ => .bind (.report _ _) fun _ => .pure _
    · exact .bind (.report _ _) fun _ => .pure _

theorem mirrors_inclusion {nested : Option (Nat → Rendering String)}
    (hn : NestedMirrors g nested) :
    Mirrors g id (inclusion env id nested) (inclusion env (g.across id) nested) := by
  refine .bind (mirrors_loadFor _) fun r => ?_
  split
  · exact .pure _
  · refine .get_bind fun s t h hid => ?_
    rw [h.arguments hid, h.node, Node.renumber_paths]
    exact mirrors_renderSource hlocal hblind hn _ _ _

theorem mirrors_moduleUse {nested : Option (Nat → Rendering String)}
    (hn : NestedMirrors g nested) :
    Mirrors g id (moduleUse env id nested) (moduleUse env (g.across id) nested) := by
  refine .bind (mirrors_loadFor _) fun r => ?_
  split
  · exact .pure _
  · split
    · exact mirrors_tooDeep
    · refine .node_bind fun n => ?_
      rw [Node.renumber_paths]
      refine mirrors_build hlocal hblind (hn _ rfl) (.inl rfl) _ _ _ fun root _ => ?_
      refine .bind (.modify fun s t h _ => ?_) fun _ => .pure _
      simp only [h.target, h.node, Node.renumber_scope]
      exact ⟨h.setScope _ _, (Document.Stays.setScope _ _ _).size_le, .of_events rfl rfl⟩

end nested

theorem mirrors_runProgram (hb : Mirrors g id body body') :
    ∀ {p : TagProgram α}, p.IsBlind →
      Mirrors g id (runProgram id body p) (runProgram (g.across id) body' p)
  | .done a, _ => .pure a
  | .fail e, _ => .throw e
  | .look next, hp => by
      refine .get_bind fun s t h hid => ?_
      rw [h.node, funext (h.lookup? hid), hp.1]
      exact mirrors_runProgram hb (hp.2 _ _ _)
  | .assign a next, hp => (mirrors_assign a).bind fun _ => mirrors_runProgram (p := next) hb hp
  | .report kind detail next, hp =>
      .bind (.report kind detail) fun _ => mirrors_runProgram (p := next) hb hp
  | .renderChildren next, hp => hb.bind fun text => mirrors_runProgram hb (hp text)

variable (hblind : env.toolkit.IsBlind)
include hblind

theorem mirrors_customRule (hb : Mirrors g id body body') :
    Mirrors g id (customRule env id body) (customRule env (g.across id) body') := by
  refine .node_bind fun n => ?_
  rw [Node.renumber_tag]
  cases h : Handler.find? env.toolkit.handlers n.tag with
  | none => exact hb
  | some p =>
      have hp := Handler.isBlind_of_find? hblind h
      cases p with
      | text p => exact mirrors_runProgram hb hp
      | action p => exact (mirrors_runProgram hb hp).bind fun _ => .pure _

theorem mirrors_ownText (hb : Mirrors g id body body') :
    Mirrors g id (ownText env id body) (ownText env (g.across id) body') := by
  refine .node_bind fun n => ?_
  rw [Node.renumber_kind, Node.renumber_text?]
  split
  · exact .pure _
  · refine .get_bind fun s t h hid => ?_
    rw [h.referenceText hid hblind.generator]
    exact .pure _
  · exact mirrors_conditional hb
  · exact (mirrors_whileTexts hb _).bind fun _ => .pure _
  · exact mirrors_eachLoop hb
  · exact mirrors_untilLoop hb _
  · exact mirrors_await hb
  · exact .pure _
  · exact hb

theorem mirrors_textRule (hb : Mirrors g id body body') (r : TextRule) :
    Mirrors g id (textRule env id body r) (textRule env (g.across id) body' r) := by
  cases r with
  | own => exact mirrors_ownText hblind hb
  | layout => exact mirrors_layout hb
  | slot => exact mirrors_slot hb
  | output => exact mirrors_output

variable (hlocal : ∀ p ∈ env.toolkit.preparers, p.IsLocal)
  {nested : Option (Nat → Rendering String)} (hn : NestedMirrors g nested)
include hlocal hn

theorem mirrors_actionRule (r : ActionRule) :
    Mirrors g id (actionRule env id nested r) (actionRule env (g.across id) nested r) := by
  cases r with
  | binding => exact mirrors_binding
  | expression => exact mirrors_expression
  | definition => exact mirrors_definition
  | invocation => exact mirrors_invocation hlocal hblind hn
  | inclusion => exact mirrors_inclusion hlocal hblind hn
  | moduleUse => exact mirrors_moduleUse hlocal hblind hn

theorem mirrors_rule (hb : Mirrors g id body body') (d : Dispatch) :
    Mirrors g id (rule env id body nested d) (rule env (g.across id) body' nested d) := by
  cases d with
  | render r => exact mirrors_textRule hblind hb r
  | execute r => exact (mirrors_actionRule hblind hlocal hn r).bind fun _ => .pure _
  | custom => exact mirrors_customRule hblind hb

theorem mirrors_nodeWith (hb : Mirrors g id body body') :
    Mirrors g id (nodeWith env id body nested) (nodeWith env (g.across id) body' nested) := by
  refine .node_bind fun n => .node_bind fun m => ?_
  rw [Node.renumber_kind, Node.renumber_kind]
  refine .report_if _ _ ((mirrors_rule hblind hlocal hn hb _).bind fun _ => ?_)
  exact .report_if _ _ (.pure _)

end rules

theorem mirrors_held {env : Environment} {g : Rift} {depth id : Nat}
    (h : ∀ c < id, Mirrors g c (renderNode env depth c) (renderNode env depth (g.across c))) :
    Mirrors g id (held (renderNode env depth) id) (held (renderNode env depth) (g.across id)) := by
  refine .node_bind fun n => ?_
  rw [Node.renumber_children]
  refine .bind (.mapM _ fun c _ => ?_) fun _ => .pure _
  by_cases hc : c < id
  · rw [if_pos hc, if_pos (g.across_lt_across.mpr hc)]
    exact (h c hc).mono (Nat.le_of_lt hc)
  · rw [if_neg hc, if_neg (mt g.across_lt_across.mp hc)]
    exact .pure _

/-- Rendering a node comes to the same on both sides of a rift. -/
theorem renderNode_mirrors {env : Environment}
    (hlocal : ∀ p ∈ env.toolkit.preparers, p.IsLocal) (hblind : env.toolkit.IsBlind) (g : Rift)
    (depth id : Nat) :
    Mirrors g id (renderNode env depth id) (renderNode env depth (g.across id)) := by
  refine depth_induction env.settings.maxDepth (P := fun depth id =>
    Mirrors g id (renderNode env depth id) (renderNode env depth (g.across id))) ?_ depth id
  intro depth id ihchild ihdeeper
  rw [renderNode_eq, renderNode_eq]
  refine mirrors_nodeWith hblind hlocal (fun render hr root => ?_) (mirrors_held ihchild)
  unfold deeper at hr
  split at hr
  · next hd =>
    cases hr
    exact ihdeeper hd root
  · cases hr

end Rendering

end TagTemplate
