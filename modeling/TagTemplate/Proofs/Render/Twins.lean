import TagTemplate.Proofs.Document.Coupling
import TagTemplate.Proofs.Render.Confinement

/-! # Twin renderings

Two renderings with everything known from the start can run side by side in coupled documents.  The
rules of the nodes never look at what a coupling leaves open: the numbers of nodes, their spans and
the layouts asked for.  So both come to the same text or to the same error, with the same variables
and macros, in documents that are coupled again.  An error of a text read on the way is an error of
a text that the coupling knows.

* `RenderState.Twin`: two states whose documents are coupled, with the same variables and macros.
* `Twins`: two steps that do the same in any two such states.
* `renderNode_twins`: rendering corresponding nodes is a pair of twins. -/

namespace TagTemplate

/-! ### Nodes that are there -/

/-- The document has nodes of these numbers and kinds. -/
def Document.Has (d : Document) (l : List (Nat × NodeKind)) : Prop :=
  ∀ p ∈ l, p.1 < d.size ∧ (d.node p.1).kind = p.2

namespace Document.Has

variable {d e : Document} {l : List (Nat × NodeKind)}

theorem nil (d : Document) : d.Has [] :=
  fun _ h => absurd h List.not_mem_nil

theorem cons {id : Nat} {k : NodeKind} (hid : id < d.size) (hk : (d.node id).kind = k)
    (h : d.Has l) : d.Has ((id, k) :: l) := by
  intro p hp
  rcases List.mem_cons.mp hp with rfl | hp
  · exact ⟨hid, hk⟩
  · exact h p hp

theorem grows (h : d.Has l) (hd : d.Grows e) : e.Has l := by
  intro p hp
  obtain ⟨hlt, hk⟩ := h p hp
  exact ⟨Nat.lt_of_lt_of_le hlt hd.size_le, (hd.kind hlt).trans hk⟩

end Document.Has

/-! ### Twin states -/

namespace RenderState

/-- Two states whose documents are coupled; their events do not matter. -/
structure Twin (c : Coupling) (s t : RenderState) : Prop where
  document : s.document.Coupled c t.document
  globals : t.globals = s.globals
  macros : t.macros = s.macros
  known {name : String} {m : MacroDefinition} (h : s.macros.get? name = some m) : c.known m.body

namespace Twin

variable {c : Coupling} {s t : RenderState}

theorem node (h : s.Twin c t) {i : Nat} (hi : c.linked i) :
    (s.node i).Coupled c s.document i (t.node (c.partner i)) :=
  h.document.node hi

theorem report (h : s.Twin c t) (id : Nat) (kind : EventKind) (detail : String) :
    (s.report id kind detail).Twin c (t.report (c.partner id) kind detail) := by
  constructor <;> simp only [report_document, report_globals, report_macros]
  · exact h.document
  · exact h.globals
  · exact h.macros
  · exact h.known

theorem events (h : s.Twin c t) (es fs : Array Event) :
    Twin c { s with events := es } { t with events := fs } :=
  ⟨h.document, h.globals, h.macros, h.known⟩

theorem updateScope (h : s.Twin c t) {id : Nat} (hl : c.linked id) (f : Scope → Scope) :
    Twin c { s with document := s.document.update id fun n => { n with scope := f n.scope } }
      { t with
        document := t.document.update (c.partner id) fun n => { n with scope := f n.scope } } :=
  ⟨h.document.update_stays hl ⟨rfl, rfl⟩ ⟨rfl, rfl⟩ ((h.node hl).updateScope f), h.globals,
    h.macros, h.known⟩

theorem setScope (h : s.Twin c t) {id : Nat} (hl : c.linked id) (scope : Scope) :
    (s.setScope id scope).Twin c (t.setScope (c.partner id) scope) :=
  h.updateScope hl fun _ => scope

theorem bind (h : s.Twin c t) {id : Nat} (hl : c.linked id) (name : String) (value : Value) :
    (s.bind id name value).Twin c (t.bind (c.partner id) name value) :=
  h.updateScope hl fun scope => scope.insert name value

theorem linked_target (h : s.Twin c t) {id : Nat} (hl : c.linked id) : c.linked (s.target id) := by
  unfold RenderState.target
  cases hp : (s.node id).parent with
  | none => exact hl
  | some p => exact (h.node hl).linked hp

theorem target (h : s.Twin c t) {id : Nat} (hl : c.linked id) :
    t.target (c.partner id) = c.partner (s.target id) := by
  unfold RenderState.target
  rw [(h.node hl).parent]
  cases (s.node id).parent <;> rfl

theorem assign (h : s.Twin c t) {id : Nat} (hl : c.linked id) (a : Assignment) :
    (s.assign id a).Twin c (t.assign (c.partner id) a) := by
  cases ha : a.global with
  | true =>
      rw [assign_of_global ha, assign_of_global ha, h.globals]
      exact ⟨h.document, rfl, h.macros, h.known⟩
  | false =>
      rw [assign_of_local ha, assign_of_local ha, h.target hl]
      exact h.bind (h.linked_target hl) a.name a.value

theorem grow (h : s.Twin c t) {ns ms : List Node}
    (hd : (s.document.append ns).Coupled c (t.document.append ms)) :
    (s.grow ns).Twin c (t.grow ms) :=
  ⟨hd, h.globals, h.macros, h.known⟩

/-! What is seen from a node. -/

section seen
variable (h : s.Twin c t) {id : Nat} (hl : c.linked id) (hid : id < s.document.size)
include h hl hid

theorem lookup? (name : String) : t.lookup? (c.partner id) name = s.lookup? id name := by
  unfold RenderState.lookup?
  rw [h.document.lookup? hl hid, h.globals]

theorem attributeValue (v : AttrValue) :
    t.attributeValue (c.partner id) v = s.attributeValue id v := by
  unfold RenderState.attributeValue
  simp only [h.lookup? hl hid]

theorem arguments : t.arguments (c.partner id) = s.arguments id := by
  unfold RenderState.arguments
  rw [(h.node hl).attributes]
  simp only [h.attributeValue hl hid]

theorem condition : t.condition (c.partner id) = s.condition id := by
  unfold RenderState.condition
  simp only [(h.node hl).attributes, h.lookup? hl hid, h.attributeValue hl hid]

theorem loopEntries : t.loopEntries (c.partner id) = s.loopEntries id := by
  unfold RenderState.loopEntries
  simp only [(h.node hl).attributes, h.lookup? hl hid]

theorem referenceText :
    t.referenceText Generator.builtins (c.partner id) = s.referenceText Generator.builtins id := by
  have hn := h.node hl
  have hgenerator {name : String} {f : Generator} (hf : Generator.builtins.get? name = some f) :
      f (t.node (c.partner id)) = f (s.node id) := by
    rcases Generator.eq_of_builtins hf with rfl | rfl
    · simp only [Generator.lorem, hn.attributes]
    · simp only [Generator.placeholder, hn.attributes, hn.tag]
  unfold RenderState.referenceText
  simp only [hn.attributes, h.lookup? hl hid]
  split
  · rfl
  · split
    · rfl
    · split
      · rfl
      · cases hf : ((s.node id).attributes.text? "generator").bind Generator.builtins.get? with
        | none => rfl
        | some f =>
            obtain ⟨name, _, hname⟩ := Option.bind_eq_some_iff.mp hf
            exact hgenerator hname

theorem linked_nearestContainer? {root : Nat}
    (hroot : s.document.nearestContainer? id = some root) : c.linked root :=
  h.document.linked_ancestors hl hid root (List.mem_of_find?_eq_some hroot)

theorem container?_cases :
    (s.container? id = none ∧ t.container? (c.partner id) = none) ∨
      ∃ root a b, s.container? id = some (root, a) ∧
        t.container? (c.partner id) = some (c.partner root, b) ∧ c.linked root ∧
        (s.node root).container = some a ∧ (t.node (c.partner root)).container = some b ∧
        c.Containers s.document root a b := by
  have hlinked {root : Nat} (hroot : s.document.nearestContainer? id = some root) :
      c.linked root := h.linked_nearestContainer? hl hid hroot
  unfold RenderState.container?
  rw [h.document.nearestContainer? hl hid]
  cases hroot : s.document.nearestContainer? id with
  | none => exact .inl ⟨rfl, rfl⟩
  | some root =>
      have hc := (h.node (hlinked hroot)).container
      simp only [Option.map_some, Option.bind_some]
      cases ha : (s.node root).container with
      | none =>
          cases hb : (t.node (c.partner root)).container with
          | none => exact .inl ⟨rfl, rfl⟩
          | some b => rw [ha, hb] at hc; cases hc
      | some a =>
          cases hb : (t.node (c.partner root)).container with
          | none => rw [ha, hb] at hc; cases hc
          | some b =>
              rw [ha, hb] at hc
              cases hc with
              | some hab => exact .inr ⟨root, a, b, rfl, rfl, hlinked hroot, ha, hb, hab⟩

theorem slots : (t.container? (c.partner id)).elim (∅ : NameMap String) (·.2.slots)
    = (s.container? id).elim ∅ (·.2.slots) := by
  rcases h.container?_cases hl hid with ⟨hs, ht⟩ | ⟨root, a, b, hs, ht, _, _, _, hab⟩
  · simp only [hs, ht, Option.elim_none]
  · simp only [hs, ht, Option.elim_some, hab.slots]

theorem updateContainer {f f' : Container → Container}
    (hf : ∀ i a b, c.Containers s.document i a b → c.Containers s.document i (f a) (f' b)) :
    (s.updateContainer id f).Twin c (t.updateContainer (c.partner id) f') := by
  unfold RenderState.updateContainer
  rcases h.container?_cases hl hid with ⟨hs, ht⟩ | ⟨root, a, b, hs, ht, hroot, ha, hb, hab⟩
  · rw [hs, ht]
    exact h
  · rw [hs, ht]
    refine ⟨h.document.update_stays hroot ⟨rfl, ?_⟩ ⟨rfl, ?_⟩ ?_, h.globals, h.macros, h.known⟩
    · exact (congrArg Option.isSome ha).symm
    · exact (congrArg Option.isSome hb).symm
    · exact (h.node hroot).setContainer (hf root a b hab)

end seen

end Twin

end RenderState

/-! ### Steps that are twins -/

/-- The coupling knows the texts that a rendering can read: all that can be loaded, and the macros
defined in texts it knows. -/
structure Coupling.Closed (c : Coupling) (env : Environment) : Prop where
  loaded {name source : String} {directories : List String}
    (h : env.loader name directories = .ok source) : c.known source
  defined {source : String} (h : c.known source) :
    ∀ text ∈ Part.definitionsAll (env.scanner.read source).parts, c.known text

namespace Rendering

/-- What two steps come to, the first of them from the state `s`: the same result, twin states, the
nodes still there, and the errors of a text only if it is a known one. -/
structure Paired {α : Type} (env : Environment) (c : Coupling) (s : RenderState)
    (a b : Except RenderError α × RenderState) : Prop where
  result : b.1 = a.1
  twin : a.2.Twin c b.2
  grows : s.document.Grows a.2.document
  known {errors : List ParseError} (h : a.1 = .error (.parse errors)) :
    ∃ source, c.known source ∧ (env.scanner.read source).errors = errors ∧ errors ≠ []

/-- From twin states, the first of which has the nodes of the list, both steps come to the same. -/
def Twins {α : Type} (env : Environment) (c : Coupling) (l : List (Nat × NodeKind))
    (x y : Rendering α) : Prop :=
  ∀ s t : RenderState, s.Twin c t → s.document.Has l → Paired env c s (x s) (y t)

namespace Twins

variable {α β : Type} {env : Environment} {c : Coupling} {l : List (Nat × NodeKind)}

theorem pure (a : α) : Twins env c l (pure a) (pure a) :=
  fun _ _ h _ => ⟨rfl, h, .refl _, fun h => by cases h⟩

theorem throw {e : RenderError} (he : ∀ errors, e ≠ .parse errors) :
    Twins env c l (throw e : Rendering α) (throw e) :=
  fun _ _ h _ => ⟨rfl, h, .refl _, fun h => absurd (Except.error.inj h) (he _)⟩

theorem weaken {l' : List (Nat × NodeKind)} {x y : Rendering α} (hl : ∀ p ∈ l', p ∈ l)
    (h : Twins env c l' x y) : Twins env c l x y :=
  fun s t hst hs => h s t hst fun p hp => hs p (hl p hp)

theorem bind_result {x y : Rendering α} {f f' : α → Rendering β} (hx : Twins env c l x y)
    (hf : ∀ a s, (x s).1 = .ok a → Twins env c l (f a) (f' a)) :
    Twins env c l (x >>= f) (y >>= f') := by
  intro s t h hs
  have hp := hx s t h hs
  rw [bind_apply, bind_apply]
  cases hxs : x s with
  | mk r s' =>
      cases hyt : y t with
      | mk r' t' =>
          rw [hxs, hyt] at hp
          obtain ⟨hr, hst, hgrows, hknown⟩ := hp
          cases hr
          cases r with
          | error e =>
              refine ⟨rfl, hst, hgrows, fun h => hknown ?_⟩
              exact congrArg Except.error (Except.error.inj h)
          | ok a =>
              have hnext := hf a s (congrArg Prod.fst hxs) s' t' hst (hs.grows hgrows)
              exact ⟨hnext.result, hnext.twin, hgrows.trans hnext.grows, hnext.known⟩

theorem bind {x y : Rendering α} {f f' : α → Rendering β} (hx : Twins env c l x y)
    (hf : ∀ a, Twins env c l (f a) (f' a)) : Twins env c l (x >>= f) (y >>= f') :=
  hx.bind_result fun a _ _ => hf a

theorem map {x y : Rendering α} (f : α → β) (hx : Twins env c l x y) :
    Twins env c l (f <$> x) (f <$> y) := by
  rw [← bind_pure_comp, ← bind_pure_comp]
  exact hx.bind fun a => .pure (f a)

theorem get_bind {f f' : RenderState → Rendering β}
    (hf : ∀ s t, s.Twin c t → s.document.Has l → Twins env c l (f s) (f' t)) :
    Twins env c l (get >>= f) (get >>= f') :=
  fun s t h hs => hf s t h hs s t h hs

theorem node_bind {id : Nat} {f f' : Node → Rendering β}
    (hf : ∀ s t : RenderState, s.Twin c t → s.document.Has l →
      Twins env c l (f (s.node id)) (f' (t.node (c.partner id)))) :
    Twins env c l (node id >>= f) (node (c.partner id) >>= f') :=
  fun s t h hs => hf s t h hs s t h hs

theorem modify {f f' : RenderState → RenderState}
    (hf : ∀ s t, s.Twin c t → s.document.Has l →
      (f s).Twin c (f' t) ∧ s.document.Grows (f s).document) :
    Twins env c l (modify f) (modify f') :=
  fun s t h hs => ⟨rfl, (hf s t h hs).1, (hf s t h hs).2, fun h => by cases h⟩

theorem ensuring {x y : Rendering α} {f f' : RenderState → RenderState} (hx : Twins env c l x y)
    (hf : ∀ s t, s.Twin c t → s.document.Has l →
      (f s).Twin c (f' t) ∧ s.document.Grows (f s).document) :
    Twins env c l (ensuring x f) (ensuring y f') := by
  intro s t h hs
  obtain ⟨hr, hst, hgrows, hknown⟩ := hx s t h hs
  obtain ⟨hst', hgrows'⟩ := hf _ _ hst (hs.grows hgrows)
  exact ⟨hr, hst', hgrows.trans hgrows', hknown⟩

theorem report (id : Nat) (kind : EventKind) (detail : String) :
    Twins env c l (report id kind detail) (report (c.partner id) kind detail) :=
  .modify fun s _ h _ =>
    ⟨h.report id kind detail, by rw [RenderState.report_document]; exact .refl _⟩

theorem report_if {p : Prop} [Decidable p] (id : Nat) (kind : EventKind) (detail : String)
    {f f' : Unit → Rendering α} (hf : Twins env c l (f ⟨⟩) (f' ⟨⟩)) :
    Twins env c l (if p then Rendering.report id kind detail >>= f else f ⟨⟩)
      (if p then Rendering.report (c.partner id) kind detail >>= f' else f' ⟨⟩) := by
  split
  · exact (report id kind detail).bind fun _ => hf
  · exact hf

theorem ite {p : Prop} [Decidable p] {x x' y y' : Rendering α} (hx : Twins env c l x x')
    (hy : Twins env c l y y') : Twins env c l (if p then x else y) (if p then x' else y') := by
  split
  · exact hx
  · exact hy

/-- A step for each of a list of numbers, and for their counterparts. -/
theorem mapM {f f' : Nat → Rendering β} (ids : List Nat)
    (hf : ∀ i ∈ ids, Twins env c l (f i) (f' (c.partner i))) :
    Twins env c l (ids.mapM f) ((ids.map c.partner).mapM f') := by
  induction ids with
  | nil => exact .pure _
  | cons i ids ih =>
      rw [List.map_cons, List.mapM_cons, List.mapM_cons]
      refine (hf i List.mem_cons_self).bind fun b => ?_
      exact (ih fun j hj => hf j (List.mem_cons_of_mem i hj)).bind fun bs => .pure _

theorem forM {γ : Type} {f f' : γ → Rendering Unit} (xs : List γ)
    (hf : ∀ a ∈ xs, Twins env c l (f a) (f' a)) :
    Twins env c l
      (forIn xs PUnit.unit fun a _ => do
        f a
        return ForInStep.yield PUnit.unit)
      (forIn xs PUnit.unit fun a _ => do
        f' a
        return ForInStep.yield PUnit.unit) := by
  induction xs with
  | nil => exact .pure _
  | cons a xs ih =>
      rw [List.forIn_cons, List.forIn_cons]
      refine ((hf a List.mem_cons_self).bind fun _ => .pure _).bind fun r => ?_
      cases r with
      | done b => exact .pure _
      | yield b => exact ih fun d hd => hf d (List.mem_cons_of_mem a hd)

end Twins

/-! ### The rules of a node -/

section rules
variable {env : Environment} {c : Coupling} {l : List (Nat × NodeKind)} {id : Nat} {k : NodeKind}
  {body body' : Rendering String}

theorem twins_assign (hl : c.linked id) (a : Assignment) :
    Twins env c l (modify fun s => s.assign id a) (modify fun s => s.assign (c.partner id) a) :=
  .modify fun s _ h _ => ⟨h.assign hl a, .of_stays (s.assign_stays id a)⟩

theorem twins_setScope (hl : c.linked id) (scope : Scope) :
    Twins env c l (modify fun s => s.setScope id scope)
      (modify fun s => s.setScope (c.partner id) scope) :=
  .modify fun _ _ h _ => ⟨h.setScope hl scope, .of_stays (.setScope _ _ _)⟩

theorem twins_bind (hl : c.linked id) (name : String) (value : Value) :
    Twins env c l (modify fun s => s.bind id name value)
      (modify fun s => s.bind (c.partner id) name value) :=
  .modify fun _ _ h _ => ⟨h.bind hl name value, .of_stays (.bind _ _ _ _)⟩

variable (hid : (id, k) ∈ l) (hw : c.whole id)

section body
variable (hb : Twins env c l body body')

include hid hw in
theorem twins_updateContainer {f f' : Container → Container}
    (hf : ∀ d i a b, d.Has l → c.Containers d i a b → c.Containers d i (f a) (f' b)) :
    Twins env c l (modify fun s => s.updateContainer id f)
      (modify fun s => s.updateContainer (c.partner id) f') :=
  .modify fun s _ h hs =>
    ⟨h.updateContainer (c.linked_of_whole hw) (hs _ hid).1 fun _ _ _ => hf _ _ _ _ hs,
      .of_stays (s.updateContainer_stays id f)⟩

include hb

include hid hw

theorem twins_conditional :
    Twins env c l (conditional id body) (conditional (c.partner id) body') := by
  refine .get_bind fun s t h hs => ?_
  rw [h.condition (c.linked_of_whole hw) (hs _ hid).1]
  exact .ite hb (.pure _)

theorem twins_whileTexts :
    ∀ limit, Twins env c l (whileTexts id body limit) (whileTexts (c.partner id) body' limit)
  | 0 => by
      refine .get_bind fun s t h hs => ?_
      rw [h.condition (c.linked_of_whole hw) (hs _ hid).1]
      exact .report_if _ _ _ (.pure _)
  | limit + 1 => by
      refine .get_bind fun s t h hs => ?_
      rw [h.condition (c.linked_of_whole hw) (hs _ hid).1]
      exact .ite (hb.bind fun _ => (twins_whileTexts limit).bind fun _ => .pure _) (.pure _)

omit hid in
theorem twins_eachTexts : ∀ (index : Nat) (entries : List LoopEntry),
    Twins env c l (eachTexts id body index entries) (eachTexts (c.partner id) body' index entries)
  | _, [] => .pure _
  | index, _ :: rest =>
      (twins_setScope (c.linked_of_whole hw) _).bind fun _ => hb.bind fun _ =>
        (twins_eachTexts (index + 1) rest).bind fun _ => .pure _

theorem twins_eachLoop : Twins env c l (eachLoop id body) (eachLoop (c.partner id) body') := by
  have hl := c.linked_of_whole hw
  refine .get_bind fun s t h hs => ?_
  have hglue : (t.node (c.partner id)).attributeText "glue" = (s.node id).attributeText "glue" := by
    rw [Node.attributeText, (h.node hl).attributes, Node.attributeText]
  dsimp only
  rw [h.loopEntries hl (hs _ hid).1, (h.node hl).scope, hglue]
  refine .bind (.ensuring (twins_eachTexts hw hb 0 _) fun u v hu _ => ?_) fun _ => .pure _
  exact ⟨hu.setScope hl _, .of_stays (.setScope _ _ _)⟩

omit hid in
theorem twins_attemptsFrom (accepts : Validator) :
    ∀ attempt count, Twins env c l (attemptsFrom id body accepts attempt count)
      (attemptsFrom (c.partner id) body' accepts attempt count)
  | _, 0 =>
      (twins_bind (c.linked_of_whole hw) _ _).bind fun _ => hb.bind fun _ =>
        .report_if _ _ _ (.pure _)
  | attempt, count + 1 =>
      (twins_bind (c.linked_of_whole hw) _ _).bind fun _ => hb.bind fun _ =>
        .ite (.pure _) (twins_attemptsFrom accepts (attempt + 1) count)

omit hid in
theorem twins_untilLoop (validators : NameMap Validator) :
    Twins env c l (untilLoop id body validators) (untilLoop (c.partner id) body' validators) := by
  refine .node_bind fun s t h _ => ?_
  have hn := h.node (c.linked_of_whole hw)
  have hcount : attemptCount (t.node (c.partner id)) = attemptCount (s.node id) := by
    rw [attemptCount, hn.attributes, attemptCount]
  rw [hn.attributes, hcount]
  split
  · exact twins_attemptsFrom hw hb _ 1 _
  · exact hb

omit hid in
theorem twins_await : Twins env c l (await id body) (await (c.partner id) body') := by
  refine .node_bind fun s t h _ => ?_
  rw [(h.node (c.linked_of_whole hw)).attributes]
  exact .bind (.report _ _ _) fun _ => .bind (.report _ _ _) fun _ =>
    hb.bind fun _ => .bind (.report _ _ _) fun _ => .pure _

theorem twins_layout (hk : k = .layout) :
    Twins env c l (layout id body) (layout (c.partner id) body') := by
  have hl := c.linked_of_whole hw
  -- a whole layout may ask for any layout, whatever the coupling says of the others
  have hask (name : String) (content : Option String) :
      Twins env c l
        (modify fun s => s.updateContainer id fun a =>
          { layout := some name, slots := content.elim a.slots (a.slots.insert contentSlot) })
        (modify fun s => s.updateContainer (c.partner id) fun a =>
          { layout := some name, slots := content.elim a.slots (a.slots.insert contentSlot) }) :=
    twins_updateContainer hid hw fun d i a b hd hab =>
      ⟨by rw [hab.slots], c.layouts_self hw ((hd _ hid).2.trans hk) hab.layouts _⟩
  refine .node_bind fun s t h _ => ?_
  have hempty : (t.node (c.partner id)).children.isEmpty = (s.node id).children.isEmpty := by
    rw [(h.node hl).children hw, List.isEmpty_map]
  rw [(h.node hl).attributes, hempty]
  split
  · split
    · exact .bind (.pure _) fun _ => (hask _ _).bind fun _ => .pure _
    · exact .bind (hb.map _) fun _ => (hask _ _).bind fun _ => .pure _
  · exact .pure _

theorem twins_slot : Twins env c l (slot id body) (slot (c.partner id) body') := by
  refine hb.bind fun text => .node_bind fun s t h _ => ?_
  rw [(h.node (c.linked_of_whole hw)).attributes]
  split
  · refine .bind (twins_updateContainer hid hw fun d i a b _ hab => ?_) fun _ => .pure _
    exact ⟨by rw [hab.slots], hab.layouts⟩
  · exact .pure _

end body

include hid hw

theorem twins_output : Twins env c l (output id) (output (c.partner id)) := by
  have hl := c.linked_of_whole hw
  refine .get_bind fun s t h hs => ?_
  dsimp only
  rw [h.slots hl (hs _ hid).1, (h.node hl).attributes]
  exact .pure _

theorem twins_bindPair (datatype : Option Datatype) (isGlobal : Bool) (key : String)
    (raw : AttrValue) :
    Twins env c l (bindPair id datatype isGlobal key raw)
      (bindPair (c.partner id) datatype isGlobal key raw) := by
  have hl := c.linked_of_whole hw
  refine .get_bind fun s t h hs => ?_
  rw [h.attributeValue hl (hs _ hid).1]
  exact .report_if _ _ _ (twins_assign hl _)

theorem twins_binding : Twins env c l (binding env id) (binding env (c.partner id)) := by
  refine .node_bind fun s t h _ => ?_
  rw [(h.node (c.linked_of_whole hw)).attributes]
  exact .bind (.forM _ fun _ _ => twins_bindPair hid hw _ _ _ _) fun _ => .pure _

omit hid in
theorem twins_carryOut (o : Outcome) :
    Twins env c l (carryOut id o) (carryOut (c.partner id) o) := by
  have hl := c.linked_of_whole hw
  have hfail {α : Type} (e : EvalError) :
      Twins env c l (throw (.evaluation e) : Rendering α) (throw (.evaluation e)) :=
    .throw fun _ h => by cases h
  obtain ⟨result, events, assignment⟩ := o
  refine .bind (.forM _ fun _ _ => .report _ _ _) fun _ => ?_
  cases result with
  | ok _ =>
      cases assignment with
      | none => exact .pure _
      | some a => exact (twins_assign hl a).bind fun _ => .pure _
  | error _ =>
      cases assignment with
      | none => exact hfail _
      | some a => exact (twins_assign hl a).bind fun _ => hfail _

theorem twins_expression : Twins env c l (expression env id) (expression env (c.partner id)) := by
  have hl := c.linked_of_whole hw
  refine .get_bind fun s t h hs => ?_
  dsimp only
  rw [(h.node hl).attributes, funext (h.lookup? hl (hs _ hid).1)]
  exact (twins_carryOut hw _).bind fun _ => .pure _

theorem twins_definition (hk : k = .definition) :
    Twins env c l (definition id) (definition (c.partner id)) := by
  have hl := c.linked_of_whole hw
  refine .node_bind fun s t h hs => ?_
  have hn := h.node hl
  rw [hn.attributes, hn.text?]
  split
  · next name _ =>
    refine .bind (.modify fun u v hu _ => ⟨?_, .refl _⟩) fun _ => .pure _
    rw [hu.macros]
    refine ⟨hu.document, hu.globals, rfl, fun {name'} m hm => ?_⟩
    rw [NameMap.get?_insert] at hm
    split at hm
    · cases hm
      exact hn.known ((hs _ hid).2.trans hk)
    · exact hu.known hm
  · exact .pure _

omit hid hw in
theorem twins_tooDeep : Twins env c l (tooDeep id) (tooDeep (c.partner id)) :=
  .bind (.report _ _ _) fun _ => .pure _

omit hid hw in
theorem isLocal_of_builtin (henv : env.toolkit = .builtin) :
    ∀ p ∈ env.toolkit.preparers, p.IsLocal := by
  rw [henv]
  exact fun _ hp => Preparer.isLocal_of_mem_builtins hp

section nested
variable (henv : env.toolkit = .builtin) (hclosed : c.Closed env)
include henv hclosed

omit hid hw in
/-- A known text is built in both documents, or has the same errors in both. -/
theorem build_twin {s t : RenderState} (h : s.Twin c t) (parent : Option Nat)
    (hp : ∀ p, parent = some p → c.linked p ∧ p < s.document.size) {source : String}
    (hsource : c.known source) (inherited : Scope) (paths : SearchPaths) :
    (∃ root u v, build env source parent inherited paths s = (.ok root, u) ∧
      build env source (parent.map c.partner) inherited paths t = (.ok (c.partner root), v) ∧
      c.base ≤ root ∧ u.Twin c v ∧ Built s parent root u ∧
      Built t (parent.map c.partner) (c.partner root) v) ∨
    ∃ u v, build env source parent inherited paths s =
        (.error (.parse (env.scanner.read source).errors), u) ∧
      build env source (parent.map c.partner) inherited paths t =
        (.error (.parse (env.scanner.read source).errors), v) ∧
      (env.scanner.read source).errors ≠ [] ∧ u.Twin c v ∧ s.document.Grows u.document := by
  have hlocal := isLocal_of_builtin henv
  have hlt : ∀ p, parent = some p → p < s.document.size := fun p hq => (hp p hq).2
  have hlt' : ∀ p, parent.map c.partner = some p → p < t.document.size := by
    intro p hmap
    obtain ⟨q, hq, rfl⟩ := Option.map_eq_some_iff.mp hmap
    exact h.document.partner_lt (hp q hq).1 (hlt q hq)
  have hdefined := hclosed.defined hsource
  have hbuild := build_eq env source parent inherited paths s
  have hbuild' := build_eq env source (parent.map c.partner) inherited paths t
  by_cases herrors : (env.scanner.read source).errors = []
  · rw [if_pos herrors] at hbuild hbuild'
    rw [← h.document.partner_size] at hbuild'
    have hbuilt := built_of_build hlocal h.document.sound hlt hbuild
    have hbuilt' := built_of_build hlocal h.document.sound' hlt' hbuild'
    have hpreparers : env.toolkit.preparers = Preparer.builtins := by rw [henv]; rfl
    rw [hpreparers] at hbuild hbuild' hbuilt hbuilt'
    have hcoupled := h.document.append_fragment (fun p hq => (hp p hq).1) hdefined rfl rfl
      hbuilt.sound hbuilt'.sound
    exact .inl ⟨_, _, _, hbuild, hbuild', Nat.le_trans h.document.base_le (Nat.le_add_right _ _),
      h.grow hcoupled, hbuilt, hbuilt'⟩
  · rw [if_neg herrors] at hbuild hbuild'
    have hcoupled := h.document.append_untouched hdefined
      (build_sound hlocal h.document.sound hlt hbuild)
      (build_sound hlocal h.document.sound' hlt' hbuild')
    exact .inr ⟨_, _, hbuild, hbuild', herrors, h.grow hcoupled, .of_stays (.append _ _)⟩

omit hid hw in
/-- A known text is built in both documents, and the step goes on with the root. -/
theorem twins_build {α : Type} (parent : Option Nat)
    (hp : ∀ p, parent = some p → c.linked p ∧ ∃ k, (p, k) ∈ l) {source : String}
    (hsource : c.known source) (inherited : Scope) (paths : SearchPaths)
    {f f' : Nat → Rendering α}
    (hf : ∀ root, c.base ≤ root → Twins env c ((root, .root) :: l) (f root) (f' (c.partner root))) :
    Twins env c l (build env source parent inherited paths >>= f)
      (build env source (parent.map c.partner) inherited paths >>= f') := by
  intro s t h hs
  have hlt : ∀ p, parent = some p → c.linked p ∧ p < s.document.size := by
    intro p hq
    obtain ⟨hl, k, hk⟩ := hp p hq
    exact ⟨hl, (hs _ hk).1⟩
  rcases build_twin henv hclosed h parent hlt hsource inherited paths with
    ⟨root, u, v, hu, hv, hroot, huv, hbuilt, _⟩ | ⟨u, v, hu, hv, herrors, huv, hgrows⟩
  · have hgrows := Document.Grows.of_stays hbuilt.stays
    have hnext := hf root hroot u v huv ((hs.grows hgrows).cons hbuilt.root_lt hbuilt.kind)
    rw [bind_of_ok hu, bind_of_ok hv]
    exact ⟨hnext.result, hnext.twin, hgrows.trans hnext.grows, hnext.known⟩
  · rw [bind_of_error hu, bind_of_error hv]
    refine ⟨rfl, huv, hgrows, fun herr => ?_⟩
    cases herr
    exact ⟨source, hsource, rfl, herrors⟩

/-- Rendering nodes one level deeper is a pair of twins. -/
def NestedTwins (env : Environment) (c : Coupling) (nested : Option (Nat → Rendering String)) :
    Prop :=
  ∀ render, nested = some render → ∀ root, c.base ≤ root →
    Twins env c [(root, .root)] (render root) (render (c.partner root))

variable {nested : Option (Nat → Rendering String)} (hn : NestedTwins env c nested)
include hn

theorem twins_renderSource {source : String} (hsource : c.known source) (bindings : Scope)
    (paths : SearchPaths) :
    Twins env c l (renderSource env id nested source bindings paths)
      (renderSource env (c.partner id) nested source bindings paths) := by
  unfold renderSource
  split
  · exact twins_tooDeep
  · next render =>
    refine twins_build henv hclosed (some id)
      (fun p hp => by cases hp; exact ⟨c.linked_of_whole hw, k, hid⟩) hsource bindings paths
      fun root hroot => ?_
    exact ((hn render rfl root hroot).weaken (by simp)).bind fun _ => .pure _

theorem twins_invocation :
    Twins env c l (invocation env id nested) (invocation env (c.partner id) nested) := by
  have hl := c.linked_of_whole hw
  refine .get_bind fun s t h hs => ?_
  dsimp only
  rw [h.macros, h.arguments hl (hs _ hid).1, (h.node hl).givenName, (h.node hl).paths]
  split
  · next hm => exact twins_renderSource hid hw henv hclosed hn (h.known hm) _ _
  · exact .bind (.report _ _ _) fun _ => .pure _

omit hid henv hclosed hn in
theorem twins_loadFor (root : String) :
    Twins env c l (loadFor env id root) (loadFor env (c.partner id) root) := by
  refine .node_bind fun s t h _ => ?_
  have hn := h.node (c.linked_of_whole hw)
  rw [hn.givenName, hn.paths]
  split
  · exact .pure _
  · split
    · exact .bind (.throw fun _ h => by cases h) fun _ => .bind (.report _ _ _) fun _ => .pure _
    · exact .bind (.report _ _ _) fun _ => .pure _

omit hid hw henv hn in
theorem known_of_loadFor {root source : String} {s : RenderState}
    (h : (loadFor env id root s).1 = .ok (some source)) : c.known source := by
  rw [loadFor, bind_of_ok (node_apply id s)] at h
  cases hload : env.loader (s.node id).givenName ((s.node id).paths.directories root) with
  | ok loaded =>
      rw [hload] at h
      cases h
      exact hclosed.loaded hload
  | error e =>
      rw [hload] at h
      dsimp only at h
      split at h
      · cases h
      · cases h

theorem twins_inclusion :
    Twins env c l (inclusion env id nested) (inclusion env (c.partner id) nested) := by
  have hl := c.linked_of_whole hw
  refine (twins_loadFor hw _).bind_result fun r u hr => ?_
  split
  · exact .pure _
  · refine .get_bind fun s t h hs => ?_
    rw [h.arguments hl (hs _ hid).1, (h.node hl).paths]
    exact twins_renderSource hid hw henv hclosed hn (known_of_loadFor hclosed hr) _ _

omit hid in
theorem twins_moduleUse :
    Twins env c l (moduleUse env id nested) (moduleUse env (c.partner id) nested) := by
  have hl := c.linked_of_whole hw
  refine (twins_loadFor hw _).bind_result fun r u hr => ?_
  split
  · exact .pure _
  · split
    · exact twins_tooDeep
    · next render =>
      refine .node_bind fun s t h _ => ?_
      rw [(h.node hl).paths]
      refine twins_build henv hclosed none (fun p hp => by cases hp)
        (known_of_loadFor hclosed hr) _ _ fun root hroot => ?_
      refine ((hn render rfl root hroot).weaken (by simp)).bind fun _ => ?_
      refine .bind (.modify fun u v hu _ => ⟨?_, .of_stays (.setScope _ _ _)⟩) fun _ => .pure _
      have htarget := hu.linked_target hl
      dsimp only
      rw [hu.target hl, (hu.node htarget).scope, (hu.node (c.linked_of_le hroot)).scope]
      exact hu.setScope htarget _

end nested

section dispatch
variable (henv : env.toolkit = .builtin) (hb : Twins env c l body body')
include henv hb

theorem twins_ownText : Twins env c l (ownText env id body) (ownText env (c.partner id) body') := by
  have hl := c.linked_of_whole hw
  refine .node_bind fun s t h _ => ?_
  rw [(h.node hl).kind, (h.node hl).text?, henv]
  split
  · exact .pure _
  · refine .get_bind fun s t h hs => ?_
    have htext : t.referenceText Toolkit.builtin.generators (c.partner id)
        = s.referenceText Toolkit.builtin.generators id := h.referenceText hl (hs _ hid).1
    rw [htext]
    exact .pure _
  · exact twins_conditional hid hw hb
  · exact (twins_whileTexts hid hw hb _).bind fun _ => .pure _
  · exact twins_eachLoop hid hw hb
  · exact twins_untilLoop hw hb _
  · exact twins_await hw hb
  · exact .pure _
  · exact hb

theorem twins_textRule (r : TextRule) (hr : k.dispatch = .render r) :
    Twins env c l (textRule env id body r) (textRule env (c.partner id) body' r) := by
  cases r with
  | own => exact twins_ownText hid hw henv hb
  | layout => exact twins_layout hid hw hb (NodeKind.eq_of_layout hr)
  | slot => exact twins_slot hid hw hb
  | output => exact twins_output hid hw

omit hid hw in
theorem twins_customRule :
    Twins env c l (customRule env id body) (customRule env (c.partner id) body') := by
  refine .node_bind fun s t h _ => ?_
  rw [henv]
  exact hb

variable (hclosed : c.Closed env) {nested : Option (Nat → Rendering String)}
  (hn : NestedTwins env c nested)
include hclosed hn

omit hb in
theorem twins_actionRule (r : ActionRule) (hr : k.dispatch = .execute r) :
    Twins env c l (actionRule env id nested r) (actionRule env (c.partner id) nested r) := by
  cases r with
  | binding => exact twins_binding hid hw
  | expression => exact twins_expression hid hw
  | definition => exact twins_definition hid hw (NodeKind.eq_of_execute hr)
  | invocation => exact twins_invocation hid hw henv hclosed hn
  | inclusion => exact twins_inclusion hid hw henv hclosed hn
  | moduleUse => exact twins_moduleUse hw henv hclosed hn

theorem twins_rule :
    Twins env c l (rule env id body nested k.dispatch)
      (rule env (c.partner id) body' nested k.dispatch) := by
  cases hr : k.dispatch with
  | render r => exact twins_textRule hid hw henv hb r hr
  | execute r => exact (twins_actionRule hid hw henv hclosed hn r hr).bind fun _ => .pure _
  | custom => exact twins_customRule henv hb

theorem twins_nodeWith :
    Twins env c l (nodeWith env id body nested) (nodeWith env (c.partner id) body' nested) := by
  have hl := c.linked_of_whole hw
  refine .node_bind fun s t h hs => .node_bind fun u v hu hsu => ?_
  rw [(h.node hl).kind, (hu.node hl).kind, show (s.node id).kind = k from (hs _ hid).2]
  refine .report_if _ _ _ ((twins_rule hid hw henv hb hclosed hn).bind fun _ => ?_)
  exact .report_if _ _ _ (.pure _)

end dispatch

end rules

/-! ### Nodes -/

variable {env : Environment} {c : Coupling}

/-- Two nodes are rendered alike, whatever their kind. -/
def NodesTwin (env : Environment) (c : Coupling) (depth id : Nat) : Prop :=
  ∀ k, c.whole id →
    Twins env c [(id, k)] (renderNode env depth id) (renderNode env depth (c.partner id))

theorem twins_held {l : List (Nat × NodeKind)} {depth id : Nat} (hw : c.whole id)
    (h : ∀ i < id, NodesTwin env c depth i) (hid : ∃ k, (id, k) ∈ l) :
    Twins env c l (held (renderNode env depth) id)
      (held (renderNode env depth) (c.partner id)) := by
  intro s t hst hs
  have hn := hst.node (c.linked_of_whole hw)
  -- the nodes held are there now, and so they will be when their turn comes
  let held := (s.node id).children.map fun i => (i, (s.node i).kind)
  have hlt : ∀ i ∈ (s.node id).children, i < id := fun i hi => hst.document.sound.child_lt hi
  have hlt' : ∀ i ∈ (s.node id).children, c.partner i < c.partner id := by
    intro i hi
    refine hst.document.sound'.child_lt ?_
    have hmem := List.mem_map_of_mem (f := c.partner) hi
    rwa [← hn.children hw] at hmem
  have hhas : s.document.Has held := by
    intro p hp
    obtain ⟨i, hi, rfl⟩ := List.mem_map.mp hp
    obtain ⟨k, hk⟩ := hid
    exact ⟨Nat.lt_trans (hlt i hi) (hs _ hk).1, rfl⟩
  have hall : Twins env c held
      (sequence (fun i => if i < id then renderNode env depth i else pure "")
        (s.node id).children)
      (sequence (fun i => if i < c.partner id then renderNode env depth i else pure "")
        (t.node (c.partner id)).children) := by
    rw [hn.children hw]
    refine .bind (.mapM _ fun i hi => ?_) fun _ => .pure _
    rw [if_pos (hlt i hi), if_pos (hlt' i hi)]
    refine (h i (hlt i hi) (s.node i).kind (hn.whole hw hi)).weaken fun p hp => ?_
    rw [List.mem_singleton.mp hp]
    exact List.mem_map_of_mem hi
  exact hall s t hst hhas

/-- Corresponding nodes are rendered alike. -/
theorem renderNode_twins (henv : env.toolkit = .builtin) (hclosed : c.Closed env)
    (depth id : Nat) : NodesTwin env c depth id := by
  refine depth_induction env.settings.maxDepth (P := NodesTwin env c) ?_ depth id
  intro depth id ihchild ihdeeper k hw
  rw [renderNode_eq, renderNode_eq]
  have hid : (id, k) ∈ [(id, k)] := List.mem_singleton_self _
  refine twins_nodeWith hid hw henv (twins_held hw ihchild ⟨k, hid⟩) hclosed
    fun render hr root hroot => ?_
  unfold deeper at hr
  split at hr
  · next hd =>
    cases hr
    exact ihdeeper hd root .root (c.whole_of_le hroot)
  · cases hr

end Rendering

end TagTemplate
