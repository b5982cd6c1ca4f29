import Mathlib.Data.List.Find
import TagTemplate.Proofs.Document.Tree
import TagTemplate.Render.Page

/-! # Steps of a rendering

A step of a rendering is a function of the state.  The equations here run one: a sequence of two
steps runs the second only if the first succeeds, and keeps the state of a failure.

* `build_eq`: building a fragment appends its nodes, and changes nothing else.
* `Node.Stays`: what never changes in a node while a document is rendered. -/

namespace TagTemplate

/-! ### The kinds of a rule -/

def ActionRule.kind : ActionRule → NodeKind
  | binding => .binding
  | expression => .expression
  | definition => .definition
  | invocation => .invocation
  | inclusion => .inclusion
  | moduleUse => .moduleUse

namespace NodeKind

variable {k : NodeKind}

theorem eq_of_execute {r : ActionRule} (h : k.dispatch = .execute r) : k = r.kind := by
  cases k <;> cases h <;> rfl

theorem eq_of_layout (h : k.dispatch = .render .layout) : k = .layout := by
  cases k <;> first | rfl | cases h

theorem eq_of_slot (h : k.dispatch = .render .slot) : k = .slot := by
  cases k <;> first | rfl | cases h

theorem eq_of_custom (h : k.dispatch = .custom) : k = .custom := by
  cases k <;> first | rfl | cases h

end NodeKind

/-- The state with more nodes at the end of its document. -/
def RenderState.grow (s : RenderState) (ns : List Node) : RenderState :=
  { s with document := s.document.append ns }

/-! ### Running steps -/

namespace Rendering

section running
variable {α β : Type} {s t : RenderState}

@[simp] theorem pure_apply (a : α) (s : RenderState) : (pure a : Rendering α) s = (.ok a, s) :=
  rfl

@[simp] theorem get_apply (s : RenderState) : (get : Rendering RenderState) s = (.ok s, s) :=
  rfl

@[simp] theorem modify_apply (f : RenderState → RenderState) (s : RenderState) :
    (modify f : Rendering Unit) s = (.ok ⟨⟩, f s) :=
  rfl

@[simp] theorem throw_apply (e : RenderError) (s : RenderState) :
    (throw e : Rendering α) s = (.error e, s) :=
  rfl

@[simp] theorem node_apply (id : Nat) (s : RenderState) : node id s = (.ok (s.node id), s) :=
  rfl

@[simp] theorem report_apply (id : Nat) (kind : EventKind) (detail : String) (s : RenderState) :
    report id kind detail s = (.ok ⟨⟩, s.report id kind detail) :=
  rfl

theorem bind_apply (x : Rendering α) (f : α → Rendering β) (s : RenderState) :
    (x >>= f) s = match x s with
      | (.ok a, t) => f a t
      | (.error e, t) => (.error e, t) := by
  simp only [bind, ExceptT.bind, ExceptT.mk, StateT.bind]
  cases x s with
  | mk r t => cases r <;> rfl

theorem bind_of_ok {x : Rendering α} {f : α → Rendering β} {a : α} (h : x s = (.ok a, t)) :
    (x >>= f) s = f a t := by
  rw [bind_apply, h]

theorem bind_of_error {x : Rendering α} {f : α → Rendering β} {e : RenderError}
    (h : x s = (.error e, t)) : (x >>= f) s = (.error e, t) := by
  rw [bind_apply, h]

theorem fst_bind_of_error {x : Rendering α} {f : α → Rendering β} {e : RenderError}
    (h : (x s).1 = .error e) : ((x >>= f) s).1 = .error e :=
  congrArg Prod.fst (bind_of_error (Prod.ext h rfl))

theorem snd_bind {x : Rendering α} {f : α → Rendering β} (hf : ∀ a t, (f a t).2 = t) :
    ((x >>= f) s).2 = (x s).2 := by
  rw [bind_apply]
  cases x s with
  | mk r t =>
      cases r with
      | ok a => exact hf a t
      | error e => rfl

@[simp] theorem map_apply (f : α → β) (x : Rendering α) (s : RenderState) :
    (f <$> x) s = ((x s).1.map f, (x s).2) := by
  rw [← bind_pure_comp, bind_apply]
  cases x s with
  | mk r t => cases r <;> rfl

theorem ensuring_apply (x : Rendering α) (f : RenderState → RenderState) (s : RenderState) :
    ensuring x f s = ((x s).1, f (x s).2) :=
  rfl

end running

/-- A property of all nodes at all depths: rendering a node relies on the nodes before it, and on
all nodes one level deeper. -/
theorem depth_induction (limit : Nat) {P : Nat → Nat → Prop}
    (step : ∀ depth id, (∀ c < id, P depth c) → (depth < limit → ∀ root, P (depth + 1) root) →
      P depth id) (depth id : Nat) : P depth id :=
  step depth id (fun c _ => depth_induction limit step depth c)
    fun _ root => depth_induction limit step (depth + 1) root
termination_by (limit - depth, id)

/-! ### Rendering a node -/

/-- What a node holds, rendered; it holds nodes that came before it. -/
def held (render : Nat → Rendering String) (id : Nat) : Rendering String := do
  let n ← node id
  sequence (fun child => if child < id then render child else pure "") n.children

/-- The rendering of nodes one level deeper, if there is one. -/
def deeper (env : Environment) (depth : Nat) : Option (Nat → Rendering String) :=
  if depth < env.settings.maxDepth then some (renderNode env (depth + 1)) else none

theorem renderNode_eq (env : Environment) (depth id : Nat) :
    renderNode env depth id = nodeWith env id (held (renderNode env depth) id) (deeper env depth) := by
  rw [renderNode]
  rfl

/-- A node that has a lifecycle reports its start, and if it succeeds, its end. -/
theorem withLifecycle_apply {id : Nat} {s : RenderState} (x : Rendering String)
    (h : hasLifecycle (s.node id).kind = true) :
    withLifecycle id x s =
      (x >>= fun text => do report id .complete ""; return text) (s.report id .started "") := by
  rw [withLifecycle, bind_of_ok (node_apply id s), if_pos h,
    bind_of_ok (report_apply id .started "" s)]
  simp only [if_pos h]

theorem withLifecycle_of_not {id : Nat} {s : RenderState} (x : Rendering String)
    (h : hasLifecycle (s.node id).kind = false) : withLifecycle id x s = x s := by
  have hnot : ¬ hasLifecycle (s.node id).kind = true := by simp [h]
  rw [withLifecycle, bind_of_ok (node_apply id s), if_neg hnot]
  simp only [if_neg hnot]
  rw [bind_apply]
  cases x s with
  | mk r t => cases r <;> rfl

theorem held_congr {render render' : Nat → Rendering String} {id : Nat}
    (h : ∀ c < id, render c = render' c) : held render id = held render' id := by
  have hchild : (fun c => if c < id then render c else pure "")
      = fun c => if c < id then render' c else pure "" := by
    funext c
    split
    · next hc => exact h c hc
    · rfl
  rw [held, hchild, held]

/-- The rendering of the nodes before a number.  It goes down step by step, so that it can be
computed. -/
def renderBefore (env : Environment) (depth : Nat) : Nat → Nat → Rendering String
  | 0, _ => pure ""
  | bound + 1, id => nodeWith env id (held (renderBefore env depth bound) id) (deeper env depth)

theorem renderNode_eq_before (env : Environment) (depth : Nat) :
    ∀ {bound id : Nat}, id < bound → renderNode env depth id = renderBefore env depth bound id
  | 0, _, h => absurd h (Nat.not_lt_zero _)
  | bound + 1, id, h => by
      have hheld : held (renderNode env depth) id = held (renderBefore env depth bound) id :=
        held_congr fun c hc => renderNode_eq_before env depth (by omega)
      rw [renderNode_eq, hheld, renderBefore]

/-! ### Building fragments -/

open TagTemplate.Part

/-- The root of a fragment comes after its other nodes, which come after all nodes so far. -/
theorem build_eq (env : Environment) (source : String) (parent : Option Nat) (inherited : Scope)
    (paths : SearchPaths) (s : RenderState) :
    build env source parent inherited paths s =
      if (env.scanner.read source).errors = [] then
        (.ok (s.document.size + countAll (env.scanner.read source).parts),
          s.grow (fragment (Node.prepared env.toolkit.preparers
              ⟨parent, inherited, paths, env.settings.bubble⟩)
            s.document.size parent (env.scanner.read source).parts ⟨0, source.utf8ByteSize⟩))
      else
        (.error (.parse (env.scanner.read source).errors),
          s.grow (runAll Document.untouched s.document.size none
            (env.scanner.read source).parts)) := by
  by_cases h : (env.scanner.read source).errors = []
  · rw [if_pos h, build, s.document.readFragment_of_no_errors parent h]
    simp only [Document.prepare_fragment _ _
      ⟨parent, inherited, paths, env.settings.bubble⟩, RenderState.grow]
  · rw [if_neg h, build, s.document.readFragment_of_errors h]
    rfl

end Rendering

/-! ### What stays of a node -/

namespace Node

/-- The second node is the first one with other variables, and with another container if it has
one. -/
structure Stays (n m : Node) : Prop where
  eq : m = { n with scope := m.scope, container := m.container }
  container : m.container.isSome = n.container.isSome

namespace Stays

variable {n m k : Node}

theorem refl (n : Node) : n.Stays n :=
  ⟨rfl, rfl⟩

theorem trans (h : n.Stays m) (h' : m.Stays k) : n.Stays k := by
  refine ⟨?_, h'.container.trans h.container⟩
  rw [h'.eq, h.eq]

theorem kind (h : n.Stays m) : m.kind = n.kind := by rw [h.eq]

theorem tag (h : n.Stays m) : m.tag = n.tag := by rw [h.eq]

theorem attributes (h : n.Stays m) : m.attributes = n.attributes := by rw [h.eq]

theorem children (h : n.Stays m) : m.children = n.children := by rw [h.eq]; rfl

theorem parent (h : n.Stays m) : m.parent = n.parent := by rw [h.eq]

end Stays

end Node

namespace Document

variable {d e : Document}

/-- The nodes of the first document stay in the second. -/
structure Stays (d e : Document) : Prop where
  size_le : d.size ≤ e.size
  node {j : Nat} (h : j < d.size) : (d.node j).Stays (e.node j)

namespace Stays

theorem refl (d : Document) : d.Stays d :=
  ⟨Nat.le_refl _, fun _ => .refl _⟩

theorem trans {f : Document} (h : d.Stays e) (h' : e.Stays f) : d.Stays f :=
  ⟨Nat.le_trans h.size_le h'.size_le,
    fun hj => (h.node hj).trans (h'.node (Nat.lt_of_lt_of_le hj h.size_le))⟩

theorem append (d : Document) (ns : List Node) : d.Stays (d.append ns) := by
  refine ⟨by rw [size_append]; omega, fun hj => ?_⟩
  rw [node_append_left hj]
  exact .refl _

theorem update {id : Nat} {f : Node → Node} (h : (d.node id).Stays (f (d.node id))) :
    d.Stays (d.update id f) := by
  refine ⟨Nat.le_of_eq (size_update d id f).symm, fun {j} hj => ?_⟩
  rw [node_update _ _ _ _ hj]
  split
  · next heq => rwa [← heq]
  · exact .refl _

theorem bind (d : Document) (id : Nat) (name : String) (value : Value) :
    d.Stays (d.bind id name value) :=
  update ⟨rfl, rfl⟩

theorem setScope (d : Document) (id : Nat) (scope : Scope) : d.Stays (d.setScope id scope) :=
  update ⟨rfl, rfl⟩

theorem setContainer {id : Nat} (h : (d.node id).container.isSome) (c : Container) :
    d.Stays (d.setContainer id c) :=
  update ⟨rfl, h.symm⟩

theorem sound (h : d.Stays e) (hsize : e.size = d.size) (hs : d.Sound) : e.Sound := by
  have hnode (i : Nat) : (d.node i).Stays (e.node i) := by
    rcases Nat.lt_or_ge i d.size with hi | hi
    · exact h.node hi
    · rw [node_of_size_le hi, node_of_size_le (hsize ▸ hi)]
      exact .refl _
  refine ⟨fun {i c} hc => ?_, fun {i c} hc => ?_, fun {i c} hc => ?_, fun {i} hi => ?_, ?_⟩
  · rw [(hnode i).children] at hc
    exact hs.child_lt hc
  · rw [(hnode i).children] at hc
    rw [(hnode c).parent]
    exact hs.child_parent hc
  · rw [(hnode i).children] at hc
    have := (hnode c).container
    rw [hs.child_container hc] at this
    simpa using this
  · rw [(hnode i).parent]
    refine hs.container_parent fun h => hi ?_
    have := (hnode i).container
    rw [h] at this
    simpa using this
  · obtain ⟨rank, hr⟩ := hs.ranked
    refine ⟨rank, fun i hi => ?_⟩
    rw [hsize] at hi ⊢
    rw [(hnode i).parent]
    exact hr i hi

theorem nearestContainer? (h : d.Stays e) (hd : d.Sound) (he : e.Sound) {id : Nat}
    (hid : id < d.size) : e.nearestContainer? id = d.nearestContainer? id := by
  have hanc := hd.ancestors_congr he h.size_le (fun i hi => (h.node hi).parent) id hid
  unfold Document.nearestContainer?
  rw [hanc]
  have hall : ∀ a ∈ d.ancestors id, (e.node a).container.isSome = (d.node a).container.isSome :=
    fun a ha => (h.node (hd.lt_of_mem_ancestors hid ha)).container
  exact List.find?_congr hall

theorem mem_descendants (h : d.Stays e) {id j : Nat} (hid : id < d.size) :
    j ∈ e.descendants id ↔ j ∈ d.descendants id :=
  mem_descendants_congr fun _ hi => (h.node (Nat.lt_of_le_of_lt hi hid)).children

end Stays

end Document

end TagTemplate
