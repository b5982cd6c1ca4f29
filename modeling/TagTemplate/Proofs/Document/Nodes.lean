import Mathlib.Tactic.Common
import TagTemplate.Document.Fragment
import TagTemplate.Document.Preparation

/-! # The nodes of a fragment

The parts of a template text become a run of consecutive nodes at the end of a document, the nodes
of a block before the block itself.  `Part.run g n parent p` lists that run for a part whose first
node has the number `n`; the function `g` is applied to every node, with the number of its parent.

* `pushPart_eq` and `pushParts_eq`: reading appends the runs of the parts.
* `prepare_fragment`: preparing a fresh fragment applies one function to each node of its run, with
  the parent that holds the node, and leaves all other nodes alone. -/

namespace TagTemplate

/-! ### Appending nodes -/

namespace Document

/-- The document with more nodes at its end. -/
def append (d : Document) (ns : List Node) : Document :=
  ⟨d.nodes ++ ns.toArray⟩

@[simp] theorem size_append (d : Document) (ns : List Node) :
    (d.append ns).size = d.size + ns.length := by
  simp [append, size]

@[simp] theorem append_nil (d : Document) : d.append [] = d := by
  simp [append]

theorem append_append (d : Document) (ns ms : List Node) :
    (d.append ns).append ms = d.append (ns ++ ms) := by
  simp [append]

theorem push_eq_append (d : Document) (n : Node) : d.push n = d.append [n] := by
  simp [append, push]

theorem get?_append (d : Document) (ns : List Node) (id : Nat) :
    (d.append ns).get? id = if id < d.size then d.get? id else ns[id - d.size]? := by
  simp only [append, get?, Array.getElem?_append, List.getElem?_toArray]
  rfl

theorem get?_append_left {d : Document} {ns : List Node} {id : Nat} (h : id < d.size) :
    (d.append ns).get? id = d.get? id := by
  rw [get?_append, if_pos h]

theorem node_append_left {d : Document} {ns : List Node} {id : Nat} (h : id < d.size) :
    (d.append ns).node id = d.node id := by
  simp only [node, get?_append_left h]

theorem get?_append_right (d : Document) (ns : List Node) (i : Nat) :
    (d.append ns).get? (d.size + i) = ns[i]? := by
  rw [get?_append, if_neg (by omega), Nat.add_sub_cancel_left]

theorem node_append_right {d : Document} {ns : List Node} {i : Nat} {n : Node}
    (h : ns[i]? = some n) : (d.append ns).node (d.size + i) = n := by
  simp only [node, get?_append_right, h, Option.getD_some]

theorem exists_appended {d : Document} {ns : List Node} {i : Nat} (hi : d.size ≤ i)
    (hi' : i < (d.append ns).size) :
    ∃ j x, i = d.size + j ∧ ns[j]? = some x ∧ (d.append ns).node i = x := by
  rw [size_append] at hi'
  obtain ⟨j, rfl⟩ : ∃ j, i = d.size + j := ⟨i - d.size, by omega⟩
  have hx : ns[j]? = some ns[j] := List.getElem?_eq_getElem (by omega)
  exact ⟨j, ns[j], rfl, hx, node_append_right hx⟩

theorem node_update (d : Document) (id : Nat) (f : Node → Node) (j : Nat) (hj : j < d.size) :
    (d.update id f).node j = if id = j then f (d.node j) else d.node j := by
  obtain ⟨x, hx⟩ : ∃ x, d.get? j = some x := ⟨d.nodes[j], Array.getElem?_eq_getElem hj⟩
  simp only [node, get?_update, hx]
  split <;> rfl

theorem node_update_of_ne (d : Document) {id j : Nat} (f : Node → Node) (h : id ≠ j) :
    (d.update id f).node j = d.node j := by
  simp only [node, get?_update, if_neg h]

theorem ext_get? {d e : Document} (h : ∀ id, d.get? id = e.get? id) : d = e := by
  obtain ⟨ds⟩ := d
  obtain ⟨es⟩ := e
  congr 1
  exact Array.ext_getElem? h

theorem update_between (d : Document) (ns ms : List Node) (n : Node) (f : Node → Node) :
    (d.append (ns ++ n :: ms)).update (d.size + ns.length) f = d.append (ns ++ f n :: ms) := by
  apply ext_get?
  intro j
  rw [get?_update, get?_append, get?_append]
  by_cases hj : j < d.size
  · have : d.size + ns.length ≠ j := by omega
    simp only [if_pos hj, if_neg this]
  · obtain ⟨i, rfl⟩ : ∃ i, j = d.size + i := ⟨j - d.size, by omega⟩
    simp only [if_neg hj, Nat.add_sub_cancel_left, Nat.add_left_cancel_iff]
    rcases Nat.lt_trichotomy i ns.length with hi | rfl | hi
    · rw [if_neg (by omega), List.getElem?_append_left hi, List.getElem?_append_left hi]
    · simp
    · obtain ⟨k, rfl⟩ : ∃ k, i = ns.length + (k + 1) := ⟨i - ns.length - 1, by omega⟩
      rw [if_neg (by omega), List.getElem?_append_right (by omega),
        List.getElem?_append_right (by omega), Nat.add_sub_cancel_left, List.getElem?_cons_succ,
        List.getElem?_cons_succ]

end Document

/-! ### The run of a part -/

namespace Part

mutual

def count : Part → Nat
  | .block _ _ _ parts _ => countAll parts + 1
  | _ => 1

def countAll : List Part → Nat
  | [] => 0
  | p :: rest => p.count + countAll rest

end

/-- The numbers of the parts of a list whose first node has the number `n`. -/
def numbers (n : Nat) : List Part → List Nat
  | [] => []
  | p :: rest => (n + p.count - 1) :: numbers (n + p.count) rest

/-- The node of a part itself, when its first node has the number `n`. -/
def own (n : Nat) : Part → Node
  | .literal text span => .literal text span
  | .leaf tag body matched span => .ofTag tag body (.text matched) none span
  | .raw tag body inside span => .ofTag tag body (.text inside) (some inside) span
  | .block tag body inside parts span =>
    .ofTag tag body (.children (numbers n parts)) (some inside) span

mutual

/-- The nodes of a part from the number `n` on, changed by `g` given their parents. -/
def run (g : Option Nat → Node → Node) (n : Nat) (parent : Option Nat) : Part → List Node
  | .block tag body inside parts span =>
    runAll g n (some (n + countAll parts)) parts ++
      [g parent (own n (.block tag body inside parts span))]
  | .literal text span => [g parent (own n (.literal text span))]
  | .leaf tag body matched span => [g parent (own n (.leaf tag body matched span))]
  | .raw tag body inside span => [g parent (own n (.raw tag body inside span))]

/-- The nodes of a list of parts with one parent. -/
def runAll (g : Option Nat → Node → Node) (n : Nat) (parent : Option Nat) :
    List Part → List Node
  | [] => []
  | p :: rest => run g n parent p ++ runAll g (n + p.count) parent rest

end

mutual

/-- The numbers of the nodes of a part with their parents, parents before children. -/
def family (n : Nat) (parent : Option Nat) : Part → List (Nat × Option Nat)
  | .block _ _ _ parts _ =>
    (n + countAll parts, parent) :: familyAll n (some (n + countAll parts)) parts
  | .literal _ _ => [(n, parent)]
  | .leaf _ _ _ _ => [(n, parent)]
  | .raw _ _ _ _ => [(n, parent)]

/-- The numbers of the nodes of a list of parts with their parents. -/
def familyAll (n : Nat) (parent : Option Nat) : List Part → List (Nat × Option Nat)
  | [] => []
  | p :: rest => family n parent p ++ familyAll (n + p.count) parent rest

end

theorem count_pos (p : Part) : 0 < p.count := by
  cases p <;> simp [count]

theorem numbers_append (n : Nat) (ps qs : List Part) :
    numbers n (ps ++ qs) = numbers n ps ++ numbers (n + countAll ps) qs := by
  induction ps generalizing n with
  | nil => rfl
  | cons p rest ih => simp only [List.cons_append, numbers, countAll, ih, Nat.add_assoc]

variable (g : Option Nat → Node → Node)

theorem runAll_append (n : Nat) (parent : Option Nat) (ps qs : List Part) :
    runAll g n parent (ps ++ qs)
      = runAll g n parent ps ++ runAll g (n + countAll ps) parent qs := by
  induction ps generalizing n with
  | nil => rfl
  | cons p rest ih =>
      simp only [List.cons_append, runAll, countAll, ih, Nat.add_assoc, List.append_assoc]

mutual

@[simp] theorem length_run (n : Nat) (parent : Option Nat) (p : Part) :
    (run g n parent p).length = p.count := by
  cases p with
  | block tag body inside parts span => simp [run, count, length_runAll]
  | literal text span => simp [run, count]
  | leaf tag body matched span => simp [run, count]
  | raw tag body inside span => simp [run, count]

@[simp] theorem length_runAll (n : Nat) (parent : Option Nat) (ps : List Part) :
    (runAll g n parent ps).length = countAll ps := by
  cases ps with
  | nil => rfl
  | cons p rest => simp [runAll, countAll, length_run, length_runAll]

end

end Part

/-! ### Reading appends runs -/

namespace Document

open TagTemplate.Part

/-- Leaves every node as it is. -/
abbrev untouched : Option Nat → Node → Node := fun _ n => n

mutual

theorem pushPart_eq (d : Document) (p : Part) (parent : Option Nat) :
    d.pushPart p = (d.append (run untouched d.size parent p), d.size + p.count - 1) := by
  cases p with
  | block tag body inside parts span =>
      simp only [pushPart, pushParts_eq d parts (some (d.size + countAll parts)), run,
        push_eq_append, append_append, size_append, length_runAll, own, count]
      simp
  | literal text span => simp [pushPart, run, own, count, push_eq_append]
  | leaf tag body matched span => simp [pushPart, run, own, count, push_eq_append]
  | raw tag body inside span => simp [pushPart, run, own, count, push_eq_append]

theorem pushParts_eq (d : Document) (ps : List Part) (parent : Option Nat) :
    d.pushParts ps = (d.append (runAll untouched d.size parent ps), numbers d.size ps) := by
  cases ps with
  | nil => simp [pushParts, runAll, numbers]
  | cons p rest =>
      simp only [pushParts, pushPart_eq d p parent, runAll, numbers]
      rw [pushParts_eq _ rest parent]
      simp only [size_append, length_run, append_append]

end

end Document

/-- The nodes of a fragment from the number `n` on: those of its parts, then its root. -/
def Part.fragment (g : Option Nat → Node → Node) (n : Nat) (parent : Option Nat)
    (ps : List Part) (span : Span) : List Node :=
  runAll g n (some (n + countAll ps)) ps ++ [g parent (.root (numbers n ps) span)]

@[simp] theorem Part.length_fragment (g : Option Nat → Node → Node) (n : Nat)
    (parent : Option Nat) (ps : List Part) (span : Span) :
    (fragment g n parent ps span).length = countAll ps + 1 := by
  simp [fragment]

namespace Document

open TagTemplate.Part

theorem readFragment_of_errors {s : TagScanner} {source : String} (d : Document)
    (h : (s.read source).errors ≠ []) :
    d.readFragment s source =
      (d.append (runAll untouched d.size none (s.read source).parts),
        .error (s.read source).errors) := by
  have he : (s.read source).errors.isEmpty = false := by simpa using h
  simp [readFragment, pushParts_eq d _ none, he]

theorem readFragment_of_no_errors {s : TagScanner} {source : String} (d : Document)
    (parent : Option Nat) (h : (s.read source).errors = []) :
    d.readFragment s source =
      (d.append (fragment untouched d.size parent (s.read source).parts
        ⟨0, source.utf8ByteSize⟩), .ok (d.size + countAll (s.read source).parts)) := by
  have hp := pushParts_eq d (s.read source).parts (some (d.size + countAll (s.read source).parts))
  simp [readFragment, hp, h, fragment, push_eq_append, append_append]

/-! ### The family of a run -/

/-- The nodes `ns` stand in the document from the number `n` on. -/
def Holds (d : Document) (n : Nat) (ns : List Node) : Prop :=
  ∀ (i : Nat) (x : Node), ns[i]? = some x → d.get? (n + i) = some x

theorem Holds.left {d : Document} {n : Nat} {ns ms : List Node} (h : d.Holds n (ns ++ ms)) :
    d.Holds n ns := by
  intro i x hx
  obtain ⟨hi, _⟩ := List.getElem?_eq_some_iff.mp hx
  exact h i x (by rw [List.getElem?_append_left hi, hx])

theorem Holds.right {d : Document} {n : Nat} {ns ms : List Node} (h : d.Holds n (ns ++ ms)) :
    d.Holds (n + ns.length) ms := by
  intro i x hx
  rw [Nat.add_assoc]
  exact h (ns.length + i) x
    (by rw [List.getElem?_append_right (by omega), Nat.add_sub_cancel_left, hx])

theorem Holds.node {d : Document} {n : Nat} {x : Node} (h : d.Holds n [x]) : d.node n = x := by
  have hx : d.get? n = some x := h 0 x rfl
  simp [Document.node, hx]

theorem holds_append (d : Document) (ns : List Node) : (d.append ns).Holds d.size ns := by
  intro i x hx
  rw [get?_append_right, hx]

theorem family_of_children {d : Document} {id : Nat} {parent : Option Nat} :
    d.family parent id = (id, parent) :: (d.node id).children.flatMap fun child =>
      if child < id then d.family (some id) child else [] := by
  rw [Document.family]
  simp

theorem family_of_leaf {d : Document} {id : Nat} {parent : Option Nat}
    (h : (d.node id).children = []) : d.family parent id = [(id, parent)] := by
  rw [family_of_children, h, List.flatMap_nil]

mutual

theorem family_of_holds (d : Document) (n : Nat) (q parent : Option Nat) (p : Part)
    (h : d.Holds n (run untouched n q p)) :
    d.family parent (n + p.count - 1) = Part.family n parent p := by
  cases p with
  | block tag body inside parts span =>
      have hn := h.right.node
      rw [length_runAll] at hn
      have hid : n + (Part.block tag body inside parts span).count - 1 = n + countAll parts := by
        simp only [count]; omega
      rw [hid, family_of_children, hn, Part.family]
      congr 1
      exact familyAll_of_holds d n _ _ parts (Nat.le_refl _) h.left
  | literal text span => exact family_of_leaf (congrArg Node.children h.node)
  | leaf tag body matched span =>
      exact family_of_leaf (congrArg Node.children h.node)
  | raw tag body inside span =>
      exact family_of_leaf (congrArg Node.children h.node)

theorem familyAll_of_holds (d : Document) (n id : Nat) (q : Option Nat) (ps : List Part)
    (hid : n + countAll ps ≤ id) (h : d.Holds n (runAll untouched n q ps)) :
    (numbers n ps).flatMap (fun child => if child < id then d.family (some id) child else [])
      = familyAll n (some id) ps := by
  cases ps with
  | nil => rfl
  | cons p rest =>
      have hpos := p.count_pos
      rw [countAll] at hid
      rw [runAll] at h
      have hrest := h.right
      rw [length_run] at hrest
      rw [numbers, List.flatMap_cons, if_pos (by omega), familyAll,
        family_of_holds d n q (some id) p h.left,
        familyAll_of_holds d (n + p.count) id q rest (by omega) hrest]

end

/-! ### Preparing a fragment -/

section preparing
variable (g : Option Nat → Node → Node)

/-- Changes each node of a list of numbers with parents. -/
def visit (d : Document) (members : List (Nat × Option Nat)) : Document :=
  members.foldl (fun d e => d.update e.1 (g e.2)) d

theorem visit_append (d : Document) (l₁ l₂ : List (Nat × Option Nat)) :
    d.visit g (l₁ ++ l₂) = (d.visit g l₁).visit g l₂ := by
  simp [visit]

mutual

theorem visit_family (d : Document) (ns ms : List Node) (n : Nat) (parent : Option Nat) (p : Part)
    (hn : n = d.size + ns.length) :
    (d.append (ns ++ run untouched n parent p ++ ms)).visit g (Part.family n parent p)
      = d.append (ns ++ run g n parent p ++ ms) := by
  subst hn
  cases p with
  | block tag body inside parts span =>
      let b := Part.block tag body inside parts span
      have hlen : d.size + ns.length + countAll parts = d.size
          + (ns ++ runAll untouched (d.size + ns.length)
              (some (d.size + ns.length + countAll parts)) parts).length := by
        simp [Nat.add_assoc]
      have h := visit_familyAll d ns (g parent (own (d.size + ns.length) b) :: ms)
        (d.size + ns.length) (some (d.size + ns.length + countAll parts)) parts rfl
      have hown := update_between d (ns ++ runAll untouched (d.size + ns.length)
        (some (d.size + ns.length + countAll parts)) parts) ms (own (d.size + ns.length) b)
        (g parent)
      rw [← hlen] at hown
      simp only [Part.family, visit, List.foldl_cons, run, List.append_assoc, List.singleton_append]
        at h hown ⊢
      rw [hown, h]
  | literal text span =>
      simp [Part.family, visit, run, update_between]
  | leaf tag body matched span =>
      simp [Part.family, visit, run, update_between]
  | raw tag body inside span =>
      simp [Part.family, visit, run, update_between]

theorem visit_familyAll (d : Document) (ns ms : List Node) (n : Nat) (parent : Option Nat)
    (ps : List Part) (hn : n = d.size + ns.length) :
    (d.append (ns ++ runAll untouched n parent ps ++ ms)).visit g (familyAll n parent ps)
      = d.append (ns ++ runAll g n parent ps ++ ms) := by
  cases ps with
  | nil => rfl
  | cons p rest =>
      have h₁ := visit_family d ns (runAll untouched (n + p.count) parent rest ++ ms) n parent p hn
      have h₂ := visit_familyAll d (ns ++ run g n parent p) ms (n + p.count) parent rest
        (by simp [hn, Nat.add_assoc])
      simp only [runAll, familyAll, visit_append, List.append_assoc] at h₁ h₂ ⊢
      rw [h₁, h₂]

end

/-- Preparation reaches each node of a fresh fragment once, with the parent that holds it. -/
theorem visit_fragment (d : Document) (parent : Option Nat) (ps : List Part) (span : Span) :
    (d.append (fragment untouched d.size parent ps span)).visit g
        ((d.append (fragment untouched d.size parent ps span)).family parent
          (d.size + countAll ps))
      = d.append (fragment g d.size parent ps span) := by
  have hholds := holds_append d (fragment untouched d.size parent ps span)
  have hroot := hholds.right.node
  rw [length_runAll] at hroot
  have hkids := familyAll_of_holds _ d.size (d.size + countAll ps) _ ps (Nat.le_refl _) hholds.left
  rw [family_of_children, hroot]
  simp only [Node.root, Node.children]
  have hown := update_between d (runAll untouched d.size (some (d.size + countAll ps)) ps) []
    (.root (numbers d.size ps) span) (g parent)
  rw [length_runAll] at hown
  have hall := visit_familyAll g d [] [g parent (.root (numbers d.size ps) span)] d.size
    (some (d.size + countAll ps)) ps (by simp)
  rw [hkids]
  simp only [fragment, visit, List.foldl_cons, List.nil_append] at hall hown ⊢
  rw [hown, hall]

end preparing

theorem prepare_fragment (d : Document) (preparers : List Preparer) (around : Surroundings)
    (ps : List Part) (span : Span) :
    (d.append (fragment untouched d.size around.parent ps span)).prepare preparers
        (d.size + countAll ps) around
      = d.append (fragment (Node.prepared preparers around) d.size around.parent ps span) :=
  visit_fragment (Node.prepared preparers around) d around.parent ps span

end Document

end TagTemplate
