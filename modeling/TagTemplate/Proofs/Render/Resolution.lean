import Mathlib.Data.String.Basic
import TagTemplate.Render.State

/-! # Resolving names

A name is looked up in a chain of scopes: that of a node, those of its ancestors, the nearest first,
and at last the variables of the template.  A dotted name is looked up in each of them as a whole,
first as it stands, then as a path into the value bound to its head.

* `Scope.get?_plain` and `Scope.get?_dotted`: one scope.
* `RenderState.lookup?_dotted`: the chain.  A scope that binds the head to a value without the path
  is passed over. -/

namespace TagTemplate

/-! ### One scope -/

namespace Scope

variable {head : String} (h : '.' ∉ head.toList)
include h

theorem splitName?_plain : splitName? head = none := by
  rw [splitName?, Text.cut_single_of_not_mem h]
  rfl

theorem splitName?_dotted (path : String) :
    splitName? (head ++ "." ++ path) = some (head, path) := by
  have htext : (head ++ "." ++ path).toList = head.toList ++ '.' :: path.toList := by simp
  rw [splitName?, htext, Text.cut_single_append h]
  simp

theorem get?_plain (s : Scope) : s.get? head = s.bindings.get? head := by
  rw [get?, splitName?_plain h]
  cases s.bindings.get? head <;> rfl

/-- A dotted name that is not bound itself leads into the value of its head. -/
theorem get?_dotted {s : Scope} {path : String}
    (hunbound : s.bindings.get? (head ++ "." ++ path) = none) :
    s.get? (head ++ "." ++ path) = (s.bindings.get? head).bind (·.getPath? path) := by
  rw [get?, hunbound, splitName?_dotted h]
  rfl

end Scope

/-! ### The chain of scopes -/

theorem findSome?_eq_of_forall {α β : Type} {f g : α → Option β} {l : List α}
    (h : ∀ a ∈ l, f a = g a) : l.findSome? f = l.findSome? g := by
  induction l with
  | nil => rfl
  | cons a l ih =>
      obtain ⟨ha, hl⟩ := List.forall_mem_cons.mp h
      rw [List.findSome?_cons, List.findSome?_cons, ha, ih hl]

theorem findSome?_append_cons {α β : Type} {f : α → Option β} {inner : List α}
    (h : ∀ a ∈ inner, f a = none) (b : α) (outer : List α) :
    (inner ++ b :: outer).findSome? f = (f b).or (outer.findSome? f) := by
  rw [List.findSome?_append, List.findSome?_eq_none_iff.mpr h, Option.none_or, List.findSome?_cons]
  cases f b <;> rfl

namespace RenderState

/-- The scopes in which a node finds its variables, the nearest first. -/
def chain (σ : RenderState) (id : Nat) : List Scope :=
  (σ.document.ancestors id).map (fun a => (σ.node a).scope) ++ [σ.globals]

theorem lookup?_eq (σ : RenderState) (id : Nat) (name : String) :
    σ.lookup? id name = (σ.chain id).findSome? (·.get? name) := by
  rw [chain, List.findSome?_append, List.findSome?_map, lookup?, Document.lookup?]
  unfold node
  simp only [Function.comp_def, List.findSome?_cons, List.findSome?_nil]
  cases (σ.document.ancestors id).findSome? fun a => (σ.document.node a).scope.get? name with
  | some v => rfl
  | none => cases σ.globals.get? name <;> rfl

/-- Where no scope of the chain binds a dotted name itself, its value is that of the first scope
whose binding of the head has the path.  So it is what the path leads to in the value of the head,
if it leads anywhere, and there is none if the head is unbound; a nearest binding of the head
without the path is passed over, and the scopes further out decide. -/
theorem lookup?_dotted {σ : RenderState} {id : Nat} {head path : String}
    (h : '.' ∉ head.toList)
    (hunbound : ∀ s ∈ σ.chain id, s.bindings.get? (head ++ "." ++ path) = none) :
    σ.lookup? id (head ++ "." ++ path) = (σ.chain id).findSome?
        (fun s => (s.bindings.get? head).bind (·.getPath? path)) ∧
    (∀ v, σ.lookup? id head = some v → ∀ w, v.getPath? path = some w →
      σ.lookup? id (head ++ "." ++ path) = some w) ∧
    (σ.lookup? id head = none → σ.lookup? id (head ++ "." ++ path) = none) ∧
    ∀ (inner outer : List Scope) (s : Scope) (v : Value), σ.chain id = inner ++ s :: outer →
      (∀ t ∈ inner, t.get? head = none) → s.get? head = some v → v.getPath? path = none →
      σ.lookup? id (head ++ "." ++ path) = outer.findSome? (·.get? (head ++ "." ++ path)) := by
  have hscope : ∀ s ∈ σ.chain id, s.get? (head ++ "." ++ path) =
      (s.get? head).bind (·.getPath? path) := fun s hs => by
    rw [Scope.get?_dotted h (hunbound s hs), Scope.get?_plain h]
  -- scopes that do not bind the head do not have the path either
  have hpass {inner outer : List Scope} {s : Scope} (hchain : σ.chain id = inner ++ s :: outer)
      (hinner : ∀ t ∈ inner, t.get? head = none) :
      σ.lookup? id (head ++ "." ++ path) = ((s.get? head).bind (·.getPath? path)).or
        (outer.findSome? (·.get? (head ++ "." ++ path))) := by
    have hnone : ∀ t ∈ inner, t.get? (head ++ "." ++ path) = none := fun t ht => by
      rw [hscope t (by simp [hchain, ht]), hinner t ht]
      rfl
    rw [lookup?_eq, hchain, findSome?_append_cons hnone, hscope s (by simp [hchain])]
  refine ⟨?_, fun v hv w hw => ?_, fun hnone => ?_, fun inner outer s v hchain hinner hs hv => ?_⟩
  · rw [lookup?_eq]
    exact findSome?_eq_of_forall fun s hs => Scope.get?_dotted h (hunbound s hs)
  · rw [lookup?_eq] at hv
    obtain ⟨inner, s, outer, hchain, hs, hinner⟩ := List.findSome?_eq_some_iff.mp hv
    rw [hpass hchain hinner, hs, Option.bind_some, hw]
    rfl
  · rw [lookup?_eq, List.findSome?_eq_none_iff] at hnone ⊢
    intro s hs
    rw [hscope s hs, hnone s hs]
    rfl
  · rw [hpass hchain hinner, hs, Option.bind_some, hv]
    rfl

/-- The scope of a page that binds `x` to a list. -/
def pairScope : Scope :=
  (∅ : Scope).insert "x" (.list [.text "a", .text "b"])

/-- The scope of a block that binds `x` to a text. -/
def wordScope : Scope :=
  (∅ : Scope).insert "x" (.text "none")

/-- A reference to `x.1` in the block, which stands in the page. -/
def shadowedState : RenderState where
  document := ⟨#[
    { kind := .reference, content := .text "", span := ⟨0, 0⟩, parent := some 1 },
    { kind := .conditional, content := .children [0], span := ⟨0, 0⟩, parent := some 2
      scope := wordScope },
    { kind := .root, content := .children [1], span := ⟨0, 0⟩, scope := pairScope }]⟩

theorem chain_shadowedState : shadowedState.chain 0 = [∅, wordScope, pairScope, ∅] :=
  rfl

theorem unbound_shadowedState : ∀ s ∈ shadowedState.chain 0,
    s.bindings.get? ("x" ++ "." ++ "1") = none ∧ s.bindings.get? ("y" ++ "." ++ "1") = none := by
  decide +kernel

theorem getPath?_pair : (Value.list [.text "a", .text "b"]).getPath? "1" = some (.text "b") := by
  have hparts : Value.pathParts "1" = ["1"] := by decide +kernel
  rw [Value.getPath?, hparts]
  rfl

theorem getPath?_word : (Value.text "none").getPath? "1" = none := by
  have hparts : Value.pathParts "1" = ["1"] := by decide +kernel
  rw [Value.getPath?, hparts]
  rfl

theorem get?_pairScope : pairScope.get? ("x" ++ "." ++ "1") = some (.text "b") := by
  rw [Scope.get?_dotted (by decide) rfl]
  exact getPath?_pair

theorem get?_wordScope : wordScope.get? ("x" ++ "." ++ "1") = none := by
  rw [Scope.get?_dotted (by decide) rfl]
  exact getPath?_word

/-- The item of the list, seen from the page and from inside the block, and a name not bound. -/
theorem lookup?_dotted_shadowedState :
    shadowedState.lookup? 2 ("x" ++ "." ++ "1") = some (.text "b") ∧
    shadowedState.lookup? 0 ("x" ++ "." ++ "1") = some (.text "b") ∧
    shadowedState.lookup? 0 ("y" ++ "." ++ "1") = none := by
  have hpage : ∀ s ∈ shadowedState.chain 2, s.bindings.get? ("x" ++ "." ++ "1") = none := by
    decide +kernel
  obtain ⟨-, hfound, -, -⟩ := lookup?_dotted (by decide) hpage
  obtain ⟨-, -, -, hpast⟩ := lookup?_dotted (by decide) fun s hs => (unbound_shadowedState s hs).1
  obtain ⟨-, -, hnone, -⟩ := lookup?_dotted (by decide) fun s hs => (unbound_shadowedState s hs).2
  refine ⟨hfound _ rfl _ getPath?_pair, ?_, hnone rfl⟩
  rw [hpast [∅] [pairScope, ∅] wordScope (.text "none") rfl
    (List.forall_mem_singleton.mpr rfl) rfl getPath?_word]
  rw [List.findSome?_cons, get?_pairScope]

/-- The block binds `x` to a text, in which `1` leads nowhere, and yet `x.1` is found: in the list
that the page binds to `x`. -/
theorem lookup?_through_shadow :
    (∀ s ∈ shadowedState.chain 0, s.bindings.get? ("x" ++ "." ++ "1") = none) ∧
    shadowedState.lookup? 0 "x" = some (.text "none") ∧
    (Value.text "none").getPath? "1" = none ∧
    shadowedState.lookup? 0 ("x" ++ "." ++ "1") = some (.text "b") := by
  refine ⟨fun s hs => (unbound_shadowedState s hs).1, rfl, getPath?_word, ?_⟩
  have hempty : (∅ : Scope).get? ("x" ++ "." ++ "1") = none := by
    rw [Scope.get?_dotted (by decide) rfl]
    rfl
  rw [lookup?_eq, chain_shadowedState, List.findSome?_cons, hempty, List.findSome?_cons,
    get?_wordScope, List.findSome?_cons, get?_pairScope]

end RenderState

end TagTemplate
