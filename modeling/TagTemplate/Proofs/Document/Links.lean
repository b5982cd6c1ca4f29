import Mathlib.Data.List.Nodup
import Mathlib.Data.List.Perm.Subperm
import Mathlib.Logic.Relation
import TagTemplate.Proofs.Document.Tree
import TagTemplate.Proofs.Render.Clock

/-! # Links from nodes to their parents

A document is built by adding nodes and by setting parents, in any order.  A parent is set once and
stays.  Nothing else is asked of it: a node may become the parent of a node above it, and then there
is no end to going up.

* `Document.Up.edited`: a parent that is set stays.
* `Document.Grounded.exists_walk` and `Document.seekWithin_of_walkWithin`: where going up ends, it
  finds the ancestors, and what is looked for among them.
* `Document.grounded_built_iff`: going up ends everywhere unless an edit has closed a cycle.
* `Document.links_built`: all of it, for any sequence of edits. -/

namespace TagTemplate

namespace Document

variable {d : Document} {id parent i j p : Nat}

/-! ### Going up -/

/-- A step up, from a node to its parent. -/
def Up (d : Document) (i p : Nat) : Prop :=
  (d.node i).parent = some p

/-- Going up from a node ends. -/
def Grounded (d : Document) (i : Nat) : Prop :=
  Acc (fun p i => d.Up i p) i

/-- A node that is found again above itself. -/
def Cyclic (d : Document) (i : Nat) : Prop :=
  Relation.TransGen d.Up i i

/-- The first answer of the nodes from a node upwards.  There is none while the way goes on. -/
def seekWithin {α : Type} (d : Document) (f : Nat → Option α) : Nat → Nat → Option (Option α)
  | 0, _ => none
  | n + 1, i =>
    match f i with
    | some a => some (some a)
    | none =>
      match (d.node i).parent with
      | none => some none
      | some p => d.seekWithin f n p

theorem Up.grounded (h : d.Up i p) (hp : d.Grounded p) : d.Grounded i := by
  refine .intro i fun q hq => ?_
  obtain rfl : p = q := Option.some.inj (h.symm.trans hq)
  exact hp

theorem grounded_of_parent (h : (d.node i).parent = none) : d.Grounded i := by
  refine .intro i fun p hp => ?_
  rw [Up, h] at hp
  cases hp

theorem Up.cyclic (h : d.Up i p) (hi : d.Cyclic i) : d.Cyclic p := by
  obtain ⟨q, hq, hrest⟩ := Relation.TransGen.head'_iff.mp hi
  obtain rfl : p = q := Option.some.inj (h.symm.trans hq)
  exact Relation.TransGen.tail' hrest h

theorem Cyclic.exists_up (h : d.Cyclic i) : ∃ p, d.Up i p ∧ d.Cyclic p := by
  obtain ⟨p, hp, -⟩ := Relation.TransGen.head'_iff.mp h
  exact ⟨p, hp, hp.cyclic h⟩

theorem Cyclic.walkWithin (h : d.Cyclic i) (n : Nat) : d.walkWithin n i = none := by
  induction n generalizing i with
  | zero => rfl
  | succ n ih =>
      obtain ⟨p, hp, hcyclic⟩ := h.exists_up
      rw [Document.walkWithin, hp]
      dsimp only
      rw [ih hcyclic]
      rfl

theorem walkWithin_of_up {n : Nat} (h : d.Up i p) :
    d.walkWithin (n + 1) i = (d.walkWithin n p).map (i :: ·) := by
  rw [walkWithin, h]

theorem grounded_of_walkWithin {n : Nat} {l : List Nat} (h : d.walkWithin n i = some l) :
    d.Grounded i := by
  induction n generalizing i l with
  | zero => cases h
  | succ n ih =>
      cases hp : (d.node i).parent with
      | none => exact grounded_of_parent hp
      | some p =>
          rw [walkWithin_of_up hp, Option.map_eq_some_iff] at h
          obtain ⟨l', hl', -⟩ := h
          exact Up.grounded hp (ih hl')

theorem Grounded.not_cyclic (h : d.Grounded i) : ¬ d.Cyclic i := by
  induction h with
  | intro i _ ih =>
      intro hi
      obtain ⟨p, hp, hcyclic⟩ := hi.exists_up
      exact ih p hp hcyclic

theorem mem_walkWithin {n : Nat} {l : List Nat} (h : d.walkWithin n i = some l) :
    ∀ j ∈ l, Relation.ReflTransGen d.Up i j := by
  induction n generalizing i l with
  | zero => cases h
  | succ n ih =>
      cases hp : (d.node i).parent with
      | none =>
          rw [walkWithin, hp] at h
          cases h
          intro j hj
          rw [List.mem_singleton.mp hj]
      | some p =>
          rw [walkWithin_of_up hp, Option.map_eq_some_iff] at h
          obtain ⟨l', hl', rfl⟩ := h
          intro j hj
          rcases List.mem_cons.mp hj with rfl | hj
          · exact .refl
          · exact .head hp (ih hl' j hj)

theorem nodup_walkWithin {n : Nat} {l : List Nat} (h : d.walkWithin n i = some l) : l.Nodup := by
  induction n generalizing i l with
  | zero => cases h
  | succ n ih =>
      cases hp : (d.node i).parent with
      | none =>
          rw [walkWithin, hp] at h
          cases h
          exact List.nodup_singleton i
      | some p =>
          have hground := grounded_of_walkWithin h
          rw [walkWithin_of_up hp, Option.map_eq_some_iff] at h
          obtain ⟨l', hl', rfl⟩ := h
          refine List.nodup_cons.mpr ⟨fun hi => ?_, ih hl'⟩
          exact hground.not_cyclic (.head' hp (mem_walkWithin hl' i hi))

theorem ancestorsWithin_of_walkWithin {n count : Nat} {l : List Nat}
    (h : d.walkWithin n i = some l) (hcount : l.length ≤ count) :
    d.ancestorsWithin count i = l := by
  induction n generalizing i l count with
  | zero => cases h
  | succ n ih =>
      cases hp : (d.node i).parent with
      | none =>
          rw [walkWithin, hp] at h
          cases h
          obtain ⟨count, rfl⟩ : ∃ c, count = c + 1 := ⟨count - 1, by simp at hcount; omega⟩
          rw [ancestorsWithin, hp]
      | some p =>
          rw [walkWithin_of_up hp, Option.map_eq_some_iff] at h
          obtain ⟨l', hl', rfl⟩ := h
          obtain ⟨count, rfl⟩ : ∃ c, count = c + 1 := ⟨count - 1, by simp at hcount; omega⟩
          rw [ancestorsWithin, hp]
          dsimp only
          rw [ih hl' (by simpa using hcount)]

theorem seekWithin_of_walkWithin {α : Type} (f : Nat → Option α) {n : Nat} {l : List Nat}
    (h : d.walkWithin n i = some l) : d.seekWithin f n i = some (l.findSome? f) := by
  induction n generalizing i l with
  | zero => cases h
  | succ n ih =>
      rw [seekWithin]
      cases hp : (d.node i).parent with
      | none =>
          rw [walkWithin, hp] at h
          cases h
          rw [List.findSome?_cons]
          cases f i <;> rfl
      | some p =>
          rw [walkWithin_of_up hp, Option.map_eq_some_iff] at h
          obtain ⟨l', hl', rfl⟩ := h
          rw [List.findSome?_cons]
          cases f i with
          | some a => rfl
          | none => exact ih hl'

theorem Cyclic.seekWithin {α : Type} {f : Nat → Option α} (h : d.Cyclic i) (hf : ∀ j, f j = none)
    (n : Nat) : d.seekWithin f n i = none := by
  induction n generalizing i with
  | zero => rfl
  | succ n ih =>
      obtain ⟨p, hp, hcyclic⟩ := h.exists_up
      rw [Document.seekWithin, hf, hp]
      exact ih hcyclic

/-- Parents are nodes of the document. -/
def Bounded (d : Document) : Prop :=
  ∀ i p, d.Up i p → p < d.size

theorem Grounded.exists_walk (h : d.Grounded i) (hd : d.Bounded) (hi : i < d.size) :
    ∃ n, d.walkWithin n i = some (d.ancestors i) := by
  have hwalk : ∃ n l, d.walkWithin n i = some l := by
    clear hi
    induction h with
    | intro i _ ih =>
        cases hp : (d.node i).parent with
        | none => exact ⟨1, [i], by rw [walkWithin, hp]⟩
        | some p =>
            obtain ⟨n, l, hl⟩ := ih p hp
            exact ⟨n + 1, i :: l, by rw [walkWithin_of_up hp, hl, Option.map_some]⟩
  obtain ⟨n, l, hl⟩ := hwalk
  have hlt : ∀ j ∈ l, j ∈ List.range d.size := by
    intro j hj
    rw [List.mem_range]
    cases mem_walkWithin hl j hj with
    | refl => exact hi
    | tail _ hup => exact hd _ _ hup
  have hlen : l.length ≤ d.size := by
    rw [← List.length_range (n := d.size)]
    exact ((nodup_walkWithin hl).subperm hlt).length_le
  exact ⟨n, by rw [ancestors, ancestorsWithin_of_walkWithin hl hlen, hl]⟩

/-! ### Edits -/

/-- A step in building a document. -/
inductive Edit where
  | push (n : Node)
  | attach (id parent : Nat)

namespace Edit

def apply (d : Document) : Edit → Document
  | push n => d.push n
  | attach id parent => (d.attach id parent).2

/-- The edit names nodes of the document only.  A new node has no parent, unless it is the copy of
one. -/
def Fits (d : Document) : Edit → Prop
  | push n => ∀ p, n.parent = some p → p < d.size
  | attach id parent => id < d.size ∧ parent < d.size

/-- The edit makes the parent of a node that has none the node itself or one below it. -/
def Closes (d : Document) : Edit → Prop
  | push _ => False
  | attach id parent => (d.node id).parent = none ∧ Relation.ReflTransGen d.Up parent id

end Edit

/-- The document after some edits. -/
def edited (d : Document) (es : List Edit) : Document :=
  es.foldl Edit.apply d

/-- Every edit fits the document it is made in. -/
def Admits (d : Document) : List Edit → Prop
  | [] => True
  | e :: es => e.Fits d ∧ (e.apply d).Admits es

theorem edited_append (d : Document) (as bs : List Edit) :
    d.edited (as ++ bs) = (d.edited as).edited bs :=
  List.foldl_append

theorem Admits.append {as bs : List Edit} (h : d.Admits (as ++ bs)) :
    d.Admits as ∧ (d.edited as).Admits bs := by
  induction as generalizing d with
  | nil => exact ⟨trivial, h⟩
  | cons e as ih =>
      obtain ⟨has, hbs⟩ := ih h.2
      exact ⟨⟨h.1, has⟩, hbs⟩

/-! ### One edit -/

def Edit.link? (d : Document) : Edit → Option (Nat × Nat)
  | push n => n.parent.map fun p => (d.size, p)
  | attach id parent => if (d.node id).parent = none then some (id, parent) else none

theorem parent_of_size_le (h : d.size ≤ i) : (d.node i).parent = none := by
  rw [node_of_size_le h]
  rfl

theorem Up.lt (h : d.Up i p) : i < d.size := by
  by_contra hlt
  rw [Up, parent_of_size_le (Nat.le_of_not_lt hlt)] at h
  cases h

theorem parent_attach (hid : id < d.size) (j : Nat) :
    ((d.attach id p).2.node j).parent =
      if j = id then (d.node id).parent <|> some p else (d.node j).parent := by
  rw [attach, setParent]
  by_cases h : j = id
  · rw [h, node_update d id _ id hid, if_pos rfl, if_pos rfl]
  · rw [node_update_of_ne d _ (Ne.symm h), if_neg h]

namespace Edit

variable {e : Edit}

theorem up_apply (h : e.Fits d) :
    (e.apply d).Up i p ↔ d.Up i p ∨ e.link? d = some (i, p) := by
  cases e with
  | push n =>
      have hnode : (d.push n).node i = if i = d.size then n else d.node i := by
        simp only [node, get?_push]
        split <;> rfl
      rw [apply, Up, hnode, link?]
      by_cases hi : i = d.size
      · have hnone : ¬ d.Up i p := fun hup => absurd hup.lt (by omega)
        simp [hi, hi ▸ hnone]
      · simp [hi, Ne.symm hi, Up]
  | attach id parent =>
      rw [apply, Up, parent_attach h.1, link?, Up]
      by_cases hi : i = id
      · subst hi
        cases (d.node i).parent <;> simp
      · simp [hi, Ne.symm hi]

theorem link?_lt {a b : Nat} (h : e.Fits d) (hlink : e.link? d = some (a, b)) : b < d.size := by
  cases e with
  | push n =>
      obtain ⟨q, hq, hpair⟩ := Option.map_eq_some_iff.mp hlink
      cases hpair
      exact h b hq
  | attach id parent =>
      rw [link?] at hlink
      split at hlink
      · cases hlink
        exact h.2
      · cases hlink

theorem size_le_apply (d : Document) (e : Edit) : d.size ≤ (e.apply d).size := by
  cases e with
  | push n => simp [apply]
  | attach id parent => exact Nat.le_of_eq (size_update d id _).symm

theorem bounded_apply (h : e.Fits d) (hd : d.Bounded) : (e.apply d).Bounded := by
  intro i p hup
  refine Nat.lt_of_lt_of_le ?_ (size_le_apply d e)
  rcases (up_apply h).mp hup with hup | hlink
  · exact hd i p hup
  · exact link?_lt h hlink

/-- The link added closes a cycle exactly if it leads to a node from which its start is reached. -/
theorem closes_iff (h : e.Fits d) (hd : d.Bounded) :
    e.Closes d ↔ ∃ a b, e.link? d = some (a, b) ∧ Relation.ReflTransGen d.Up b a := by
  cases e with
  | push n =>
      refine iff_of_false id ?_
      rintro ⟨a, b, hlink, hreach⟩
      have hlt := link?_lt h hlink
      obtain ⟨q, hq, hpair⟩ := Option.map_eq_some_iff.mp hlink
      cases hpair
      cases hreach with
      | refl => omega
      | tail _ hup => exact absurd (hd _ _ hup) (by omega)
  | attach id parent =>
      rw [Closes, link?]
      by_cases hnone : (d.node id).parent = none <;> simp [hnone]

theorem Closes.cyclic (h : e.Fits d) (hd : d.Bounded) (hc : e.Closes d) :
    ∃ i, (e.apply d).Cyclic i := by
  obtain ⟨a, b, hlink, hreach⟩ := (closes_iff h hd).mp hc
  refine ⟨a, .head' ((up_apply h).mpr (.inr hlink)) ?_⟩
  exact Relation.ReflTransGen.mono (fun i p hup => (up_apply h).mpr (.inl hup)) _ _ hreach

theorem grounded_apply (h : e.Fits d) (hd : d.Bounded) (hground : ∀ i, d.Grounded i)
    (hc : ¬ e.Closes d) (i : Nat) : (e.apply d).Grounded i := by
  -- above a node from which the new link is not reached nothing has changed
  have hclear : ∀ j, (∀ a b, e.link? d = some (a, b) → ¬ Relation.ReflTransGen d.Up j a) →
      (e.apply d).Grounded j := by
    intro j
    induction hground j with
    | intro j _ ih =>
        intro hj
        refine .intro j fun q hq => ?_
        rcases (up_apply h).mp hq with hup | hlink
        · exact ih q hup fun a b hab hreach => hj a b hab (.head hup hreach)
        · exact absurd .refl (hj j q hlink)
  induction hground i with
  | intro i _ ih =>
      refine .intro i fun q hq => ?_
      rcases (up_apply h).mp hq with hup | hlink
      · exact ih q hup
      · refine hclear q fun a b hab hreach => hc ((closes_iff h hd).mpr ⟨i, q, hlink, ?_⟩)
        rw [hlink] at hab
        cases hab
        exact hreach

end Edit

theorem attach_iff (hid : id < d.size) :
    (d.attach id parent).1 = true ↔ (d.attach id parent).2 ≠ d := by
  rw [attach, Option.isNone_iff_eq_none]
  constructor
  · intro hnone hsame
    have hparent := parent_attach (p := parent) hid id
    rw [attach, hsame, if_pos rfl, hnone] at hparent
    cases hparent
  · intro hne
    by_contra hsome
    obtain ⟨q, hq⟩ := Option.ne_none_iff_exists'.mp hsome
    have hget : d.get? id = some (d.node id) := by
      rw [node, get?, Array.getElem?_eq_getElem hid]
      rfl
    have hsame : ((d.node id).parent <|> some parent) = (d.node id).parent := by
      rw [hq]
      rfl
    refine hne (ext_get? fun j => ?_)
    rw [setParent, get?_update]
    split
    · next hj => rw [← hj, hget, Option.map_some, hsame]
    · rfl

/-! ### All edits -/

variable {es : List Edit}

theorem Up.edited (h : d.Admits es) (hup : d.Up i p) : (d.edited es).Up i p := by
  induction es generalizing d with
  | nil => exact hup
  | cons e es ih => exact ih h.2 ((Edit.up_apply h.1).mpr (.inl hup))

theorem Cyclic.edited (h : d.Admits es) (hi : d.Cyclic i) : (d.edited es).Cyclic i :=
  Relation.TransGen.mono (fun _ _ hup => Up.edited h hup) _ _ hi

theorem Bounded.edited (h : d.Admits es) (hd : d.Bounded) : (d.edited es).Bounded := by
  induction es generalizing d with
  | nil => exact hd
  | cons e es ih => exact ih h.2 (Edit.bounded_apply h.1 hd)

theorem Grounded.edited (h : d.Admits es) (hd : d.Bounded) (hground : ∀ i, d.Grounded i)
    (hc : ∀ before e after, es = before ++ e :: after → ¬ e.Closes (d.edited before)) :
    ∀ i, (d.edited es).Grounded i := by
  induction es generalizing d with
  | nil => exact hground
  | cons e es ih =>
      have hstep := Edit.grounded_apply h.1 hd hground (hc [] e es rfl)
      refine ih h.2 (Edit.bounded_apply h.1 hd) hstep fun before e' after hes => ?_
      exact hc (e :: before) e' after (by rw [hes, List.cons_append])

theorem bounded_empty : (∅ : Document).Bounded :=
  fun _ _ hup => absurd hup.lt (Nat.not_lt_zero _)

theorem grounded_empty (i : Nat) : (∅ : Document).Grounded i :=
  grounded_of_parent (parent_of_size_le (Nat.zero_le i))

/-- The document that some edits build. -/
def built (es : List Edit) : Document :=
  (∅ : Document).edited es

theorem grounded_built_iff (h : (∅ : Document).Admits es) : (∀ i, (built es).Grounded i) ↔
    ∀ before e after, es = before ++ e :: after → ¬ e.Closes (built before) := by
  constructor
  · rintro hground before e after rfl hc
    obtain ⟨hbefore, hrest⟩ := h.append
    obtain ⟨i, hi⟩ := hc.cyclic hrest.1 (bounded_empty.edited hbefore)
    have hlast := hi.edited hrest.2
    refine (hground i).not_cyclic ?_
    rw [built, edited_append]
    exact hlast
  · exact Grounded.edited h bounded_empty grounded_empty

/-- The value of a name in the first scope that has one, however far up that is. -/
def lookupWithin (d : Document) (n i : Nat) (name : String) : Option (Option Value) :=
  d.seekWithin (fun j => (d.node j).scope.get? name) n i

/-- The nearest container at or above a node, however far up that is. -/
def nearestWithin (d : Document) (n i : Nat) : Option (Option Nat) :=
  d.seekWithin (fun j => if (d.node j).container.isSome then some j else none) n i

theorem lookupWithin_of_walkWithin {n : Nat} (h : d.walkWithin n i = some (d.ancestors i))
    (name : String) : d.lookupWithin n i name = some (d.lookup? i name) :=
  seekWithin_of_walkWithin _ h

theorem nearestWithin_of_walkWithin {n : Nat} (h : d.walkWithin n i = some (d.ancestors i)) :
    d.nearestWithin n i = some (d.nearestContainer? i) := by
  rw [nearestWithin, seekWithin_of_walkWithin _ h, nearestContainer?]
  congr 1
  induction d.ancestors i with
  | nil => rfl
  | cons a l ih =>
      rw [List.findSome?_cons, List.find?_cons, ih]
      cases (d.node a).container.isSome <;> rfl

/-- However a document has been built: a parent that was set stays, setting one says whether it did,
and going up ends from every node exactly if no edit has made a node its own ancestor.  Where it
ends, so does every search among the ancestors. -/
theorem links_built (h : (∅ : Document).Admits es) :
    (∀ before after, es = before ++ after → ∀ i p,
      ((built before).node i).parent = some p → ((built es).node i).parent = some p) ∧
    (∀ id parent, id < (built es).size →
      (((built es).attach id parent).1 = true ↔ ((built es).attach id parent).2 ≠ built es)) ∧
    ((∀ i < (built es).size, ∃ n, (built es).walkWithin n i = some ((built es).ancestors i)) ↔
      ∀ before e after, es = before ++ e :: after → ¬ e.Closes (built before)) ∧
    ∀ i n, (built es).walkWithin n i = some ((built es).ancestors i) →
      (∀ name, (built es).lookupWithin n i name = some ((built es).lookup? i name)) ∧
        (built es).nearestWithin n i = some ((built es).nearestContainer? i) := by
  refine ⟨?_, fun id parent hid => attach_iff hid, ?_, fun i n hwalk =>
    ⟨lookupWithin_of_walkWithin hwalk, nearestWithin_of_walkWithin hwalk⟩⟩
  · rintro before after rfl i p hup
    rw [built, edited_append]
    exact Up.edited h.append.2 hup
  · rw [← grounded_built_iff h]
    constructor
    · intro hwalk i
      by_cases hi : i < (built es).size
      · obtain ⟨n, hn⟩ := hwalk i hi
        exact grounded_of_walkWithin hn
      · exact grounded_of_parent (parent_of_size_le (Nat.le_of_not_lt hi))
    · intro hground i hi
      exact (hground i).exists_walk (bounded_empty.edited h) hi

/-- Three nodes in a row, linked from the last to the first, and a parent that comes too late. -/
def ladder : List Edit :=
  [.push (.literal "x" ⟨0, 1⟩), .push (.root [0] ⟨0, 1⟩), .push (.root [1] ⟨0, 1⟩),
    .attach 1 2, .attach 0 1, .attach 0 2]

theorem links_ladder : (∅ : Document).Admits ladder ∧ ((built ladder).node 0).parent = some 1 ∧
    ∀ before e after, ladder = before ++ e :: after → ¬ e.Closes (built before) := by
  have hfits : (∅ : Document).Admits ladder := by
    refine ⟨nofun, nofun, nofun, ?_, ?_, ?_, trivial⟩ <;> exact ⟨by decide, by decide⟩
  obtain ⟨hstays, -, hends, -⟩ := links_built hfits
  refine ⟨hfits, hstays (ladder.take 5) (ladder.drop 5) rfl 0 1 rfl, hends.mp fun i hi => ?_⟩
  match i, hi with
  | 0, _ | 1, _ | 2, _ => exact ⟨3, rfl⟩

/-- Two nodes, each the parent of the other. -/
def knot : List Edit :=
  [.push (.literal "x" ⟨0, 1⟩), .push (.root [0] ⟨0, 1⟩), .attach 0 1, .attach 1 0]

/-- Both parents are set, and there is no end to going up. -/
theorem endless_knot : (∅ : Document).Admits knot ∧ ((built (knot.take 2)).attach 0 1).1 = true ∧
    ((built (knot.take 3)).attach 1 0).1 = true ∧
    ∀ n, (built knot).walkWithin n 0 = none ∧ (built knot).lookupWithin n 0 "y" = none ∧
      (built knot).nearestWithin n 0 = none := by
  have hcyclic : (built knot).Cyclic 0 := .head (b := 1) rfl (.single rfl)
  have hbare : ∀ j, ((built knot).node j).scope.get? "y" = none ∧
      (if ((built knot).node j).container.isSome then some j else none) = none
    | 0 | 1 => ⟨rfl, rfl⟩
    | _ + 2 => ⟨rfl, rfl⟩
  refine ⟨⟨nofun, nofun, ⟨by decide, by decide⟩, ⟨by decide, by decide⟩, trivial⟩, rfl, rfl,
    fun n => ?_⟩
  exact ⟨hcyclic.walkWithin n, hcyclic.seekWithin (fun j => (hbare j).1) n,
    hcyclic.seekWithin (fun j => (hbare j).2) n⟩

end Document

end TagTemplate
