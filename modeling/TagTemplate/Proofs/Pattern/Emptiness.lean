import TagTemplate.Proofs.Pattern.Search

/-! # Empty matches

A pattern that is tried on the empty text shows whether it can match without taking a character
there.  It can do so elsewhere too, unless what it asks of a place holds between words only.

* `exists_empty_iff`: a pattern reaches the position where it begins exactly if it is idle there.
* `isMatch_empty_iff`: the test on the empty text asks whether the pattern is idle there.
* `Steady.proper`: a pattern that asks for no edge of a word and does not match the empty text
  takes a character wherever it matches. -/

namespace TagTemplate

/-- The condition can hold only where a word begins or ends. -/
def Place.isWordEdge : Place → Bool
  | boundary _ | wordStart _ | wordEnd _ => true
  | _ => false

theorem Place.holds_empty {p : Place} (h : p.isWordEdge = false) : p.holds #[] 0 = true := by
  cases p <;> first | rfl | cases h

namespace Pattern

variable {β : Type} {text : Array Char} {p : Pattern} {pos : Nat}

/-! ### Idle patterns -/

theorem search_ne_none_of_idle (p : Pattern) : ∀ k : Nat → Option β,
    p.idle text pos = true → k pos ≠ none → search text p pos k ≠ none := by
  induction p with
  | empty => exact fun k _ hk => hk
  | char cs => exact fun k h _ => absurd h Bool.false_ne_true
  | place q =>
      intro k h hk
      rw [idle] at h
      rw [search, if_pos h]
      exact hk
  | seq a b iha ihb =>
      intro k h hk
      rw [idle, Bool.and_eq_true] at h
      exact iha _ h.1 (ihb k h.2 hk)
  | alt a b iha ihb =>
      intro k h hk hnone
      rw [idle, Bool.or_eq_true] at h
      rw [search, Option.or_eq_none_iff] at hnone
      rcases h with h | h
      · exact iha k h hk hnone.1
      · exact ihb k h hk hnone.2
  | star greedy a iha =>
      intro k _ hk hnone
      rw [search, searchStar_eq] at hnone
      split at hnone
      · exact hk (Option.or_eq_none_iff.mp hnone).2
      · exact hk (Option.or_eq_none_iff.mp hnone).1
  | group name a iha => exact fun k h hk => iha k h hk

/-- A pattern can end where it begins exactly if it is idle there. -/
theorem exists_empty_iff (hpos : pos ≤ text.size) :
    (∃ u ∈ (follow text p { pos } {}).toList, u.pos = pos) ↔ p.idle text pos = true := by
  constructor
  · rintro ⟨u, hu, hpos'⟩
    exact (ends_of_mem_follow hpos hu).idle hpos'
  · intro h
    let here : Nat → Option Unit := fun m => if m = pos then some () else none
    have hsearch := search_ne_none_of_idle p here h (by simp [here])
    rw [← (follow_first text p here).findSome? { pos } hpos, ne_eq, List.findSome?_eq_none_iff]
      at hsearch
    push Not at hsearch
    obtain ⟨u, hu, hne⟩ := hsearch
    refine ⟨u, hu, ?_⟩
    by_contra hpos'
    exact hne (if_neg hpos')

theorem isMatch_empty_iff (p : Pattern) : p.isMatch #[] = true ↔ p.idle #[] 0 = true := by
  rw [← exists_empty_iff (Nat.zero_le _), isMatch, Option.isSome_iff_exists]
  constructor
  · rintro ⟨m, hm⟩
    obtain ⟨_, hsize, hat, _⟩ := find?_eq_some_iff.mp hm
    have hle := (ends_of_matchAt? hsize hat).le_size
    rw [Nat.le_zero.mp hsize] at hat
    exact ⟨_, List.mem_of_head? hat, Nat.le_zero.mp hle⟩
  · rintro ⟨u, hu, _⟩
    cases hat : p.matchAt? #[] 0 with
    | none =>
        rw [List.head?_eq_none_iff.mp hat] at hu
        exact absurd hu List.not_mem_nil
    | some t =>
        refine ⟨⟨0, t.pos, t.groups⟩, find?_eq_some_iff.mpr
          ⟨Nat.le_refl _, Nat.le_refl _, hat, fun pos _ h => absurd h (Nat.not_lt_zero pos)⟩⟩

/-! ### What the empty text decides -/

/-- The pattern is idle somewhere only if it is idle in the empty text. -/
def Decided (p : Pattern) : Prop :=
  ∀ (text : Array Char) (pos : Nat), p.idle text pos = true → p.idle #[] 0 = true

/-- The pattern takes a character whenever it matches. -/
def Proper (p : Pattern) : Prop :=
  ∀ (text : Array Char) (pos : Nat) (t : Trail), pos ≤ text.size →
    p.matchAt? text pos = some t → pos < t.pos

/-- A pattern that the empty text decides, and that does not match there, is proper. -/
theorem Decided.proper (h : p.Decided) (hempty : p.isMatch #[] = false) : p.Proper := by
  intro text pos t hpos hat
  have hends := ends_of_matchAt? hpos hat
  refine Nat.lt_of_le_of_ne hends.le fun heq => ?_
  have hidle := (isMatch_empty_iff p).mpr (h text pos (hends.idle heq.symm))
  rw [hempty] at hidle
  cases hidle

theorem Proper.bounds_of_find? (h : p.Proper) {start : Nat} {m : Match}
    (hm : p.find? text start = some m) :
    start ≤ m.start ∧ m.start < m.stop ∧ m.stop ≤ text.size := by
  obtain ⟨hle, hsize, hat, _⟩ := find?_eq_some_iff.mp hm
  exact ⟨hle, h text m.start _ hsize hat, (Pattern.bounds_of_find? hm).2.2⟩

/-- The pattern asks for no edge of a word. -/
def Steady : Pattern → Prop
  | place p => p.isWordEdge = false
  | seq a b | alt a b => Steady a ∧ Steady b
  | star _ a | group _ a => Steady a
  | empty | char _ => True

theorem Steady.decided : ∀ {p : Pattern}, p.Steady → p.Decided
  | empty, _ => fun _ _ _ => rfl
  | char _, _ => fun _ _ h => absurd h Bool.false_ne_true
  | place _, h => fun _ _ _ => Place.holds_empty h
  | seq a b, ⟨ha, hb⟩ => by
      intro text pos h
      rw [idle, Bool.and_eq_true] at h ⊢
      exact ⟨ha.decided text pos h.1, hb.decided text pos h.2⟩
  | alt a b, ⟨ha, hb⟩ => by
      intro text pos h
      rw [idle, Bool.or_eq_true] at h ⊢
      exact h.imp (ha.decided text pos) (hb.decided text pos)
  | star _ _, _ => fun _ _ _ => rfl
  | group _ a, h => fun text pos hidle => Steady.decided (p := a) h text pos hidle

/-- A pattern that asks for no edge of a word and does not match the empty text is proper. -/
theorem Steady.proper (h : p.Steady) (hempty : p.isMatch #[] = false) : p.Proper :=
  h.decided.proper hempty

/-- Instance that makes the condition computable. -/
instance decidableSteady : (p : Pattern) → Decidable p.Steady
  | place p => inferInstanceAs (Decidable (p.isWordEdge = false))
  | seq a b => @instDecidableAnd _ _ (decidableSteady a) (decidableSteady b)
  | alt a b => @instDecidableAnd _ _ (decidableSteady a) (decidableSteady b)
  | star _ a => decidableSteady a
  | group _ a => decidableSteady a
  | empty => inferInstanceAs (Decidable True)
  | char _ => inferInstanceAs (Decidable True)

end Pattern

end TagTemplate
