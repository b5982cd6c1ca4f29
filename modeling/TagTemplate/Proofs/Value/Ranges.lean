import TagTemplate.Function
import TagTemplate.Proofs.Value.Rounding

/-! # Ranges

`range` counts from one integer of 64 bits up to another.  The bounds are numbers without their
places, kept within 64 bits, and the items are the doubles nearest to the integers.

* `double_le_double` and `double_lt_double`: the order of rounded integers.
* `range_of_numbers`: the items of a range, or the error of a long one. -/

namespace TagTemplate

namespace Function

open Decimal

/-! ### Integers as doubles -/

/-- The double nearest to an integer. -/
def double (n : ℤ) : Float :=
  nearest (n < 0) n.natAbs 1

theorem signed_natAbs (n : ℤ) : signed (n < 0) (n.natAbs / (1 : ℕ)) = n := by
  rw [Nat.cast_one, div_one, signed, Nat.cast_natAbs, Int.cast_abs]
  split
  · next h =>
    have hneg : (n : ℚ) ≤ 0 := by exact_mod_cast (of_decide_eq_true h).le
    rw [abs_of_nonpos hneg, neg_neg]
  · next h =>
    have hnonneg : (0 : ℚ) ≤ n := by exact_mod_cast not_lt.mp (mt decide_eq_true h)
    rw [abs_of_nonneg hnonneg]

theorem natAbs_lt {n : ℤ} (h : |n| ≤ 2 ^ 63) : (n.natAbs / (1 : ℕ) : ℚ) < 2 ^ (1023 : ℤ) := by
  have hle : (n.natAbs : ℚ) ≤ 2 ^ 63 := by
    rw [Nat.cast_natAbs]
    exact_mod_cast h
  calc (n.natAbs / (1 : ℕ) : ℚ) = n.natAbs := by rw [Nat.cast_one, div_one]
    _ ≤ 2 ^ (63 : ℤ) := by exact_mod_cast hle
    _ < 2 ^ (1023 : ℤ) := zpow_lt_zpow_right₀ (by norm_num) (by norm_num)

variable {m n : ℤ}

theorem isNearest_double (h : |n| ≤ 2 ^ 63) : IsNearest (double n) n := by
  have hnear := isNearest_nearest (n < 0) n.natAbs one_pos (natAbs_lt h)
  rwa [signed_natAbs] at hnear

theorem amount_double (h : |n| ≤ 2 ^ 53) : amount (double n) = .finite n := by
  have hlt := natAbs_lt (h.trans (by norm_num))
  have hkept := amount_nearest (n < 0) n.natAbs one_pos hlt
  rw [signed_natAbs] at hkept
  exact hkept (representable_intCast h)

theorem exists_amount_double (h : |n| ≤ 2 ^ 63) : ∃ s, amount (double n) = .finite s := by
  obtain ⟨p, hp, -⟩ := isNearest_double h
  exact ⟨_, amount_of_parts hp⟩

theorem double_le_double (hm : |m| ≤ 2 ^ 63) (hn : |n| ≤ 2 ^ 63) (h : m ≤ n) :
    double m ≤ double n := by
  rcases h.lt_or_eq with hlt | rfl
  · exact (isNearest_double hm).mono (isNearest_double hn) (Int.cast_lt.mpr hlt)
  · obtain ⟨s, hs⟩ := exists_amount_double hm
    exact (le_iff_of_amount hs hs).mpr le_rfl

/-- Different integers become one double only beyond 53 bits, on one side of zero. -/
theorem double_lt_double (hm : |m| ≤ 2 ^ 63) (hn : |n| ≤ 2 ^ 63) (h : m < n) (hbelow : m < 2 ^ 53)
    (habove : -2 ^ 53 < n) : double m < double n := by
  obtain ⟨s, hs⟩ := exists_amount_double hm
  obtain ⟨t, ht⟩ := exists_amount_double hn
  have hleft : |max m (-2 ^ 53)| ≤ 2 ^ 53 := by
    rw [abs_le]
    omega
  have hright : |min n (2 ^ 53)| ≤ 2 ^ 53 := by
    rw [abs_le]
    omega
  have hsm : s ≤ (max m (-2 ^ 53) : ℤ) := (le_iff_of_amount hs (amount_double hleft)).mp
    (double_le_double hm (hleft.trans (by norm_num)) (le_max_left _ _))
  have htn : (min n (2 ^ 53) : ℤ) ≤ t := (le_iff_of_amount (amount_double hright) ht).mp
    (double_le_double (hright.trans (by norm_num)) hn (min_le_left _ _))
  have hlt : ((max m (-2 ^ 53) : ℤ) : ℚ) < (min n (2 ^ 53) : ℤ) := by
    rw [Int.cast_lt]
    omega
  exact (lt_iff_of_amount hs ht).mpr ((hsm.trans_lt hlt).trans_le htn)

/-! ### Items -/

/-- One double for each integer from `a` up to and without `b`, in their order. -/
structure IsItems (a b : ℤ) (xs : List Float) : Prop where
  length : (xs.length : ℤ) = max 0 (b - a)
  nearest (k : ℕ) (h : k < xs.length) : IsNearest xs[k] (a + k : ℤ)
  kept (k : ℕ) (h : k < xs.length) : |a + k| ≤ 2 ^ 53 → amount xs[k] = .finite (a + k : ℤ)
  sorted : xs.Pairwise (· ≤ ·)
  strict (i j : ℕ) (hij : i < j) (h : j < xs.length) :
    a + i < 2 ^ 53 → -2 ^ 53 < a + j → xs[i] < xs[j] ∧ xs[i] ≠ xs[j]

variable {a b : ℤ}

theorem isItems_doubles {count : ℕ} (ha : -2 ^ 63 ≤ a) (hb : b ≤ 2 ^ 63)
    (hcount : (count : ℤ) = max 0 (b - a)) :
    IsItems a b ((List.range count).map fun k : ℕ => double (a + k)) := by
  have hbits {k : ℕ} (h : k < count) : |a + k| ≤ 2 ^ 63 := by
    rw [abs_le]
    omega
  have hlength : ((List.range count).map fun k : ℕ => double (a + k)).length = count := by
    rw [List.length_map, List.length_range]
  refine ⟨by rw [hlength, hcount], fun k h => ?_, fun k h hkept => ?_, ?_,
    fun i j hij h hi hj => ?_⟩
  · rw [List.getElem_map, List.getElem_range]
    exact isNearest_double (hbits (hlength ▸ h))
  · rw [List.getElem_map, List.getElem_range]
    exact amount_double hkept
  · rw [List.pairwise_map]
    refine List.pairwise_lt_range.imp_of_mem fun hi hj hlt => ?_
    exact double_le_double (hbits (List.mem_range.mp hi)) (hbits (List.mem_range.mp hj)) (by omega)
  · rw [hlength] at h
    simp only [List.getElem_map, List.getElem_range]
    have hlt := double_lt_double (hbits (hij.trans h)) (hbits h) (by omega) hi hj
    exact ⟨hlt, ne_of_float_lt hlt⟩

/-! ### Bounds of 64 bits -/

variable {start stop : Int64}

theorem toInt_sum (stop : Int64) {k : ℕ} (h : start.toInt + k < stop.toInt) :
    (start + .ofNat k).toInt = start.toInt + k := by
  have hleast := start.le_toInt
  have hlt := stop.toInt_lt
  rw [Int64.toInt_add, Int64.toInt_ofNat', Int.add_bmod_bmod]
  have hsize : Int64.size = 2 ^ 64 := rfl
  exact Int.bmod_eq_of_le (by omega) (by omega)

theorem distance_eq (start stop : Int64) :
    (distance start stop : ℤ) = max 0 (min (stop.toInt - start.toInt) (2 ^ 63 - 1)) := by
  rw [distance, Int64.toNatClampNeg, toInt_ofIntClamp]
  omega

/-- What `range` makes of its bounds.  A difference beyond 64 bits counts as the last integer of
64 bits. -/
structure IsRange (start stop : Int64) (result : Except FunctionError Value) : Prop where
  count : (distance start stop : ℤ) = max 0 (min (stop.toInt - start.toInt) (2 ^ 63 - 1))
  sum (k : ℕ) : start.toInt + k < stop.toInt → (start + .ofNat k).toInt = start.toInt + k
  fails : result = .error (.invalidArgument "range"
    (toString (distance start stop) ++ " items exceeds the limit of 10000")) ↔
    10000 < stop.toInt - start.toInt
  items : stop.toInt - start.toInt ≤ 10000 →
    ∃ xs, result = .ok (.list (xs.map .number)) ∧ IsItems start.toInt stop.toInt xs

theorem between_of_le (h : stop.toInt - start.toInt ≤ 10000) :
    ∃ xs, between start stop = .ok (.list (xs.map .number)) ∧
      IsItems start.toInt stop.toInt xs := by
  have hcount := distance_eq start stop
  have hshort : ¬ maxItems < distance start stop := by
    rw [maxItems]
    omega
  refine ⟨(List.range (distance start stop)).map fun k : ℕ => double (start.toInt + k), ?_,
    isItems_doubles start.le_toInt stop.toInt_lt.le (by omega)⟩
  rw [between, if_neg hshort, List.map_map]
  congr 2
  refine List.map_congr_left fun k hk => ?_
  have hk' := List.mem_range.mp hk
  rw [toInt_sum stop (by omega)]
  rfl

theorem isRange_between (start stop : Int64) : IsRange start stop (between start stop) where
  count := distance_eq start stop
  sum _ := toInt_sum stop
  fails := by
    constructor
    · intro heq
      by_contra hle
      obtain ⟨xs, hxs, -⟩ := between_of_le (not_lt.mp hle)
      rw [hxs] at heq
      cases heq
    · intro hlong
      have hcount := distance_eq start stop
      have hlimit : maxItems < distance start stop := by
        rw [maxItems]
        omega
      rw [between, if_pos hlimit, String.append_assoc]
      rfl
  items := between_of_le

/-! ### Arguments -/

/-- The bounds that numbers stand for: integers of 64 bits, from zero for one number alone. -/
inductive Bounds : List Value → Int64 → Int64 → Prop
  | below {v : Value} {x : Float} {stop : Int64} (hv : v.asNumber? = some x)
      (hstop : stop.toInt = (amount x).cut) : Bounds [v] 0 stop
  | between {v w : Value} {x y : Float} {start stop : Int64} (hv : v.asNumber? = some x)
      (hw : w.asNumber? = some y) (hstart : start.toInt = (amount x).cut)
      (hstop : stop.toInt = (amount y).cut) : Bounds [v, w] start stop

theorem bound_of_number {v : Value} {x : Float} (h : v.asNumber? = some x) :
    bound v = .ok (truncated x) := by
  rw [bound, number, h]
  rfl

theorem range_below {v : Value} {stop : Int64} (h : bound v = .ok stop) :
    range [v] = between 0 stop := by
  show (bound v).bind (between 0) = _
  rw [h]
  rfl

theorem range_between {v w : Value} (hv : bound v = .ok start) (hw : bound w = .ok stop) :
    range [v, w] = between start stop := by
  show (bound v).bind (fun a => (bound w).bind (between a)) = _
  rw [hv, hw]
  rfl

/-- The range of one number, or of two. -/
theorem range_of_numbers {arguments : List Value}
    (hlength : arguments.length = 1 ∨ arguments.length = 2)
    (hnumbers : ∀ v ∈ arguments, v.asNumber?.isSome) :
    ∃ start stop, Bounds arguments start stop ∧ IsRange start stop (range arguments) := by
  rcases hlength with hone | htwo
  · obtain ⟨v, rfl⟩ := List.length_eq_one_iff.mp hone
    obtain ⟨x, hx⟩ := Option.isSome_iff_exists.mp (hnumbers v List.mem_cons_self)
    refine ⟨0, truncated x, .below hx (toInt_truncated x), ?_⟩
    rw [range_below (bound_of_number hx)]
    exact isRange_between _ _
  · obtain ⟨v, w, rfl⟩ := List.length_eq_two.mp htwo
    obtain ⟨x, hx⟩ := Option.isSome_iff_exists.mp (hnumbers v List.mem_cons_self)
    obtain ⟨y, hy⟩ := Option.isSome_iff_exists.mp
      (hnumbers w (List.mem_cons_of_mem v List.mem_cons_self))
    refine ⟨truncated x, truncated y, .between hx hy (toInt_truncated x) (toInt_truncated y), ?_⟩
    rw [range_between (bound_of_number hx) (bound_of_number hy)]
    exact isRange_between _ _

theorem range_of_numbers_negative :
    (∀ v ∈ [Value.text "-2.5", .number 3.5], v.asNumber?.isSome) ∧
      ∃ start stop, Bounds [.text "-2.5", .number 3.5] start stop ∧
        IsRange start stop (range [.text "-2.5", .number 3.5]) := by
  have hnumbers : ∀ v ∈ [Value.text "-2.5", .number 3.5], v.asNumber?.isSome := by decide +kernel
  exact ⟨hnumbers, range_of_numbers (.inr rfl) hnumbers⟩

/-- Beyond 53 bits an integer between two doubles becomes one of them. -/
theorem range_merges_integers : ∃ (start stop : Int64) (xs : List Float),
    Bounds [.number 9007199254740992, .number 9007199254740996] start stop ∧
      start.toInt = 2 ^ 53 ∧ stop.toInt = 2 ^ 53 + 4 ∧
      range [.number 9007199254740992, .number 9007199254740996] = .ok (.list (xs.map .number)) ∧
      ¬ (∀ (k : ℕ) (h : k < xs.length), amount xs[k] = .finite (start.toInt + k : ℤ)) ∧
      ¬ xs.Pairwise (· < ·) ∧ ¬ xs.Nodup := by
  have hparts : parts 9007199254740992 = some ⟨false, 2 ^ 52, 1⟩ := by decide +kernel
  have hstart : (truncated 9007199254740992).toInt = 2 ^ 53 := by decide +kernel
  refine ⟨truncated 9007199254740992, truncated 9007199254740996,
    [9007199254740992, 9007199254740992, 9007199254740994, 9007199254740996],
    .between rfl rfl (toInt_truncated _) (toInt_truncated _), hstart, by decide +kernel, rfl,
    fun h => ?_, fun h => ?_, fun h => ?_⟩
  · have hsecond := (amount_of_parts hparts).symm.trans (h 1 (by decide))
    rw [hstart, Amount.finite.injEq] at hsecond
    norm_num [Parts.rational, Parts.size] at hsecond
  · exact ne_of_float_lt (List.rel_of_pairwise_cons h List.mem_cons_self) rfl
  · exact (List.nodup_cons.mp h).1 List.mem_cons_self

end Function

end TagTemplate
