import TagTemplate.Decimal.Integer
import TagTemplate.Proofs.Value.Doubles

/-! # The amounts of doubles

A double is infinite or not a number, or it stands for a rational number: its significand times a
power of two, with a sign.

* `amount_of_parts`: the rational number, read off the bits.
* `lt_iff_of_amount` and `le_iff_of_amount`: doubles are in the order of their numbers.
* `toInt_truncated`: a double without its places. -/

namespace TagTemplate

namespace Decimal

open Float.Model (Format UnpackedFloat)
open Float.Model.UnpackedFloat

/-- What a double stands for. -/
inductive Amount where
  | notANumber
  | infinite (s : Sign)
  | finite (q : ℚ)

def Amount.ofUnpacked : UnpackedFloat → Amount
  | .notANumber => notANumber
  | .infinity s => infinite s
  | .zero _ => finite 0
  | .finite s m e _ => finite (s.apply m * 2 ^ e)

def amount (x : Float) : Amount :=
  .ofUnpacked x.toModel.unpack

variable {x y : Float} {p q : Parts}

/-! ### Significand and exponent -/

section bits
variable (b : BitVec Format.binary64.numBits)

theorem toNat_unpackMantissa : (unpackMantissa b).toNat = b.toNat % 2 ^ 52 := by
  simp [unpackMantissa]

theorem toNat_unpackExponent : (unpackExponent b).toNat = b.toNat / 2 ^ 52 % 2 ^ 11 := by
  simp [unpackExponent, Nat.shiftRight_eq_div_pow]

theorem toNat_unpackSign : (unpackSign b).toNat = b.toNat / 2 ^ 63 := by
  have hlt : b.toNat < 2 ^ 64 := b.isLt
  simp [unpackSign, Nat.shiftRight_eq_div_pow]
  omega

theorem unpackExponent_eq_ones :
    unpackExponent b = -1#_ ↔ b.toNat / 2 ^ 52 % 2 ^ 11 = 2047 := by
  rw [← BitVec.toNat_inj, toNat_unpackExponent]
  rfl

theorem unpackExponent_eq_zero : unpackExponent b = 0#_ ↔ b.toNat / 2 ^ 52 % 2 ^ 11 = 0 := by
  rw [← BitVec.toNat_inj, toNat_unpackExponent]
  rfl

theorem unpackMantissa_eq_zero : unpackMantissa b = 0#_ ↔ b.toNat % 2 ^ 52 = 0 := by
  rw [← BitVec.toNat_inj, toNat_unpackMantissa]
  rfl

theorem toNat_implicit : (1#1 ++ unpackMantissa b).toNat = b.toNat % 2 ^ 52 + 2 ^ 52 := by
  rw [BitVec.toNat_append, ← Nat.shiftLeft_add_eq_or_of_lt (unpackMantissa b).isLt,
    toNat_unpackMantissa, Nat.add_comm]
  rfl

theorem ofBitVec_unpackSign : Sign.ofBitVec (unpackSign b) =
    if b.toNat / 2 ^ 63 = 1 then .negative else .positive := by
  have hlt : b.toNat < 2 ^ 64 := b.isLt
  have hpositive : unpackSign b = 0#1 ↔ ¬ b.toNat / 2 ^ 63 = 1 := by
    rw [← BitVec.toNat_inj, toNat_unpackSign]
    show b.toNat / 2 ^ 63 = 0 ↔ _
    omega
  rw [Sign.ofBitVec, if_congr hpositive rfl rfl, ite_not]

end bits

namespace Parts

/-- The sign of a finite double. -/
def sign (p : Parts) : Sign :=
  if p.negative then .negative else .positive

/-- The size of the rational number that the parts stand for. -/
def size (p : Parts) : ℚ :=
  p.significand * 2 ^ p.exponent

/-- The rational number that the parts stand for. -/
def rational (p : Parts) : ℚ :=
  if p.negative then -p.size else p.size

/-- The significand has 53 bits, or fewer where the exponent is the least. -/
structure Canonical (p : Parts) : Prop where
  lt : p.significand < 2 ^ 53
  least : -1074 ≤ p.exponent
  full : 2 ^ 52 ≤ p.significand ∨ p.exponent = -1074

theorem size_nonneg (p : Parts) : 0 ≤ p.size := by
  rw [size]
  positivity

end Parts

theorem parts_eq (x : Float) : parts x =
    if x.toBits.toNat / 2 ^ 52 % 2 ^ 11 = 2047 then none
    else if x.toBits.toNat / 2 ^ 52 % 2 ^ 11 = 0 then
      some ⟨x.toBits.toNat / 2 ^ 63 = 1, x.toBits.toNat % 2 ^ 52, -1074⟩
    else some ⟨x.toBits.toNat / 2 ^ 63 = 1, x.toBits.toNat % 2 ^ 52 + 2 ^ 52,
      (x.toBits.toNat / 2 ^ 52 % 2 ^ 11 : Nat) - 1075⟩ :=
  rfl

theorem canonical_of_parts (h : parts x = some p) : p.Canonical := by
  rw [parts_eq] at h
  split at h
  · cases h
  · split at h
    · cases h
      exact ⟨by dsimp only; omega, by dsimp only; omega, .inr rfl⟩
    · cases h
      exact ⟨by dsimp only; omega, by dsimp only; omega, .inl (by dsimp only; omega)⟩

theorem unpack_of_parts (h : parts x = some p) : x.toModel.unpack =
    if hzero : p.significand = 0 then .zero p.sign
    else .finite p.sign p.significand p.exponent (Nat.pos_of_ne_zero hzero) := by
  let b : BitVec Format.binary64.numBits := x.toBits.toBitVec
  have hbits : x.toBits.toNat = b.toNat := rfl
  show unpack Format.binary64 b = _
  rw [parts_eq, hbits] at h
  unfold unpack
  dsimp only
  rw [ofBitVec_unpackSign]
  split at h
  · cases h
  · next hfinite =>
    rw [if_neg (mt (unpackExponent_eq_ones b).mp hfinite)]
    split at h
    · next hsub =>
      rw [if_pos ((unpackExponent_eq_zero b).mpr hsub)]
      cases h
      simp only [unpackMantissa_eq_zero b, Parts.sign, decide_eq_true_eq, toNat_unpackMantissa,
        toNat_unpackExponent, hsub]
      rfl
    · next hnormal =>
      rw [if_neg (mt (unpackExponent_eq_zero b).mp hnormal)]
      cases h
      rw [dif_neg (by dsimp only; omega)]
      simp only [toNat_implicit b, Parts.sign, decide_eq_true_eq, toNat_unpackExponent]
      rfl

theorem unpack_of_parts_eq_none (h : parts x = none) :
    x.toModel.unpack = .notANumber ∨ ∃ s, x.toModel.unpack = .infinity s := by
  let b : BitVec Format.binary64.numBits := x.toBits.toBitVec
  have hbits : x.toBits.toNat = b.toNat := rfl
  have hones : unpackExponent b = -1#_ := by
    rw [unpackExponent_eq_ones]
    rw [parts_eq, hbits] at h
    split at h
    · assumption
    · split at h <;> cases h
  show unpack Format.binary64 b = _ ∨ ∃ s, unpack Format.binary64 b = _
  unfold unpack
  dsimp only
  rw [if_pos hones]
  split
  · exact .inr ⟨_, rfl⟩
  · exact .inl rfl

theorem amount_of_parts (h : parts x = some p) : amount x = .finite p.rational := by
  rw [amount, unpack_of_parts h]
  split
  · next hzero =>
    have hsize : p.size = 0 := by
      rw [Parts.size, hzero, Nat.cast_zero, zero_mul]
    rw [Amount.ofUnpacked, Parts.rational, hsize, neg_zero, ite_self]
  · rw [Amount.ofUnpacked, Parts.sign, Parts.rational, Parts.size]
    split <;> simp [Sign.apply]

theorem exists_parts_of_amount {r : ℚ} (h : amount x = .finite r) :
    ∃ p, parts x = some p ∧ p.Canonical ∧ p.rational = r := by
  cases hp : parts x with
  | some p =>
      rw [amount_of_parts hp] at h
      cases h
      exact ⟨p, rfl, canonical_of_parts hp, rfl⟩
  | none =>
      rw [amount] at h
      rcases unpack_of_parts_eq_none hp with heq | ⟨s, heq⟩ <;> (rw [heq] at h; cases h)

/-! ### Order -/

theorem Parts.Canonical.size_lt (hp : p.Canonical) (hq : q.Canonical)
    (h : p.exponent < q.exponent) : p.size < q.size := by
  have hfull : 2 ^ 52 ≤ q.significand := by
    refine hq.full.resolve_right fun hleast => ?_
    have := hp.least
    omega
  have hp' : (p.significand : ℚ) < 2 ^ 53 := by
    exact_mod_cast hp.lt
  have hq' : (2 : ℚ) ^ 52 ≤ q.significand := by
    exact_mod_cast hfull
  calc p.size < 2 ^ 53 * 2 ^ p.exponent := by
        rw [Parts.size]
        gcongr
    _ = 2 ^ 52 * 2 ^ (p.exponent + 1) := by
        rw [zpow_add_one₀ (by norm_num)]
        ring
    _ ≤ 2 ^ 52 * 2 ^ q.exponent := by
        gcongr
        · norm_num
        · omega
    _ ≤ q.size := by
        rw [Parts.size]
        gcongr

/-- Exponents and then significands are in the order of the sizes. -/
theorem Parts.Canonical.compare_size (hp : p.Canonical) (hq : q.Canonical) :
    (compare p.exponent q.exponent).then (compare p.significand q.significand) =
      compare p.size q.size := by
  rcases lt_trichotomy p.exponent q.exponent with h | h | h
  · rw [compare_lt_iff_lt.mpr h, compare_lt_iff_lt.mpr (hp.size_lt hq h)]
    rfl
  · rw [compare_eq_iff_eq.mpr h, Ordering.eq_then]
    have hpos : (0 : ℚ) < 2 ^ q.exponent := by positivity
    have hlt (m n : ℕ) : (m : ℚ) * 2 ^ q.exponent < n * 2 ^ q.exponent ↔ m < n := by
      rw [mul_lt_mul_iff_left₀ hpos, Nat.cast_lt]
    rw [Parts.size, Parts.size, h]
    rcases lt_trichotomy p.significand q.significand with h' | h' | h'
    · rw [compare_lt_iff_lt.mpr h', compare_lt_iff_lt.mpr ((hlt _ _).mpr h')]
    · rw [compare_eq_iff_eq.mpr h', h', compare_eq_iff_eq.mpr rfl]
    · rw [compare_gt_iff_gt.mpr h', compare_gt_iff_gt.mpr ((hlt _ _).mpr h')]
  · rw [compare_gt_iff_gt.mpr h, compare_gt_iff_gt.mpr (hq.size_lt hp h)]
    rfl

theorem Parts.rational_eq_zero (h : p.significand = 0) : p.rational = 0 := by
  have hsize : p.size = 0 := by
    rw [size, h, Nat.cast_zero, zero_mul]
  rw [rational, hsize, neg_zero, ite_self]

theorem Parts.size_pos (h : p.significand ≠ 0) : 0 < p.size := by
  have hpos : (0 : ℚ) < p.significand := Nat.cast_pos.mpr (Nat.pos_of_ne_zero h)
  rw [size]
  positivity

theorem compare_neg (a b : ℚ) : compare (-a) (-b) = (compare a b).swap := by
  rcases lt_trichotomy a b with h | h | h
  · rw [compare_lt_iff_lt.mpr h, compare_gt_iff_gt.mpr (neg_lt_neg h)]
    rfl
  · rw [compare_eq_iff_eq.mpr h, compare_eq_iff_eq.mpr (congrArg Neg.neg h)]
    rfl
  · rw [compare_gt_iff_gt.mpr h, compare_lt_iff_lt.mpr (neg_lt_neg h)]
    rfl

/-- Finite doubles are compared as the rational numbers that they stand for. -/
theorem compare?_of_parts (hx : parts x = some p) (hy : parts y = some q) :
    compare? x y = some (compare p.rational q.rational) := by
  have hsizes := (canonical_of_parts hx).compare_size (canonical_of_parts hy)
  rw [compare?, unpack_of_parts hx, unpack_of_parts hy]
  obtain ⟨s, m, e⟩ := p
  obtain ⟨t, n, f⟩ := q
  by_cases hm : m = 0
  · have hzero : (⟨s, m, e⟩ : Parts).rational = 0 := Parts.rational_eq_zero hm
    rw [dif_pos hm, hzero]
    by_cases hn : n = 0
    · have hzero' : (⟨t, n, f⟩ : Parts).rational = 0 := Parts.rational_eq_zero hn
      rw [dif_pos hn, hzero', compare_eq_iff_eq.mpr rfl]
      rfl
    · have hpos := Parts.size_pos (p := ⟨t, n, f⟩) hn
      rw [dif_neg hn]
      cases t with
      | false => exact congrArg some (compare_lt_iff_lt.mpr hpos).symm
      | true => exact congrArg some (compare_gt_iff_gt.mpr (neg_neg_of_pos hpos)).symm
  · have hpos := Parts.size_pos (p := ⟨s, m, e⟩) hm
    rw [dif_neg hm]
    by_cases hn : n = 0
    · have hzero : (⟨t, n, f⟩ : Parts).rational = 0 := Parts.rational_eq_zero hn
      rw [dif_pos hn, hzero]
      cases s with
      | false => exact congrArg some (compare_gt_iff_gt.mpr hpos).symm
      | true => exact congrArg some (compare_lt_iff_lt.mpr (neg_neg_of_pos hpos)).symm
    · have hpos' := Parts.size_pos (p := ⟨t, n, f⟩) hn
      rw [dif_neg hn]
      cases s <;> cases t
      · exact congrArg some hsizes
      · exact congrArg some (compare_gt_iff_gt.mpr ((neg_neg_of_pos hpos').trans hpos)).symm
      · exact congrArg some (compare_lt_iff_lt.mpr ((neg_neg_of_pos hpos).trans hpos')).symm
      · exact congrArg some ((congrArg Ordering.swap hsizes).trans (compare_neg _ _).symm)

theorem compare?_of_amount {r t : ℚ} (hx : amount x = .finite r) (hy : amount y = .finite t) :
    compare? x y = some (compare r t) := by
  obtain ⟨p, hp, -, rfl⟩ := exists_parts_of_amount hx
  obtain ⟨q, hq, -, rfl⟩ := exists_parts_of_amount hy
  exact compare?_of_parts hp hq

theorem lt_iff_of_amount {r t : ℚ} (hx : amount x = .finite r) (hy : amount y = .finite t) :
    x < y ↔ r < t := by
  rw [lt_iff, compare?_of_amount hx hy, Option.some_inj, compare_lt_iff_lt]

theorem le_iff_of_amount {r t : ℚ} (hx : amount x = .finite r) (hy : amount y = .finite t) :
    x ≤ y ↔ r ≤ t := by
  have hle : x ≤ y ↔ ((compare? x y).any Ordering.isLE) = true := by
    have hle : x ≤ y ↔ decide (x.toModel ≤ y.toModel) = true := Iff.rfl
    rw [hle, decide_eq_true_iff]
    rfl
  rw [hle, compare?_of_amount hx hy, Option.any_some, Ordering.isLE_iff_ne_gt,
    compare_gt_iff_gt, not_lt]

theorem ne_of_float_lt {x y : Float} (h : x < y) : x ≠ y := by
  rintro rfl
  have hself := (lt_iff x x).mp h
  have hswap := hself
  rw [compare?, compare_swap, ← compare?, hself] at hswap
  cases hswap

/-! ### Truncation -/

/-- The integer part of a rational number, towards zero. -/
def truncate (q : ℚ) : ℤ :=
  if 0 ≤ q then ⌊q⌋ else ⌈q⌉

/-- The integer that a double is truncated to.  Beyond 64 bits it is the last integer of 64 bits,
and what is not a number becomes zero. -/
def Amount.cut : Amount → ℤ
  | notANumber => 0
  | infinite .negative => -2 ^ 63
  | infinite .positive => 2 ^ 63 - 1
  | finite q => max (-2 ^ 63) (min (truncate q) (2 ^ 63 - 1))

theorem toInt_ofIntClamp (n : ℤ) :
    (Int64.ofIntClamp n).toInt = max (-2 ^ 63) (min n (2 ^ 63 - 1)) := by
  have hleast : Int64.minValue.toInt = -2 ^ 63 := rfl
  have hmost : Int64.maxValue.toInt = 2 ^ 63 - 1 := rfl
  rw [Int64.ofIntClamp]
  split
  · split
    · rw [Int64.toInt_ofIntLE]
      omega
    · omega
  · omega

theorem two_zpow_of_neg {e : ℤ} (h : e < 0) :
    (2 : ℚ) ^ e = ((Nat.pow 2 (-e).toNat : ℕ) : ℚ)⁻¹ := by
  have hpow : Nat.pow 2 (-e).toNat = 2 ^ (-e).toNat := rfl
  rw [hpow, Nat.cast_pow, Nat.cast_ofNat, ← zpow_natCast, ← zpow_neg,
    Int.toNat_of_nonneg (by omega), neg_neg]

theorem two_zpow_of_nonneg {e : ℤ} (h : ¬ e < 0) :
    (2 : ℚ) ^ e = (Nat.pow 2 e.toNat : ℕ) := by
  have hpow : Nat.pow 2 e.toNat = 2 ^ e.toNat := rfl
  rw [hpow, Nat.cast_pow, Nat.cast_ofNat, ← zpow_natCast, Int.toNat_of_nonneg (by omega)]

theorem floor_size (p : Parts) : ⌊p.size⌋ =
    ((if p.exponent < 0 then p.significand / Nat.pow 2 (-p.exponent).toNat
      else p.significand * Nat.pow 2 p.exponent.toNat : ℕ) : ℤ) := by
  rw [Parts.size]
  split
  · next h =>
    rw [two_zpow_of_neg h, ← div_eq_mul_inv]
    exact_mod_cast Rat.floor_natCast_div_natCast p.significand (Nat.pow 2 (-p.exponent).toNat)
  · next h =>
    rw [two_zpow_of_nonneg h]
    exact_mod_cast Int.floor_natCast (p.significand * Nat.pow 2 p.exponent.toNat)

theorem whole_eq (p : Parts) : p.whole = truncate p.rational := by
  have hsize := p.size_nonneg
  rw [Parts.whole, ← floor_size, Parts.rational, truncate]
  cases p.negative with
  | false => rw [if_neg Bool.false_ne_true, if_neg Bool.false_ne_true, if_pos hsize]
  | true =>
      rw [if_pos rfl, if_pos rfl]
      split
      · next h =>
        have hzero : p.size = 0 := le_antisymm (neg_nonneg.mp h) hsize
        rw [hzero, neg_zero, Int.floor_zero, neg_zero]
      · rw [Int.ceil_neg]

theorem toInt_truncated (x : Float) : (truncated x).toInt = (amount x).cut := by
  rw [truncated]
  cases hp : parts x with
  | some p =>
      dsimp only
      rw [amount_of_parts hp, Amount.cut, toInt_ofIntClamp, whole_eq]
  | none =>
      dsimp only
      rcases unpack_of_parts_eq_none hp with heq | ⟨s, heq⟩
      · have hnan : x.isNaN = true := congrArg UnpackedFloat.isNaN heq
        rw [if_pos hnan, amount, heq]
        rfl
      · have hnan : ¬ x.isNaN = true := ne_true_of_eq_false (congrArg UnpackedFloat.isNaN heq)
        have hneg : x < 0 ↔ s = .negative := by
          have hzero : (0 : Float).toModel.unpack = .zero .positive := rfl
          rw [lt_iff, compare?, heq, hzero]
          cases s <;> simp [UnpackedFloat.compare]
        rw [if_neg hnan, amount, heq]
        cases s with
        | negative =>
            rw [if_pos (hneg.mpr rfl)]
            rfl
        | positive =>
            have hnonneg : ¬ x < 0 := fun hlt => by cases hneg.mp hlt
            rw [if_neg hnonneg]
            rfl

end Decimal

end TagTemplate
