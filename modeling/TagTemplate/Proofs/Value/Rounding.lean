import TagTemplate.Proofs.Value.Amounts

/-! # Rounding to doubles

Doubles are the multiples of powers of two with significands of 53 bits and exponents from -1074 on.
A quotient is rounded to a multiple of one power of two, such that it has 53 bits, or fewer with the
least exponent.

* `Rounded`: the significand and the exponent of a rounded quotient.
* `isNearest_nearest`: no double is nearer to a quotient than the one that it is rounded to.
* `IsNearest.mono`: rounding keeps the order. -/

namespace TagTemplate

namespace Decimal

/-! ### Rounding to an integer -/

theorem div_le_half_iff {r den : ℕ} (h : 0 < den) : (r : ℚ) / den ≤ 1 / 2 ↔ 2 * r ≤ den := by
  rw [div_le_div_iff₀ (Nat.cast_pos.mpr h) (by norm_num), mul_comm, one_mul]
  exact_mod_cast Iff.rfl

theorem half_le_div_iff {r den : ℕ} (h : 0 < den) : 1 / 2 ≤ (r : ℚ) / den ↔ den ≤ 2 * r := by
  rw [div_le_div_iff₀ (by norm_num) (Nat.cast_pos.mpr h), mul_comm _ (2 : ℚ), one_mul]
  exact_mod_cast Iff.rfl

/-- The rounded quotient is at most a half away, and even if it is just a half away. -/
theorem roundDiv_near (num : ℕ) {den : ℕ} (h : 0 < den) :
    |(roundDiv num den : ℚ) - num / den| ≤ 1 / 2 ∧
      (|(roundDiv num den : ℚ) - num / den| = 1 / 2 → roundDiv num den % 2 = 0) := by
  obtain ⟨d, r, hd, hr, rfl⟩ : ∃ d r, num / den = d ∧ num % den = r ∧ num = den * d + r :=
    ⟨_, _, rfl, rfl, (Nat.div_add_mod num den).symm⟩
  have hlt : r < den := hr ▸ Nat.mod_lt _ h
  have hden : (0 : ℚ) < den := Nat.cast_pos.mpr h
  have hquot : ((den * d + r : ℕ) : ℚ) / den = d + r / den := by
    push_cast
    field_simp
  have hnonneg : (0 : ℚ) ≤ r / den := by positivity
  have hone : (r : ℚ) / den < 1 := by
    rw [div_lt_one hden]
    exact_mod_cast hlt
  have hlow := div_le_half_iff (r := r) h
  have hhigh := half_le_div_iff (r := r) h
  rw [hquot, roundDiv, hd, hr]
  split
  · next hup =>
    have habs : |((d + 1 : ℕ) : ℚ) - (d + r / den)| = 1 - r / den := by
      push_cast
      rw [add_sub_add_left_eq_sub, abs_of_nonneg (by linarith)]
    have hle := hhigh.mpr (by omega)
    rw [habs]
    refine ⟨by linarith, fun heq => ?_⟩
    have := hlow.mp (by linarith)
    omega
  · next hdown =>
    have habs : |(d : ℚ) - (d + r / den)| = r / den := by
      rw [sub_add_cancel_left, abs_neg, abs_of_nonneg hnonneg]
    have hle := hlow.mpr (by omega)
    rw [habs]
    refine ⟨hle, fun heq => ?_⟩
    have := hhigh.mp heq.ge
    omega

/-- No integer is nearer than one at most a half away, and another one is as near only at a half. -/
theorem near_int {m : ℕ} {x : ℚ} (h : |m - x| ≤ 1 / 2) (k : ℤ) :
    |m - x| ≤ |k - x| ∧ (|m - x| = |k - x| → k = m ∨ |m - x| = 1 / 2) := by
  by_cases hk : k = m
  · rw [hk, Int.cast_natCast]
    exact ⟨le_rfl, fun _ => .inl rfl⟩
  · have hone : (1 : ℚ) ≤ |(k : ℚ) - m| := by
      exact_mod_cast Int.one_le_abs (sub_ne_zero.mpr hk)
    have htri : |(k : ℚ) - m| ≤ |k - x| + |m - x| := by
      rw [abs_sub_comm (m : ℚ) x]
      exact abs_sub_le _ _ _
    exact ⟨by linarith, fun heq => .inr (by linarith)⟩

theorem scaledDiv_eq (num : ℕ) {den : ℕ} (h : 0 < den) (q : ℤ) : ∃ n d : ℕ, 0 < d ∧
    scaledDiv num den q = roundDiv n d ∧ (n : ℚ) / d = num / den / 2 ^ q := by
  rw [scaledDiv]
  split
  · next hq =>
    refine ⟨num * Nat.pow 2 (-q).toNat, den, h, rfl, ?_⟩
    rw [two_zpow_of_neg hq, Nat.cast_mul, div_inv_eq_mul, div_mul_eq_mul_div]
  · next hq =>
    refine ⟨num, den * Nat.pow 2 q.toNat, Nat.mul_pos h (Nat.two_pow_pos _), rfl, ?_⟩
    rw [two_zpow_of_nonneg hq, Nat.cast_mul, div_div]

/-! ### The exponent -/

theorem belowPower_iff (num : ℕ) {den : ℕ} (h : 0 < den) (e : ℤ) :
    belowPower num den e = true ↔ (num : ℚ) / den < 2 ^ e := by
  have hden : (0 : ℚ) < den := Nat.cast_pos.mpr h
  rw [belowPower]
  split
  · next he =>
    have hpos : (0 : ℚ) < Nat.pow 2 (-e).toNat := Nat.cast_pos.mpr (Nat.two_pow_pos _)
    rw [two_zpow_of_neg he, decide_eq_true_iff, div_lt_iff₀ hden, inv_mul_eq_div,
      lt_div_iff₀ hpos]
    exact_mod_cast Iff.rfl
  · next he =>
    rw [two_zpow_of_nonneg he, decide_eq_true_iff, div_lt_iff₀ hden, mul_comm _ (den : ℚ)]
    exact_mod_cast Iff.rfl

theorem bounds_of_top {num den : ℕ} (hnum : num ≠ 0) (hden : 0 < den) {top : ℤ}
    (htop : top = if belowPower num den ((num.log2 : ℤ) - den.log2) then
      (num.log2 : ℤ) - den.log2 - 1 else (num.log2 : ℤ) - den.log2) :
    (2 : ℚ) ^ top ≤ num / den ∧ (num : ℚ) / den < 2 ^ (top + 1) := by
  have hpos : (0 : ℚ) < den := Nat.cast_pos.mpr hden
  have hnum₁ : (2 : ℚ) ^ num.log2 ≤ num := by exact_mod_cast Nat.log2_self_le hnum
  have hnum₂ : (num : ℚ) < 2 ^ (num.log2 + 1) := by exact_mod_cast Nat.lt_log2_self
  have hden₁ : (2 : ℚ) ^ den.log2 ≤ den := by exact_mod_cast Nat.log2_self_le hden.ne'
  have hden₂ : (den : ℚ) < 2 ^ (den.log2 + 1) := by exact_mod_cast Nat.lt_log2_self
  let e : ℤ := (num.log2 : ℤ) - den.log2
  have hlow : (2 : ℚ) ^ (e - 1) ≤ num / den := by
    rw [le_div_iff₀ hpos]
    calc (2 : ℚ) ^ (e - 1) * den ≤ 2 ^ (e - 1) * 2 ^ (den.log2 + 1) := by gcongr
      _ = 2 ^ num.log2 := by
        rw [← zpow_natCast, ← zpow_natCast, ← zpow_add₀ (by norm_num)]
        congr 1
        push_cast
        ring
      _ ≤ num := hnum₁
  have hhigh : (num : ℚ) / den < 2 ^ (e + 1) := by
    rw [div_lt_iff₀ hpos]
    calc (num : ℚ) < 2 ^ (num.log2 + 1) := hnum₂
      _ = 2 ^ (e + 1) * 2 ^ den.log2 := by
        rw [← zpow_natCast, ← zpow_natCast, ← zpow_add₀ (by norm_num)]
        congr 1
        push_cast
        ring
      _ ≤ 2 ^ (e + 1) * den := by gcongr
  have hiff := belowPower_iff num hden e
  split at htop
  · next hbelow =>
    rw [htop]
    exact ⟨hlow, by rw [sub_add_cancel]; exact hiff.mp hbelow⟩
  · next hbelow =>
    rw [htop]
    exact ⟨not_lt.mp (mt hiff.mpr hbelow), hhigh⟩

/-- A number rounded to the integer `m` times `2 ^ q`. -/
structure Rounded (r : ℚ) (m : ℕ) (q : ℤ) : Prop where
  near : |(m : ℚ) - r / 2 ^ q| ≤ 1 / 2
  tie : |(m : ℚ) - r / 2 ^ q| = 1 / 2 → m % 2 = 0
  least : -1074 ≤ q
  full : 2 ^ 52 ≤ r / 2 ^ q ∨ q = -1074
  lt : r / 2 ^ q < 2 ^ 53

/-- The bits of `m * 2 ^ q`.  A significand of 54 bits is carried into the exponent. -/
def magnitudeBits (m : ℕ) (q : ℤ) : ℕ :=
  if m < Nat.pow 2 52 then m
  else min ((q + 1075).toNat * Nat.pow 2 52 + (m - Nat.pow 2 52)) (2047 * Nat.pow 2 52)

theorem exists_rounded (num : ℕ) {den : ℕ} (h : 0 < den) : ∃ m q,
    Rounded (num / den) m q ∧ nearestBits num den = magnitudeBits m q := by
  rw [nearestBits]
  split
  · next hzero =>
    refine ⟨0, -1074, ⟨?_, fun _ => rfl, le_rfl, .inr rfl, ?_⟩, rfl⟩ <;> norm_num [hzero]
  · next hnum =>
    dsimp only
    generalize htop : (if belowPower num den ((num.log2 : ℤ) - den.log2) then
      (num.log2 : ℤ) - den.log2 - 1 else (num.log2 : ℤ) - den.log2) = top
    obtain ⟨hlow, hhigh⟩ := bounds_of_top hnum h htop.symm
    obtain ⟨n, d, hd, hscaled, hquot⟩ := scaledDiv_eq num h (max (top - 52) (-1074))
    obtain ⟨hnear, htie⟩ := roundDiv_near n hd
    rw [← hscaled, hquot] at hnear htie
    refine ⟨_, _, ⟨hnear, htie, le_max_right _ _, ?_, ?_⟩, rfl⟩
    · rcases le_total (-1074) (top - 52) with hmax | hmax
      · rw [max_eq_left hmax, le_div_iff₀ (by positivity)]
        refine .inl (le_trans (le_of_eq ?_) hlow)
        rw [← zpow_natCast, ← zpow_add₀ (by norm_num)]
        congr 1
        push_cast
        ring
      · exact .inr (max_eq_right hmax)
    · rw [div_lt_iff₀ (by positivity)]
      calc (num : ℚ) / den < 2 ^ (top + 1) := hhigh
        _ ≤ 2 ^ (53 + max (top - 52) (-1074)) :=
          zpow_le_zpow_right₀ (by norm_num) (by omega)
        _ = 2 ^ 53 * 2 ^ max (top - 52) (-1074) := by
          rw [zpow_add₀ (by norm_num)]
          norm_num

namespace Rounded

variable {r : ℚ} {m : ℕ} {q : ℤ}

theorem le (h : Rounded r m q) : m ≤ 2 ^ 53 := by
  have hnear := (abs_le.mp h.near).2
  have hlt : (m : ℚ) < (2 ^ 53 + 1 : ℕ) := by
    push_cast
    linarith [h.lt]
  exact Nat.lt_succ_iff.mp (Nat.cast_lt.mp hlt)

theorem canonical (h : Rounded r m q) : 2 ^ 52 ≤ m ∨ q = -1074 := by
  refine h.full.imp_left fun hfull => ?_
  have hnear := (abs_le.mp h.near).1
  have hlt : ((2 ^ 52 : ℕ) : ℚ) < (m + 1 : ℕ) := by
    push_cast
    linarith
  exact Nat.lt_succ_iff.mp (Nat.cast_lt.mp hlt)

theorem exponent_le (h : Rounded r m q) (hr : r < 2 ^ (1023 : ℤ)) : q ≤ 970 := by
  rcases h.full with hfull | rfl
  · rw [le_div_iff₀ (by positivity), ← zpow_natCast, ← zpow_add₀ (by norm_num)] at hfull
    have hlt := (zpow_lt_zpow_iff_right₀ (by norm_num)).mp (hfull.trans_lt hr)
    push_cast at hlt
    omega
  · decide

end Rounded

/-! ### Bits -/

theorem parts_fields (negative : Bool) (biased fraction : ℕ) (hb : biased < 2047)
    (hf : fraction < 2 ^ 52) :
    parts (.ofBits (.ofNat (biased * 2 ^ 52 + fraction + if negative then 2 ^ 63 else 0))) =
      if biased = 0 then some ⟨negative, fraction, -1074⟩
      else some ⟨negative, fraction + 2 ^ 52, (biased : ℤ) - 1075⟩ := by
  obtain ⟨k, hk, hsign, hneg⟩ : ∃ k < 2, (if negative then 2 ^ 63 else 0) = k * 2 ^ 63 ∧
      decide (k = 1) = negative := by
    cases negative
    · exact ⟨0, by omega, rfl, rfl⟩
    · exact ⟨1, by omega, rfl, rfl⟩
  have hlt : biased * 2 ^ 52 + fraction + k * 2 ^ 63 < 2 ^ 64 := by omega
  have hnat := Nat.mod_eq_of_lt hlt
  rw [← UInt64.toNat_ofNat'] at hnat
  have hexponent : (biased * 2 ^ 52 + fraction + k * 2 ^ 63) / 2 ^ 52 % 2 ^ 11 = biased := by omega
  have hfraction : (biased * 2 ^ 52 + fraction + k * 2 ^ 63) % 2 ^ 52 = fraction := by omega
  have htop : (biased * 2 ^ 52 + fraction + k * 2 ^ 63) / 2 ^ 63 = k := by omega
  have hbits := (ofBits_facts (u := .ofNat (biased * 2 ^ 52 + fraction + k * 2 ^ 63)) (by
    rw [hnat, hexponent]
    omega)).1
  rw [hsign, parts_eq, hbits, hnat, hexponent, hfraction, htop, hneg, if_neg hb.ne]

theorem parts_magnitudeBits (negative : Bool) {m : ℕ} {q : ℤ} (hm : m ≤ 2 ^ 53)
    (hfull : 2 ^ 52 ≤ m ∨ q = -1074) (hleast : -1074 ≤ q) (hq : q ≤ 970) :
    ∃ p, parts (.ofBits (.ofNat (magnitudeBits m q + if negative then 2 ^ 63 else 0))) = some p ∧
      p.negative = negative ∧ p.size = m * 2 ^ q ∧ (m % 2 = 0 → p.significand % 2 = 0) := by
  have hpow : Nat.pow 2 52 = 2 ^ 52 := rfl
  rw [magnitudeBits, hpow]
  split
  · next hsub =>
    obtain rfl := hfull.resolve_left hsub.not_ge
    have hparts := parts_fields negative 0 m (by decide) hsub
    rw [zero_mul, zero_add, if_pos rfl] at hparts
    exact ⟨_, hparts, rfl, rfl, id⟩
  · next hnormal =>
    obtain ⟨n, rfl, hpos, hn⟩ : ∃ n : ℕ, q = (n : ℤ) - 1075 ∧ n ≠ 0 ∧ n < 2046 :=
      ⟨(q + 1075).toNat, by omega, by omega, by omega⟩
    rw [sub_add_cancel, Int.toNat_natCast]
    rcases hm.lt_or_eq with hlt | rfl
    · have hparts := parts_fields negative n (m - 2 ^ 52) (by omega) (by omega)
      rw [if_neg hpos, Nat.sub_add_cancel (not_lt.mp hnormal)] at hparts
      rw [min_eq_left (by omega)]
      exact ⟨_, hparts, rfl, rfl, id⟩
    · -- The significand is carried: half of it, with the exponent above.
      have hparts := parts_fields negative (n + 1) 0 (by omega) (by decide)
      rw [if_neg n.succ_ne_zero, zero_add] at hparts
      rw [min_eq_left (by omega),
        show n * 2 ^ 52 + (2 ^ 53 - 2 ^ 52) = (n + 1) * 2 ^ 52 + 0 by omega]
      refine ⟨_, hparts, rfl, ?_, fun _ => by norm_num⟩
      rw [Parts.size]
      push_cast
      rw [add_sub_right_comm, zpow_add_one₀ (by norm_num)]
      ring

/-! ### The nearest double -/

/-- No double is nearer to a number than `x`, and if another one is as near, `x` has an even
significand. -/
def IsNearest (x : Float) (r : ℚ) : Prop :=
  ∃ p, parts x = some p ∧ ∀ y s, amount y = .finite s → |p.rational - r| ≤ |s - r| ∧
    (|p.rational - r| = |s - r| → s = p.rational ∨ p.significand % 2 = 0)

/-- The number has a significand and an exponent of doubles. -/
def Representable (s : ℚ) : Prop :=
  ∃ (t e : ℤ), |t| < 2 ^ 53 ∧ -1074 ≤ e ∧ s = t * 2 ^ e

theorem Representable.neg {s : ℚ} (h : Representable s) : Representable (-s) := by
  obtain ⟨t, e, ht, he, rfl⟩ := h
  exact ⟨-t, e, by rwa [abs_neg], he, by push_cast; ring⟩

theorem representable_of_amount {x : Float} {s : ℚ} (h : amount x = .finite s) :
    Representable s := by
  obtain ⟨p, -, hp, rfl⟩ := exists_parts_of_amount h
  have hsize : Representable p.size :=
    ⟨p.significand, p.exponent, by exact_mod_cast hp.lt, hp.least, rfl⟩
  rw [Parts.rational]
  split
  · exact hsize.neg
  · exact hsize

theorem representable_intCast {n : ℤ} (h : |n| ≤ 2 ^ 53) : Representable n := by
  rcases h.lt_or_eq with hlt | heq
  · exact ⟨n, 0, hlt, by decide, by rw [zpow_zero, mul_one]⟩
  · have hlast : Representable ((2 : ℚ) ^ 53) := ⟨2 ^ 52, 1, by norm_num, by decide, by norm_num⟩
    rcases eq_or_eq_neg_of_abs_eq heq with rfl | rfl
    · exact_mod_cast hlast
    · exact_mod_cast hlast.neg

namespace Rounded

variable {r : ℚ} {m : ℕ} {q : ℤ}

/-- Of the numbers with the exponents of doubles the rounded one is nearest. -/
theorem nearest (h : Rounded r m q) {s : ℚ} (hs : Representable s) :
    |m * 2 ^ q - r| ≤ |s - r| ∧ (|m * 2 ^ q - r| = |s - r| → s = m * 2 ^ q ∨ m % 2 = 0) := by
  obtain ⟨t, e, ht, he, rfl⟩ := hs
  have hpos : (0 : ℚ) < 2 ^ q := by positivity
  have hscale (u : ℚ) : |u * 2 ^ q - r| = |u - r / 2 ^ q| * 2 ^ q := by
    rw [← abs_of_pos hpos, ← abs_mul, abs_of_pos hpos, sub_mul, div_mul_cancel₀ _ hpos.ne']
  rcases le_or_gt q e with hqe | hqe
  · -- Multiples of the power of two: integers in its measure.
    obtain ⟨n, rfl⟩ : ∃ n : ℕ, e = q + n := ⟨(e - q).toNat, by omega⟩
    have hmul : (t : ℚ) * 2 ^ (q + n) = ((t * 2 ^ n : ℤ) : ℚ) * 2 ^ q := by
      rw [zpow_add₀ (by norm_num), zpow_natCast]
      push_cast
      ring
    obtain ⟨hle, htie⟩ := near_int h.near (t * 2 ^ n)
    rw [hmul, hscale, hscale]
    refine ⟨mul_le_mul_of_nonneg_right hle hpos.le, fun heq => ?_⟩
    rcases htie (mul_right_cancel₀ hpos.ne' heq) with hsame | hhalf
    · rw [hsame, Int.cast_natCast]
      exact .inl rfl
    · exact .inr (h.tie hhalf)
  · -- Finer numbers are below all 53 bits, and the rounded one is above.
    have hfull := h.full.resolve_right (by omega)
    have hlt : (t : ℚ) * 2 ^ e < 2 ^ 52 * 2 ^ q := by
      have ht' : (t : ℚ) < 2 ^ 53 := by exact_mod_cast (abs_lt.mp ht).2
      calc (t : ℚ) * 2 ^ e < 2 ^ 53 * 2 ^ e := by gcongr
        _ = 2 ^ 52 * 2 ^ (e + 1) := by
          rw [zpow_add_one₀ (by norm_num)]
          ring
        _ ≤ 2 ^ 52 * 2 ^ q := by
          gcongr
          · norm_num
          · omega
    have hle := (near_int h.near (2 ^ 52)).1
    have hfar : |(m : ℚ) * 2 ^ q - r| < |t * 2 ^ e - r| := by
      have hbelow : 2 ^ 52 * 2 ^ q ≤ r := (le_div_iff₀ hpos).mp hfull
      calc |(m : ℚ) * 2 ^ q - r| = |m - r / 2 ^ q| * 2 ^ q := hscale _
        _ ≤ |((2 ^ 52 : ℤ) : ℚ) - r / 2 ^ q| * 2 ^ q := by gcongr
        _ = r - 2 ^ 52 * 2 ^ q := by
          rw [← hscale, abs_sub_comm, Int.cast_pow, Int.cast_ofNat, abs_of_nonneg (by linarith)]
        _ < r - t * 2 ^ e := by linarith
        _ ≤ |t * 2 ^ e - r| := by
          rw [abs_sub_comm]
          exact le_abs_self _
    exact ⟨hfar.le, fun heq => absurd heq hfar.ne⟩

end Rounded

def signed (negative : Bool) (r : ℚ) : ℚ :=
  if negative then -r else r

/-- No number with a significand and an exponent of doubles is nearer to a quotient than the double
that it is rounded to. -/
theorem exists_parts_nearest (negative : Bool) (num : ℕ) {den : ℕ} (hden : 0 < den)
    (h : (num / den : ℚ) < 2 ^ (1023 : ℤ)) : ∃ p, parts (nearest negative num den) = some p ∧
      ∀ s, Representable s →
        |p.rational - signed negative (num / den)| ≤ |s - signed negative (num / den)| ∧
        (|p.rational - signed negative (num / den)| = |s - signed negative (num / den)| →
          s = p.rational ∨ p.significand % 2 = 0) := by
  obtain ⟨m, q, hrounded, hbits⟩ := exists_rounded num hden
  obtain ⟨p, hp, rfl, hsize, heven⟩ := parts_magnitudeBits negative hrounded.le
    hrounded.canonical hrounded.least (hrounded.exponent_le h)
  have hnear {s : ℚ} (hs : Representable s) : |p.size - num / den| ≤ |s - num / den| ∧
      (|p.size - num / den| = |s - num / den| → s = p.size ∨ p.significand % 2 = 0) := by
    rw [hsize]
    exact (hrounded.nearest hs).imp_right fun htie heq => (htie heq).imp_right heven
  refine ⟨p, ?_, fun s hs => ?_⟩
  · rw [nearest, hbits]
    exact hp
  · rw [Parts.rational, signed]
    split
    · have hneg := hnear hs.neg
      rwa [← abs_neg (p.size - _), ← abs_neg (-s - _), neg_sub', neg_sub', neg_neg,
        neg_eq_iff_eq_neg] at hneg
    · exact hnear hs

theorem isNearest_nearest (negative : Bool) (num : ℕ) {den : ℕ} (hden : 0 < den)
    (h : (num / den : ℚ) < 2 ^ (1023 : ℤ)) :
    IsNearest (nearest negative num den) (signed negative (num / den)) := by
  obtain ⟨p, hp, hnear⟩ := exists_parts_nearest negative num hden h
  exact ⟨p, hp, fun y s hs => hnear s (representable_of_amount hs)⟩

theorem amount_nearest (negative : Bool) (num : ℕ) {den : ℕ} (hden : 0 < den)
    (h : (num / den : ℚ) < 2 ^ (1023 : ℤ)) (hr : Representable (signed negative (num / den))) :
    amount (nearest negative num den) = .finite (signed negative (num / den)) := by
  obtain ⟨p, hp, hnear⟩ := exists_parts_nearest negative num hden h
  have hzero := (hnear _ hr).1
  rw [sub_self, abs_zero, abs_nonpos_iff, sub_eq_zero] at hzero
  rw [amount_of_parts hp, hzero]

theorem IsNearest.mono {x y : Float} {r t : ℚ} (hx : IsNearest x r) (hy : IsNearest y t)
    (h : r < t) : x ≤ y := by
  obtain ⟨p, hp, hpnear⟩ := hx
  obtain ⟨q, hq, hqnear⟩ := hy
  have hleft := (hpnear y _ (amount_of_parts hq)).1
  have hright := (hqnear x _ (amount_of_parts hp)).1
  rw [le_iff_of_amount (amount_of_parts hp) (amount_of_parts hq)]
  by_contra hlt
  have hpos := mul_pos (sub_pos.mpr (not_le.mp hlt)) (sub_pos.mpr h)
  rw [← sq_le_sq] at hleft hright
  linarith

end Decimal

end TagTemplate
