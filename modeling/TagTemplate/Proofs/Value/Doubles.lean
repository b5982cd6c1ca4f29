import Mathlib
import TagTemplate.Decimal.Reader

/-! # Doubles and their order

Doubles are compared by the sign, the significand and the exponent that their bits stand for.  All
of them can be compared but those that are not a number.

* `compare_swap` and `compare_eq_none_iff`: the order of two doubles, from either side.
* `isNaN_nearest`: rounding a quotient never gives what is not a number.
* `isNaN_read?_iff`: the only texts read as such are spellings of `nan`. -/

namespace TagTemplate

namespace Decimal

open Float.Model (Format UnpackedFloat)
open Float.Model.UnpackedFloat

/-! ### Order -/

theorem compare_swap (a b : UnpackedFloat) : b.compare a = (a.compare b).map Ordering.swap := by
  cases a with
  | notANumber => cases b <;> rfl
  | infinity s | zero s =>
      cases b with
      | notANumber => cases s <;> rfl
      | infinity t | zero t | finite t => cases s <;> cases t <;> rfl
  | finite s m e =>
      cases b with
      | notANumber => cases s <;> rfl
      | infinity t | zero t => cases s <;> cases t <;> rfl
      | finite t m' e' =>
          have he : compare e' e = (compare e e').swap := Std.OrientedCmp.eq_swap
          have hm : compare m' m = (compare m m').swap := Std.OrientedCmp.eq_swap
          cases s <;> cases t <;> simp [UnpackedFloat.compare, he, hm, Ordering.swap_then]

theorem compare_eq_none_iff (a b : UnpackedFloat) :
    a.compare b = none ↔ a.isNaN = true ∨ b.isNaN = true := by
  cases a with
  | notANumber => simp [UnpackedFloat.compare, UnpackedFloat.isNaN]
  | infinity s | zero s | finite s =>
      cases b with
      | notANumber => cases s <;> simp [UnpackedFloat.compare, UnpackedFloat.isNaN]
      | infinity t | zero t | finite t =>
          cases s <;> cases t <;> simp [UnpackedFloat.compare, UnpackedFloat.isNaN]

theorem compare_self {a : UnpackedFloat} (h : a.isNaN = false) : a.compare a = some .eq := by
  cases a with
  | notANumber => cases h
  | infinity s | zero s => cases s <;> rfl
  | finite s m e => cases s <;> simp [UnpackedFloat.compare]

def compare? (a b : Float) : Option Ordering :=
  a.toModel.unpack.compare b.toModel.unpack

theorem lt_iff (a b : Float) : a < b ↔ compare? a b = some .lt := by
  have hlt : a < b ↔ decide (a.toModel < b.toModel) = true := Iff.rfl
  have hmodel : a.toModel < b.toModel ↔ (compare? a b == some .lt) = true := Iff.rfl
  rw [hlt, decide_eq_true_iff, hmodel, beq_iff_eq]

theorem beq_iff (a b : Float) : (a == b) = true ↔ compare? a b = some .eq := by
  have hmodel : (a == b) = (compare? a b == some .eq) := rfl
  rw [hmodel, beq_iff_eq]

/-! ### Doubles from bits -/

/-- Bits with the largest exponent stand for what is not a number, unless the significand is zero.
All others are kept. -/
theorem ofBits_facts {u : UInt64} (h : u.toNat / 2 ^ 52 % 2 ^ 11 = 2047 → u.toNat % 2 ^ 52 = 0) :
    (Float.ofBits u).toBits = u ∧ (Float.ofBits u).isNaN = false := by
  let bits : BitVec Format.binary64.numBits := u.toBitVec
  have hclash : unpackExponent bits = -1#_ → unpackMantissa bits ≠ 0#_ → False := by
    intro he hm
    have hexponent : u.toNat / 2 ^ 52 % 2 ^ 11 = 2047 := by
      simpa [unpackExponent, bits, Nat.shiftRight_eq_div_pow] using congrArg BitVec.toNat he
    refine hm (BitVec.eq_of_toNat_eq ?_)
    simpa [unpackMantissa, bits] using h hexponent
  have hbits : isNaNBits bits = false := by
    rw [isNaNBits, decide_eq_false_iff_not]
    exact fun ⟨he, hm⟩ => hclash he hm
  have hvalid : Format.binary64.Valid bits := ⟨fun he hm => (hclash he hm).elim⟩
  have hpack : (unpack .binary64 bits).pack .binary64 = bits := pack_unpack_of_valid hvalid
  have hnan : (Float.ofBits u).isNaN = (unpack .binary64 bits).isNaN :=
    congrArg (fun b => (unpack .binary64 b).isNaN) hpack
  refine ⟨congrArg UInt64.ofBitVec hpack, ?_⟩
  rw [hnan, ← Bool.not_eq_true, isNaN_unpack_iff_of_valid hvalid]
  intro heq
  rw [heq, isNaNBits_packedNaN] at hbits
  cases hbits

theorem nearestBits_le (num den : Nat) : nearestBits num den ≤ 2047 * 2 ^ 52 := by
  have hrounded (m n : Nat) :
      (if m < Nat.pow 2 52 then m else min n (2047 * Nat.pow 2 52)) ≤ 2047 * 2 ^ 52 := by
    have hpow : Nat.pow 2 52 = 2 ^ 52 := rfl
    rw [hpow]
    split <;> omega
  unfold nearestBits
  split
  · exact Nat.zero_le _
  · exact hrounded _ _

theorem isNaN_nearest (negative : Bool) (num den : Nat) :
    (nearest negative num den).isNaN = false := by
  have hle := nearestBits_le num den
  have hsign : ∃ k < 2, (if negative = true then Nat.pow 2 63 else 0) = k * 2 ^ 63 := by
    cases negative
    · exact ⟨0, by omega, rfl⟩
    · exact ⟨1, by omega, rfl⟩
  obtain ⟨k, hk, heq⟩ := hsign
  have hlt : nearestBits num den + k * 2 ^ 63 < 2 ^ 64 := by omega
  refine (ofBits_facts fun hexponent => ?_).2
  rw [heq, UInt64.toNat_ofNat', Nat.mod_eq_of_lt hlt] at hexponent ⊢
  omega

/-! ### Readings -/

/-- The text is the word `nan` in any case, after a sign or none. -/
def SpellsNaN (cs : List Char) : Prop :=
  cs.map Char.toLower ∈ ["nan".toList, "-nan".toList, "+nan".toList]

instance (cs : List Char) : Decidable (SpellsNaN cs) :=
  inferInstanceAs (Decidable (_ ∈ _))

theorem isNaN_ofDecimal (negative : Bool) (digits : Nat) (exponent : Int) :
    (ofDecimal negative digits exponent).isNaN = false := by
  unfold ofDecimal
  dsimp only
  split
  · exact isNaN_nearest _ _ _
  · split
    · exact isNaN_nearest _ _ _
    · split
      · exact isNaN_nearest _ _ _
      · split <;> exact isNaN_nearest _ _ _

theorem isNaN_readUnsigned? {negative : Bool} {cs : List Char} {x : Float}
    (h : readUnsigned? negative cs = some x) : x.isNaN = false := by
  unfold readUnsigned? at h
  dsimp only at h
  split at h
  all_goals
    split at h
    · cases h
    · obtain ⟨e, _, rfl⟩ := Option.map_eq_some_iff.mp h
      exact isNaN_ofDecimal _ _ _

theorem isNaN_readAfterSign?_iff (negative : Bool) (cs : List Char) :
    (∃ x, readAfterSign? negative cs = some x ∧ x.isNaN = true) ↔
      cs.map Char.toLower = "nan".toList := by
  have hword : String.ofList (cs.map Char.toLower) = "nan" ↔
      cs.map Char.toLower = "nan".toList := by
    rw [← String.toList_inj, String.toList_ofList]
  rw [← hword]
  unfold readAfterSign?
  dsimp only
  split
  · next hinf =>
    constructor
    · rintro ⟨x, hx, hnan⟩
      cases hx
      rw [isNaN_nearest] at hnan
      cases hnan
    · intro heq
      rw [heq] at hinf
      exact absurd hinf (by decide)
  · split
    · next heq => exact ⟨fun _ => heq, fun _ => ⟨_, rfl, by decide +kernel⟩⟩
    · next hne =>
      refine ⟨?_, fun heq => absurd heq hne⟩
      rintro ⟨x, hx, hnan⟩
      rw [isNaN_readUnsigned? hx] at hnan
      cases hnan

theorem eq_of_toLower {c sign : Char} (h : c.toLower = sign) (hsign : sign = '-' ∨ sign = '+') :
    c = sign := by
  unfold Char.toLower at h
  split at h
  · next hupper =>
    have hval := congrArg (fun c : Char => c.val.toNat) h
    have hle : 65 ≤ c.toNat := UInt32.le_iff_toNat_le.mp hupper.1
    have hge : c.toNat ≤ 90 := UInt32.le_iff_toNat_le.mp hupper.2
    simp only [UInt32.toNat_add, Char.toNat_val] at hval
    rcases hsign with rfl | rfl <;> simp at hval <;> omega
  · exact h

/-- The spellings of `nan` are the texts read as a double that is not a number. -/
theorem isNaN_read?_iff (s : String) :
    (∃ x, read? s = some x ∧ x.isNaN = true) ↔ SpellsNaN s.toList := by
  unfold read? SpellsNaN
  split
  · next cs heq =>
    rw [isNaN_readAfterSign?_iff, heq]
    simp
  · next cs heq =>
    rw [isNaN_readAfterSign?_iff, heq]
    simp
  · next hminus hplus =>
    rw [isNaN_readAfterSign?_iff]
    cases hcs : s.toList with
    | nil => simp
    | cons c cs =>
      have h1 : c.toLower ≠ '-' := fun h => hminus cs (by rw [hcs, eq_of_toLower h (.inl rfl)])
      have h2 : c.toLower ≠ '+' := fun h => hplus cs (by rw [hcs, eq_of_toLower h (.inr rfl)])
      simp [h1, h2]

end Decimal

end TagTemplate
