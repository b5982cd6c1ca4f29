import Mathlib.Algebra.Group.Nat.Defs
import Mathlib.Tactic.Common
import TagTemplate.Function
import TagTemplate.Proofs.Text.Trimming

/-! # Base64

Bytes are cut into numbers of six bits, `sextets`, and each is written as a digit.  A text of digits
is read by groups of four, and the last group may be padded.

* `encode_eq`: the digits of the sextets, and the padding behind them.
* `decode_eq_ok_iff`: the texts that are read are those that are written.
* `isForm_encode`: the bits of the bytes stand in the digits one after another.
* `Function.base64_roundTrip`: the two functions of expressions undo each other. -/

namespace TagTemplate

namespace Text.Base64

/-! ### Digits -/

theorem digit_of_value? {b : UInt8} {v : Nat} (h : value? b = some v) : v < 64 ∧ digit v = b := by
  have hall : ∀ n < 256, ∀ v ∈ value? (UInt8.ofNat n), v < 64 ∧ digit v = UInt8.ofNat n := by
    decide +kernel
  have hb := hall b.toNat b.toNat_lt
  rw [UInt8.ofNat_toNat] at hb
  exact hb v h

theorem digit_facts {n : Nat} (h : n < 64) : digit n ≠ pad ∧ (digit n).toNat < 128 ∧
    Text.isWhiteSpace (Char.ofNat (digit n).toNat) = false := by
  revert n
  decide

/-! ### Sextets -/

/-- The values of the digits of a list of bytes. -/
def sextets : List UInt8 → List Nat
  | [] => []
  | [a] => [a.toNat / 4, a.toNat % 4 * 16]
  | [a, b] => [a.toNat / 4, a.toNat % 4 * 16 + b.toNat / 16, b.toNat % 16 * 4]
  | a :: b :: c :: rest =>
    (a.toNat / 4) :: (a.toNat % 4 * 16 + b.toNat / 16) :: (b.toNat % 16 * 4 + c.toNat / 64)
      :: (c.toNat % 64) :: sextets rest

/-- What fills up the last group of `n` bytes. -/
def padding (n : Nat) : List UInt8 :=
  List.replicate ((3 - n % 3) % 3) pad

theorem encode_eq (bs : List UInt8) : encode bs = (sextets bs).map digit ++ padding bs.length := by
  fun_induction encode bs with
  | case1 | case2 | case3 => rfl
  | case4 a b c rest ih =>
    have hpad : padding (rest.length + 1 + 1 + 1) = padding rest.length := by
      rw [padding, padding, Nat.add_assoc, Nat.add_assoc, Nat.add_mod_right]
    rw [ih]
    simp only [sextets, List.map_cons, List.cons_append, List.length_cons, hpad]

theorem bytes_sextets (bs : List UInt8) : bytes (sextets bs) = bs := by
  have hbyte (a : UInt8) {n : Nat} (h : n = a.toNat) : UInt8.ofNat n = a := by
    rw [h, UInt8.ofNat_toNat]
  fun_induction sextets bs with
  | case1 => rfl
  | case2 a =>
    rw [bytes, hbyte a (by omega)]
  | case3 a b =>
    have := b.toNat_lt
    rw [bytes, hbyte a (by omega), hbyte b (by omega)]
  | case4 a b c rest ih =>
    have := b.toNat_lt
    have := c.toNat_lt
    rw [bytes, ih, hbyte a (by omega), hbyte b (by omega), hbyte c (by omega)]

theorem sextets_lt (bs : List UInt8) : ∀ v ∈ sextets bs, v < 64 := by
  fun_induction sextets bs with
  | case1 => simp
  | case2 a =>
    have := a.toNat_lt
    simp
    omega
  | case3 a b =>
    have := a.toNat_lt
    have := b.toNat_lt
    simp
    omega
  | case4 a b c rest ih =>
    have := a.toNat_lt
    have := b.toNat_lt
    have := c.toNat_lt
    simp only [List.mem_cons, forall_eq_or_imp]
    exact ⟨by omega, by omega, by omega, by omega, ih⟩

theorem values_map_digit {vs : List Nat} (h : ∀ v ∈ vs, v < 64) (offset : Nat) :
    values offset (vs.map digit) = .ok vs := by
  induction vs generalizing offset with
  | nil => rfl
  | cons v vs ih =>
    obtain ⟨hv, hvs⟩ := List.forall_mem_cons.mp h
    rw [List.map_cons, values, value?_digit hv, ih hvs]
    rfl

theorem eq_map_digit_of_values {offset : Nat} {bs : List UInt8} {vs : List Nat}
    (h : values offset bs = .ok vs) : bs = vs.map digit ∧ ∀ v ∈ vs, v < 64 := by
  induction bs generalizing offset vs with
  | nil =>
    cases h
    exact ⟨rfl, by simp⟩
  | cons b bs ih =>
    rw [values] at h
    split at h
    · cases h
    · next v hv =>
      cases hrest : values (offset + 1) bs with
      | error e =>
        rw [hrest] at h
        cases h
      | ok ws =>
        rw [hrest] at h
        cases h
        obtain ⟨hlt, hdigit⟩ := digit_of_value? hv
        obtain ⟨hbs, hws⟩ := ih hrest
        exact ⟨by rw [List.map_cons, hdigit, ← hbs], List.forall_mem_cons.mpr ⟨hlt, hws⟩⟩

/-! ### Whole groups -/

theorem sextets_append {as : List UInt8} (h : as.length % 3 = 0) (bs : List UInt8) :
    sextets (as ++ bs) = sextets as ++ sextets bs := by
  fun_induction sextets as with
  | case1 => rfl
  | case2 | case3 => cases h
  | case4 a b c rest ih =>
    have hrest : rest.length % 3 = 0 := by
      simpa [Nat.add_assoc] using h
    simp only [List.cons_append, sextets, ih hrest]

theorem quads {P : (vs : List Nat) → vs.length % 4 = 0 → Prop} (nil : P [] rfl)
    (group : ∀ a b c d vs h h', P vs h → P (a :: b :: c :: d :: vs) h') :
    ∀ vs h, P vs h
  | [], _ => nil
  | [_], h | [_, _], h | [_, _, _], h => by cases h
  | a :: b :: c :: d :: vs, h => by
    have hvs : vs.length % 4 = 0 := by
      simpa [Nat.add_assoc] using h
    exact group a b c d vs hvs h (quads nil group vs hvs)

theorem encode_append {as : List UInt8} (h : as.length % 3 = 0) (bs : List UInt8) :
    encode (as ++ bs) = (sextets as).map digit ++ encode bs := by
  have hlen : padding (as ++ bs).length = padding bs.length := by
    rw [padding, padding, List.length_append, Nat.add_mod, h, Nat.zero_add, Nat.mod_mod]
  rw [encode_eq, encode_eq, hlen, sextets_append h, List.map_append, List.append_assoc]

theorem length_bytes {vs : List Nat} (h : vs.length % 4 = 0) : (bytes vs).length % 3 = 0 := by
  induction vs, h using quads with
  | nil => rfl
  | group a b c d vs _ _ ih =>
    rw [bytes]
    simpa [Nat.add_assoc] using ih

theorem sextets_bytes {vs : List Nat} (h : vs.length % 4 = 0) (hlt : ∀ v ∈ vs, v < 64) :
    sextets (bytes vs) = vs := by
  induction vs, h using quads with
  | nil => rfl
  | group a b c d vs _ _ ih =>
    simp only [List.forall_mem_cons] at hlt
    obtain ⟨ha, hb, hc, hd, hvs⟩ := hlt
    simp only [bytes, sextets, ih hvs, UInt8.toNat_ofNat', List.cons.injEq, and_true]
    omega

theorem length_encode (bs : List UInt8) : (encode bs).length = (bs.length + 2) / 3 * 4 := by
  fun_induction encode bs with
  | case1 | case2 | case3 => simp
  | case4 a b c rest ih =>
    simp only [List.length_cons, ih]
    omega

/-! ### The last group -/

theorem takeWhile_digits {vs : List Nat} (h : ∀ v ∈ vs, v < 64) (n : Nat) :
    (vs.map digit ++ padding n).takeWhile (· ≠ pad) = vs.map digit ∧
      (vs.map digit ++ padding n).dropWhile (· ≠ pad) = padding n := by
  have hdigits : ∀ d ∈ vs.map digit, decide (d ≠ pad) = true := by
    intro d hd
    obtain ⟨v, hv, rfl⟩ := List.mem_map.mp hd
    exact decide_eq_true (digit_facts (h v hv)).1
  have hpad : (padding n).takeWhile (· ≠ pad) = [] ∧
      (padding n).dropWhile (· ≠ pad) = padding n := by
    rw [padding]
    cases (3 - n % 3) % 3 <;> exact ⟨rfl, rfl⟩
  rw [List.takeWhile_append_of_pos hdigits, List.dropWhile_append_of_pos hdigits, hpad.1, hpad.2,
    List.append_nil]
  exact ⟨rfl, rfl⟩

/-- A last group that is read is made of digits and of nothing but padding behind them. -/
theorem decodeLast_ok {offset : Nat} {group bs : List UInt8}
    (h : decodeLast offset group = .ok bs) : ∃ (vs : List Nat) (n : Nat),
      group = vs.map digit ++ List.replicate n pad ∧ (∀ v ∈ vs, v < 64) ∧ bs = bytes vs ∧
        (group ≠ [] → 2 ≤ vs.length) ∧ (vs.length + n) % 4 = 0 ∧ spareBits vs = 0 := by
  have hsplit := List.takeWhile_append_dropWhile (p := (· ≠ pad)) (l := group)
  rw [decodeLast] at h
  generalize group.takeWhile (· ≠ pad) = digits at h hsplit
  generalize group.dropWhile (· ≠ pad) = rest at h hsplit
  split at h
  · cases h
  · next vs hvs =>
    obtain ⟨rfl, hlt⟩ := eq_map_digit_of_values hvs
    split_ifs at h with hpad hshort hlen hspare
    obtain rfl := (Except.ok.inj h).symm
    rw [List.length_map] at hpad hshort hlen
    have hrest : ∀ b ∈ rest, b = pad := by
      intro b hb
      by_contra hne
      have hany : rest.any (· ≠ pad) = true := List.any_eq_true.mpr ⟨b, hb, decide_eq_true hne⟩
      exact hpad ⟨List.ne_nil_of_mem hb, .inr hany⟩
    rw [List.eq_replicate_of_mem hrest] at hsplit
    exact ⟨vs, rest.length, hsplit.symm, hlt, rfl,
      fun hne => Nat.le_of_not_lt fun hlt => hshort ⟨hne, hlt⟩, by omega, by omega⟩

theorem encode_bytes_last {vs : List Nat} {n : Nat} (hlt : ∀ v ∈ vs, v < 64)
    (hleast : 2 ≤ vs.length) (hlen : vs.length + n = 4) (hspare : spareBits vs = 0) :
    encode (bytes vs) = vs.map digit ++ List.replicate n pad := by
  suffices h : sextets (bytes vs) = vs ∧ padding (bytes vs).length = List.replicate n pad by
    rw [encode_eq, h.1, h.2]
  obtain rfl : n = 4 - vs.length := by omega
  match vs, hleast, hlen with
  | [a, b], _, _ =>
    simp only [List.forall_mem_cons] at hlt
    rw [spareBits] at hspare
    simp only [bytes, sextets, UInt8.toNat_ofNat', List.cons.injEq, and_true]
    exact ⟨by omega, rfl⟩
  | [a, b, c], _, _ =>
    simp only [List.forall_mem_cons] at hlt
    rw [spareBits] at hspare
    simp only [bytes, sextets, UInt8.toNat_ofNat', List.cons.injEq, and_true]
    exact ⟨by omega, rfl⟩
  | [a, b, c, d], _, _ => exact ⟨sextets_bytes (by simp) hlt, by simp [bytes, padding]⟩
  | _ :: _ :: _ :: _ :: _ :: _, _, hlen =>
    simp only [List.length_cons] at hlen
    omega

theorem decodeLast_eq_ok_iff {offset : Nat} {group bs : List UInt8} (hlen : group.length ≤ 4) :
    decodeLast offset group = .ok bs ↔ encode bs = group := by
  constructor
  · intro h
    obtain ⟨vs, n, rfl, hlt, rfl, hleast, hmod, hspare⟩ := decodeLast_ok h
    rw [List.length_append, List.length_map, List.length_replicate] at hlen
    by_cases hnil : vs.map digit ++ List.replicate n pad = []
    · obtain ⟨hvs, hn⟩ := List.append_eq_nil_iff.mp hnil
      obtain rfl := List.map_eq_nil_iff.mp hvs
      rw [hnil]
      rfl
    · exact encode_bytes_last hlt (hleast hnil) (by have := hleast hnil; omega) hspare
  · rintro rfl
    have hthree : bs.length ≤ 3 := by
      rw [length_encode] at hlen
      omega
    obtain ⟨hdigits, hpadding⟩ := takeWhile_digits (sextets_lt bs) bs.length
    rw [encode_eq, decodeLast]
    simp only [hdigits, hpadding, values_map_digit (sextets_lt bs), bytes_sextets]
    match bs, hthree with
    | [], _ => rfl
    | [_], _ | [_, _], _ | [_, _, _], _ => simp [padding, sextets, spareBits, List.replicate]

/-! ### All groups -/

/-- A list is made of whole groups and a last one, which is empty for the empty list only. -/
theorem exists_groups {α : Type} {n : Nat} (hn : 0 < n) (l : List α) :
    ∃ front last, l = front ++ last ∧ front.length % n = 0 ∧ last.length ≤ n ∧
      (last.length = 0 → front.length = 0) := by
  have hdiv := Nat.div_add_mod (l.length - 1) n
  have hmod := Nat.mod_lt (l.length - 1) hn
  refine ⟨l.take (n * ((l.length - 1) / n)), l.drop (n * ((l.length - 1) / n)),
    (List.take_append_drop _ l).symm, ?_, ?_, ?_⟩
  · rw [List.length_take, Nat.min_eq_left (by omega), Nat.mul_mod_right]
  · rw [List.length_drop]
    omega
  · rw [List.length_drop, List.length_take]
    omega

theorem decode_append_eq_ok_iff {front last bs : List UInt8} (hfront : front.length % 4 = 0)
    (hlast : last.length ≤ 4) (hnil : last.length = 0 → front.length = 0) :
    decode (front ++ last) = .ok bs ↔
      ∃ vs r, values 0 front = .ok vs ∧ encode r = last ∧ bytes vs ++ r = bs := by
  have hwhole : (if (front ++ last).length % 4 = 0 then (front ++ last).length - 4
      else (front ++ last).length - (front ++ last).length % 4) = front.length := by
    rw [List.length_append]
    split <;> omega
  rw [decode]
  dsimp only
  rw [hwhole, List.take_left, List.drop_left]
  constructor
  · intro h
    split at h
    · cases h
    · split at h
      · cases h
      · next vs hvs =>
        cases hr : decodeLast front.length last with
        | error e =>
          rw [hr] at h
          cases h
        | ok r =>
          rw [hr] at h
          exact ⟨vs, r, hvs, (decodeLast_eq_ok_iff hlast).mp hr, Except.ok.inj h⟩
  · rintro ⟨vs, r, hvs, hr, rfl⟩
    have hlen := length_encode r
    rw [hr] at hlen
    rw [if_neg (by rw [List.length_append]; omega), hvs]
    dsimp only
    rw [(decodeLast_eq_ok_iff hlast).mpr hr]
    rfl

theorem decode_eq_ok_iff {input bs : List UInt8} : decode input = .ok bs ↔ encode bs = input := by
  constructor
  · intro h
    obtain ⟨front, last, rfl, hfront, hlast, hnil⟩ := exists_groups (n := 4) (by decide) input
    obtain ⟨vs, r, hvs, rfl, rfl⟩ := (decode_append_eq_ok_iff hfront hlast hnil).mp h
    obtain ⟨rfl, hlt⟩ := eq_map_digit_of_values hvs
    rw [List.length_map] at hfront
    rw [encode_append (length_bytes hfront), sextets_bytes hfront hlt]
  · rintro rfl
    obtain ⟨front, r, rfl, hfront, hr, hnil⟩ := exists_groups (n := 3) (by decide) bs
    have hlen := congrArg List.length (encode_append hfront [])
    rw [List.append_nil, encode, List.append_nil, length_encode, List.length_map] at hlen
    have hdigits : ((sextets front).map digit).length = (front.length + 2) / 3 * 4 := by
      rw [List.length_map, hlen]
    have hlast := length_encode r
    rw [encode_append hfront]
    exact (decode_append_eq_ok_iff (by omega) (by omega) (by omega)).mpr ⟨sextets front, r,
      values_map_digit (sextets_lt front) 0, rfl, by rw [bytes_sextets]⟩

/-- A bit that stands for no byte is set: `QR==` is not how the byte of `QQ==` is written. -/
example : decode [81, 81, 61, 61] = .ok [65] ∧
    decode [81, 82, 61, 61] = .error (.lastSymbol 1 82) := by
  decide

/-! ### Bits -/

/-- The lowest bits of a number, the highest of them first. -/
def bits : Nat → Nat → List Bool
  | 0, _ => []
  | width + 1, n => n.testBit width :: bits width n

theorem bits_add (a b n : Nat) : bits (a + b) n = bits a (n / 2 ^ b) ++ bits b n := by
  induction a with
  | zero => rw [Nat.zero_add, bits, List.nil_append]
  | succ a ih =>
    rw [Nat.succ_add, bits, bits, ih, Nat.testBit_div_two_pow, Nat.add_comm, List.cons_append]

theorem bits_congr {width m n : Nat} (h : m % 2 ^ width = n % 2 ^ width) :
    bits width m = bits width n := by
  have hmod (m : Nat) : ∀ w ≤ width, bits w m = bits w (m % 2 ^ width) := by
    intro w hw
    induction w with
    | zero => rfl
    | succ w ih =>
      rw [bits, bits, ih (by omega), Nat.testBit_mod_two_pow, decide_eq_true (by omega),
        Bool.true_and]
  rw [hmod m width (Nat.le_refl _), h, ← hmod n width (Nat.le_refl _)]

theorem bits_group {a b c : Nat} (hb : b < 256) (hc : c < 256) :
    bits 6 (a / 4) ++ (bits 6 (a % 4 * 16 + b / 16) ++ (bits 6 (b % 16 * 4 + c / 64) ++
      bits 6 (c % 64))) = bits 8 a ++ (bits 8 b ++ bits 8 c) := by
  have hjoin {m m' : List Bool} {w n n' : Nat} (h : n % 2 ^ w = n' % 2 ^ w) (hm : m = m') :
      bits w n ++ m = bits w n' ++ m' := congrArg₂ (· ++ ·) (bits_congr h) hm
  have hbytes : bits 24 (a * 65536 + b * 256 + c) = bits 8 a ++ (bits 8 b ++ bits 8 c) := by
    rw [bits_add 8 16, bits_add 8 8]
    exact hjoin (by omega) (hjoin (by omega) (bits_congr (by omega)))
  have hsixes : bits 24 (a * 65536 + b * 256 + c) = bits 6 (a / 4) ++
      (bits 6 (a % 4 * 16 + b / 16) ++ (bits 6 (b % 16 * 4 + c / 64) ++ bits 6 (c % 64))) := by
    rw [bits_add 6 18, bits_add 6 12, bits_add 6 6]
    exact hjoin (by omega) (hjoin (by omega) (hjoin (by omega) (bits_congr (by omega))))
  rw [← hsixes, hbytes]

theorem flatMap_bits_sextets (bs : List UInt8) : ∃ zeros < 6,
    (sextets bs).flatMap (bits 6) =
      bs.flatMap (fun b => bits 8 b.toNat) ++ List.replicate zeros false := by
  fun_induction sextets bs with
  | case1 => exact ⟨0, by decide, rfl⟩
  | case2 a =>
    refine ⟨4, by decide, ?_⟩
    have h := bits_group (a := a.toNat) (b := 0) (c := 0) (by decide) (by decide)
    have hzeros : bits 8 0 ++ bits 8 0 = List.replicate 4 false ++ (bits 6 0 ++ bits 6 0) := by
      decide
    rw [hzeros, ← List.append_assoc, ← List.append_assoc (bits 8 _)] at h
    simpa using List.append_cancel_right h
  | case3 a b =>
    refine ⟨2, by decide, ?_⟩
    have h := bits_group (a := a.toNat) (b := b.toNat) (c := 0) b.toNat_lt (by decide)
    have hzeros : bits 8 0 = List.replicate 2 false ++ bits 6 0 := by decide
    rw [hzeros, ← List.append_assoc, ← List.append_assoc, ← List.append_assoc,
      ← List.append_assoc] at h
    simpa using List.append_cancel_right h
  | case4 a b c rest ih =>
    obtain ⟨zeros, hlt, hrest⟩ := ih
    refine ⟨zeros, hlt, ?_⟩
    simp only [List.flatMap_cons, hrest]
    have h := bits_group (a := a.toNat) b.toNat_lt c.toNat_lt
    simp only [← List.append_assoc] at h ⊢
    rw [h]

/-! ### Texts -/

/-- The signs of the digits, in the order of their values. -/
def alphabet : List Char :=
  "ABCDEFGHIJKLMNOPQRSTUVWXYZabcdefghijklmnopqrstuvwxyz0123456789+/".toList

/-- The text is the base64 form of the bytes: their bits, filled up with fewer than six zeros, six
to a sign of the alphabet, and then as many signs `=` as make the length a multiple of four. -/
def IsForm (form : List Char) (bs : List UInt8) : Prop :=
  ∃ (vs : List Nat) (zeros signs : Nat), zeros < 6 ∧ signs < 4 ∧
    (∀ v ∈ vs, v < 64) ∧ form = vs.map (alphabet.getD · '=') ++ List.replicate signs '=' ∧
    form.length % 4 = 0 ∧
    vs.flatMap (bits 6) = bs.flatMap (fun b => bits 8 b.toNat) ++ List.replicate zeros false

/-- A text as it is written in base64. -/
def form (s : String) : String :=
  .ofList ((encode (Function.bytesOf s)).map fun b => Char.ofNat b.toNat)

theorem alphabet_digit {n : Nat} (h : n < 64) :
    Char.ofNat (digit n).toNat = alphabet.getD n '=' := by
  revert n
  decide

theorem encode_facts (bs : List UInt8) : ∀ b ∈ encode bs,
    b.toNat < 128 ∧ Text.isWhiteSpace (Char.ofNat b.toNat) = false := by
  rw [encode_eq]
  intro b hb
  rcases List.mem_append.mp hb with hb | hb
  · obtain ⟨v, hv, rfl⟩ := List.mem_map.mp hb
    exact (digit_facts (sextets_lt bs v hv)).2
  · rw [List.eq_of_mem_replicate hb]
    decide

theorem isForm_encode (bs : List UInt8) :
    IsForm ((encode bs).map fun b => Char.ofNat b.toNat) bs := by
  obtain ⟨zeros, hzeros, hbits⟩ := flatMap_bits_sextets bs
  refine ⟨sextets bs, zeros, (3 - bs.length % 3) % 3, hzeros, by omega, sextets_lt bs, ?_, ?_,
    hbits⟩
  · rw [encode_eq, List.map_append, List.map_map, padding, List.map_replicate]
    refine congrArg (· ++ _) (List.map_congr_left fun v hv => ?_)
    exact alphabet_digit (sextets_lt bs v hv)
  · rw [List.length_map, length_encode, Nat.mul_mod_left]

end Text.Base64

/-! ### Bytes of a text -/

namespace Function

open Text.Base64

theorem bytesOf_eq (s : String) : bytesOf s = s.toByteArray.data.toList := by
  have hloop (b : ByteArray) (i : Nat) (r : List UInt8) :
      ByteArray.toList.loop b i r = r.reverse ++ b.data.toList.drop i := by
    fun_induction ByteArray.toList.loop b i r with
    | case1 i r hi ih =>
      have hi' : i < b.data.toList.length := hi
      have hget : b.get! i = b.data.toList[i] := getElem!_pos b.data i hi
      rw [ih, List.drop_eq_getElem_cons hi', hget, List.reverse_cons, List.append_assoc]
      rfl
    | case2 i r hi =>
      rw [List.drop_eq_nil_of_le (Nat.le_of_not_lt hi), List.append_nil]
  exact hloop _ 0 []

theorem bytesOf_injective {s t : String} (h : bytesOf s = bytesOf t) : s = t := by
  rw [bytesOf_eq, bytesOf_eq, Array.toList_inj] at h
  exact String.toByteArray_inj.mp (ByteArray.ext h)

theorem fromUTF8?_eq_some_iff {bs : List UInt8} {s : String} :
    String.fromUTF8? ⟨bs.toArray⟩ = some s ↔ bytesOf s = bs := by
  rw [bytesOf_eq, String.fromUTF8?]
  constructor
  · intro h
    split at h
    · rw [← Option.some.inj h]
      rfl
    · cases h
  · rintro rfl
    rw [Array.toArray_toList, dif_pos s.isValidUTF8]
    rfl

theorem bytesOf_ofList {bs : List UInt8} (h : ∀ b ∈ bs, b.toNat < 128) :
    bytesOf (.ofList (bs.map fun b => Char.ofNat b.toNat)) = bs := by
  rw [bytesOf_eq, String.toByteArray_ofList]
  induction bs with
  | nil => rfl
  | cons b bs ih =>
    obtain ⟨hb, hbs⟩ := List.forall_mem_cons.mp h
    have hcode : (Char.ofNat b.toNat).toNat = b.toNat := by
      rw [Char.ofNat, dif_pos (.inl (by omega))]
      rfl
    have hval : (Char.ofNat b.toNat).val.toNat = b.toNat := hcode
    have hsize : (Char.ofNat b.toNat).utf8Size = 1 := by
      rw [Char.utf8Size_eq_one_iff, UInt32.le_iff_toNat_le, hval]
      exact Nat.le_of_lt_succ hb
    have hbyte : (Char.ofNat b.toNat).val.toUInt8 = b := by
      rw [← UInt8.toNat_inj, UInt32.toNat_toUInt8, hval, Nat.mod_eq_of_lt b.toNat_lt]
    rw [List.map_cons, List.utf8Encode_cons, List.utf8Encode_singleton,
      String.utf8EncodeChar_eq_singleton hsize, hbyte, ByteArray.toList_data_append,
      List.toList_data_toByteArray, ih hbs]
    rfl

theorem bytesOf_form (s : String) : bytesOf (form s) = encode (bytesOf s) :=
  bytesOf_ofList fun b hb => (encode_facts _ b hb).1

theorem trimmed_form (s : String) : Text.trimmed (form s) = form s := by
  have hmem : ∀ c ∈ (encode (bytesOf s)).map fun b => Char.ofNat b.toNat,
      Text.isWhiteSpace c = false := by
    intro c hc
    obtain ⟨b, hb, rfl⟩ := List.mem_map.mp hc
    exact (encode_facts _ b hb).2
  rw [Text.trimmed, form, String.toList_ofList, Text.trim]
  rw [strip_of_ends (fun c hc => hmem c (List.mem_of_mem_head? hc))
    (fun c hc => hmem c (List.mem_of_getLast? hc))]

/-- A text is read exactly if it is the form of a text, apart from white space around it. -/
theorem base64Decode_eq_ok_iff {v r : Value} :
    base64Decode [v] = .ok r ↔ ∃ s, r = .text s ∧ form s = Text.trimmed v.display := by
  have htext : textAt [v] 0 "" = v.display := rfl
  have hone : (Arity.exactly 1).accepts [v].length = true := rfl
  rw [base64Decode, withArity, if_pos hone, htext]
  constructor
  · intro h
    split at h
    · cases h
    · next bs hbs =>
      split at h
      · next s hs =>
        obtain rfl := Except.ok.inj h
        refine ⟨s, rfl, bytesOf_injective ?_⟩
        rw [bytesOf_form, fromUTF8?_eq_some_iff.mp hs, decode_eq_ok_iff.mp hbs]
      · cases h
  · rintro ⟨s, rfl, hs⟩
    rw [← hs, bytesOf_form, decode_eq_ok_iff.mpr rfl]
    dsimp only
    rw [fromUTF8?_eq_some_iff.mpr rfl]

/-- What is written is the form of the text and reads as it again, and nothing else is read. -/
theorem base64_roundTrip :
    (∀ v : Value, ∃ s : String, base64Encode [v] = .ok (.text s) ∧
      IsForm s.toList (bytesOf v.display) ∧ base64Decode [.text s] = .ok (.text v.display)) ∧
    ∀ v r : Value, base64Decode [v] = .ok r ↔
      (∃ s, r = .text s) ∧ base64Encode [r] = .ok (.text (Text.trimmed v.display)) := by
  refine ⟨fun v => ⟨form v.display, rfl, ?_, ?_⟩, fun v r => ?_⟩
  · rw [form, String.toList_ofList]
    exact isForm_encode _
  · exact base64Decode_eq_ok_iff.mpr ⟨v.display, rfl, (trimmed_form v.display).symm⟩
  · rw [base64Decode_eq_ok_iff]
    constructor
    · rintro ⟨s, rfl, hs⟩
      exact ⟨⟨s, rfl⟩, hs ▸ rfl⟩
    · rintro ⟨⟨s, rfl⟩, h⟩
      exact ⟨s, rfl, Value.text.inj (Except.ok.inj h)⟩

end Function

end TagTemplate
