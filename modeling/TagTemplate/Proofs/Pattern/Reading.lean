import TagTemplate.Proofs.Pattern.Search

/-! # What a pattern reads

A pattern without conditions on places sees of a text only what remains from its position on.

* `Remains text pos l`: from the position on, `l` is all that remains of the text.
* `stem` lists the characters that every match of a pattern begins with; where they do not stand,
  the pattern does not match (`matchAt?_eq_none_of_stem`).
* `Reads p a`: the pattern matches the text `a` exactly, whatever comes after it.
* `find?_of_free`: a search goes over a text in which the stem of the pattern does not stand.
* `Repeats.searchStar_lazy` and `Repeats.searchStar_greedy`: a repetition goes over the pieces of a
  text, up to the character that ends it. -/

namespace TagTemplate

/-! ### What remains of a text -/

/-- What remains of a text from a position on. -/
structure Remains (text : Array Char) (pos : Nat) (l : List Char) : Prop where
  le : pos ≤ text.size
  drop : text.toList.drop pos = l

theorem remains_toArray (l : List Char) : Remains l.toArray 0 l :=
  ⟨Nat.zero_le _, rfl⟩

namespace Remains

variable {text : Array Char} {pos : Nat} {c : Char} {a l : List Char}

theorem size (h : Remains text pos l) : text.size = pos + l.length := by
  have hlen := congrArg List.length h.drop
  have hle := h.le
  rw [List.length_drop, Array.length_toList] at hlen
  omega

theorem getElem? (h : Remains text pos l) (i : Nat) : text[pos + i]? = l[i]? := by
  rw [← h.drop, List.getElem?_drop, Array.getElem?_toList]

theorem head? (h : Remains text pos (c :: l)) : text[pos]? = some c :=
  h.getElem? 0

theorem head?_nil (h : Remains text pos []) : text[pos]? = none :=
  h.getElem? 0

theorem pass (h : Remains text pos (a ++ l)) : Remains text (pos + a.length) l := by
  have hsize := h.size
  rw [List.length_append] at hsize
  refine ⟨by omega, ?_⟩
  rw [← List.drop_drop, h.drop, List.drop_left]

theorem tail (h : Remains text pos (c :: l)) : Remains text (pos + 1) l :=
  pass (a := [c]) h

theorem slice (h : Remains text pos (a ++ l)) :
    (text.extract pos (pos + a.length)).toList = a := by
  rw [Array.toList_extract, List.extract_eq_take_drop, h.drop, Nat.add_sub_cancel_left,
    List.take_left]

theorem extract (h : Remains text pos (a ++ l)) :
    text.extract pos (pos + a.length) = a.toArray :=
  Array.ext' h.slice

end Remains

namespace Pattern

variable {text : Array Char} {pos : Nat} {c z : Char} {a w l : List Char} {p q : Pattern}
  {k : Nat → Option Nat}

/-! ### Stems -/

/-- The one character of a pattern that matches no other. -/
def sole? : Pattern → Option Char
  | char (.range first last) => if first = last then some first else none
  | _ => none

/-- The characters with which all matches of a pattern begin, as far as they are alike. -/
def stem : Pattern → List Char
  | seq a b =>
    match sole? a with
    | some c => c :: stem b
    | none => []
  | p => (sole? p).toList

theorem eq_char_of_sole? (h : p.sole? = some c) : p = char (.single c) := by
  cases p with
  | char cs =>
      cases cs with
      | range first last =>
          rw [sole?] at h
          split at h
          · next heq =>
            cases h
            rw [← heq]
            rfl
          · cases h
      | _ => cases h
  | _ => cases h

theorem search_single (c : Char) : search text (char (.single c)) pos k =
    if text[pos]? = some c then k (pos + 1) else none := by
  rw [search]
  cases text[pos]? with
  | none => rfl
  | some d =>
      simp only [CharClass.contains_single, decide_eq_true_eq, Option.some.injEq]
      exact if_congr eq_comm rfl rfl

theorem stem_of_search (p : Pattern) : ∀ {pos : Nat} {k : Nat → Option Nat} {l : List Char},
    Remains text pos l → search text p pos k ≠ none → p.stem <+: l := by
  have hsole {p : Pattern} {c : Char} (hp : p.sole? = some c) {pos : Nat}
      {k : Nat → Option Nat} {l : List Char} (hl : Remains text pos l)
      (h : search text p pos k ≠ none) : ∃ l', l = c :: l' ∧ k (pos + 1) ≠ none := by
    rw [eq_char_of_sole? hp, search_single] at h
    split at h
    · next hc =>
      cases l with
      | nil =>
          rw [hl.head?_nil] at hc
          cases hc
      | cons d l' =>
          rw [hl.head?] at hc
          cases hc
          exact ⟨l', rfl, h⟩
    · exact absurd rfl h
  have hlast {p : Pattern} {pos : Nat} {k : Nat → Option Nat} {l : List Char}
      (hl : Remains text pos l) (h : search text p pos k ≠ none) : p.sole?.toList <+: l := by
    cases hp : p.sole? with
    | none => exact List.nil_prefix
    | some c =>
        obtain ⟨l', rfl, _⟩ := hsole hp hl h
        exact ⟨l', rfl⟩
  induction p with
  | seq a b _ ihb =>
      intro pos k l hl h
      rw [stem]
      cases ha : a.sole? with
      | none => exact List.nil_prefix
      | some c =>
          obtain ⟨l', rfl, hb⟩ := hsole ha hl h
          exact List.cons_prefix_cons.mpr ⟨rfl, ihb hl.tail hb⟩
  | _ => exact hlast

theorem matchAt?_eq_none_of_stem (hl : Remains text pos l) (h : ¬ p.stem <+: l) :
    p.matchAt? text pos = none := by
  rw [matchAt?_eq_none_iff p hl.le]
  by_contra hne
  exact h (stem_of_search p hl hne)

/-! ### Patterns that read a text -/

/-- The pattern matches the text `a` exactly, whatever comes after it. -/
def Reads (p : Pattern) (a : List Char) : Prop :=
  ∀ (text : Array Char) (pos : Nat) (l : List Char), Remains text pos (a ++ l) →
    search text p pos some = some (pos + a.length)

theorem Reads.matchAt? (h : p.Reads a) (hg : p.groupNames = [])
    (hl : Remains text pos (a ++ l)) : p.matchAt? text pos = some ⟨pos + a.length, []⟩ :=
  (matchAt?_eq_some_iff hg hl.le).mpr ⟨h text pos l hl, rfl⟩

theorem Reads.stem (h : p.Reads a) : p.stem <+: a := by
  have hl : Remains a.toArray 0 (a ++ []) := by
    rw [List.append_nil]
    exact remains_toArray a
  have hne : search a.toArray p 0 some ≠ none := by simp [h _ _ _ hl]
  simpa using stem_of_search p hl hne

/-! ### Matches found -/

/-- A search may begin where the pattern could first match. -/
theorem find?_congr_of_none {start stop : Nat} (hle : start ≤ stop)
    (hnone : ∀ i, start ≤ i → i < stop → p.matchAt? text i = none) :
    p.find? text start = p.find? text stop := by
  refine Option.ext fun m => ?_
  rw [find?_eq_some_iff, find?_eq_some_iff]
  constructor
  · rintro ⟨hm, hsize, hat, hbefore⟩
    refine ⟨?_, hsize, hat, fun i h₁ h₂ => hbefore i (by omega) h₂⟩
    by_contra hlt
    rw [hnone m.start hm (by omega)] at hat
    cases hat
  · rintro ⟨hm, hsize, hat, hbefore⟩
    refine ⟨by omega, hsize, hat, fun i h₁ h₂ => ?_⟩
    rcases Nat.lt_or_ge i stop with hi | hi
    · exact hnone i h₁ hi
    · exact hbefore i hi h₂

theorem find?_of_matchAt? {t : Trail} (hpos : pos ≤ text.size)
    (h : p.matchAt? text pos = some t) : p.find? text pos = some ⟨pos, t.pos, t.groups⟩ :=
  find?_eq_some_iff.mpr ⟨Nat.le_refl pos, hpos, h, fun _ h₁ h₂ => absurd h₁ (Nat.not_le_of_lt h₂)⟩

/-! ### Texts without marks -/

/-- None of the marks in `W` begins inside the text `a`, when `l` comes after it. -/
def Free (W : List Char → Prop) (a l : List Char) : Prop :=
  ∀ a₁ a₂, a = a₁ ++ a₂ → a₂ ≠ [] → ∀ w, W w → ¬ w <+: a₂ ++ l

namespace Free

variable {W V : List Char → Prop} {b : List Char}

theorem nil : Free W [] l :=
  fun _ _ h hne => absurd (List.append_eq_nil_iff.mp h.symm).2 hne

theorem mono (h : Free W a l) (hVW : ∀ w, V w → W w) : Free V a l :=
  fun a₁ a₂ ha hne w hw => h a₁ a₂ ha hne w (hVW w hw)

theorem append (ha : Free W a (b ++ l)) (hb : Free W b l) : Free W (a ++ b) l := by
  intro x y hxy hne w hw
  rcases List.append_eq_append_iff.mp hxy with ⟨m, rfl, hm⟩ | ⟨m, hm, rfl⟩
  · exact hb m y hm hne w hw
  · by_cases hnil : m = []
    · subst hnil
      exact hb [] b rfl (by simpa using hne) w hw
    · rw [List.append_assoc]
      exact ha x m hm hnil w hw

/-- The mark at a position inside the text. -/
theorem at_position (h : Free W a l) (hl : Remains text pos (a ++ l)) {i : Nat} (h₁ : pos ≤ i)
    (h₂ : i < pos + a.length) : ∃ l', Remains text i l' ∧ ∀ w, W w → ¬ w <+: l' := by
  obtain ⟨n, rfl⟩ := Nat.exists_eq_add_of_le h₁
  have hn : n < a.length := by omega
  have hsplit : a = a.take n ++ a.drop n := (List.take_append_drop n a).symm
  have hlen : (a.take n).length = n := by
    rw [List.length_take]
    omega
  refine ⟨a.drop n ++ l, ?_, h _ _ hsplit ?_⟩
  · rw [hsplit, List.append_assoc] at hl
    have := hl.pass
    rwa [hlen] at this
  · intro hnil
    have := List.drop_eq_nil_iff.mp hnil
    omega

end Free

theorem matchAt?_of_free {W : List Char → Prop} (h : Free W a l) (hp : W p.stem)
    (hl : Remains text pos (a ++ l)) {i : Nat} (h₁ : pos ≤ i) (h₂ : i < pos + a.length) :
    p.matchAt? text i = none := by
  obtain ⟨l', hl', hnot⟩ := h.at_position hl h₁ h₂
  exact matchAt?_eq_none_of_stem hl' (hnot _ hp)

/-- A search goes over a text that is free of the mark of the pattern. -/
theorem find?_of_free {W : List Char → Prop} (h : Free W a l) (hp : W p.stem)
    (hl : Remains text pos (a ++ l)) : p.find? text pos = p.find? text (pos + a.length) :=
  find?_congr_of_none (Nat.le_add_right _ _) fun _ h₁ h₂ => matchAt?_of_free h hp hl h₁ h₂

/-! ### Characters one after another -/

def letters (w : List Char) : List Pattern :=
  w.map fun c => char (.single c)

theorem search_seqAll_cons (p : Pattern) (ps : List Pattern) :
    search text (seqAll (p :: ps)) pos k = search text p pos fun m => search text (seqAll ps) m k := by
  cases ps <;> rfl

theorem search_letters {ps : List Pattern} : ∀ {w : List Char} {pos : Nat},
    Remains text pos (w ++ l) →
      search text (seqAll (letters w ++ ps)) pos k = search text (seqAll ps) (pos + w.length) k
  | [], _, _ => rfl
  | c :: w, pos, hl => by
      rw [letters, List.map_cons, List.cons_append, search_seqAll_cons, search_single,
        if_pos (Remains.head? hl)]
      have ih : search text (seqAll (letters w ++ ps)) (pos + 1) k =
          search text (seqAll ps) (pos + 1 + w.length) k := search_letters (Remains.tail hl)
      rw [letters] at ih
      rw [ih, List.length_cons, Nat.add_assoc, Nat.add_comm 1]

theorem reads_letters (w : List Char) : (seqAll (letters w)).Reads w := by
  intro text pos l hl
  have h : search text (seqAll (letters w ++ [])) pos some = some (pos + w.length) :=
    search_letters hl
  rwa [List.append_nil] at h

theorem sole?_single (c : Char) : (char (.single c)).sole? = some c :=
  if_pos rfl

theorem stem_letters : ∀ w : List Char, (seqAll (letters w)).stem = w
  | [] => rfl
  | [c] => congrArg Option.toList (sole?_single c)
  | c :: d :: w => by
      have h : seqAll (letters (c :: d :: w)) =
          seq (char (.single c)) (seqAll (letters (d :: w))) := rfl
      rw [h, stem, sole?_single, stem_letters (d :: w)]

theorem groupNames_seqAll_letters (w : List Char) : (seqAll (letters w)).groupNames = [] := by
  induction w with
  | nil => rfl
  | cons c w ih =>
      cases w with
      | nil => rfl
      | cons d w => exact ih

/-! ### Repetitions of single characters -/

/-- The pattern takes the character where it stands, and nothing more. -/
def Takes (p : Pattern) (c : Char) : Prop :=
  ∀ (text : Array Char) (pos : Nat) (k : Nat → Option Nat), text[pos]? = some c →
    search text p pos k = k (pos + 1)

/-- The pattern does not match where the character stands. -/
def Declines (p : Pattern) (c : Char) : Prop :=
  ∀ (text : Array Char) (pos : Nat) (k : Nat → Option Nat), text[pos]? = some c →
    search text p pos k = none

theorem takes_char {cs : CharClass} (h : cs.contains c = true) : (char cs).Takes c := by
  intro text pos k hc
  rw [search, hc]
  exact if_pos h

theorem declines_char {cs : CharClass} (h : cs.contains c = false) : (char cs).Declines c := by
  intro text pos k hc
  rw [search, hc]
  simp [h]

theorem Declines.seq (h : p.Declines c) (q : Pattern) : (p.seq q).Declines c :=
  fun text pos _ hc => h text pos _ hc

theorem Declines.alt (hp : p.Declines c) (hq : q.Declines c) : (p.alt q).Declines c := by
  intro text pos k hc
  rw [search, hp text pos k hc, hq text pos k hc]
  rfl

theorem Declines.alt_takes (hp : p.Declines c) (hq : q.Takes c) : (p.alt q).Takes c := by
  intro text pos k hc
  rw [search, hp text pos k hc, hq text pos k hc]
  rfl

/-! ### Repetitions -/

/-- The pattern takes the text wherever it stands, if what comes after it succeeds there. -/
def Prefers (p : Pattern) (a : List Char) : Prop :=
  ∀ (text : Array Char) (pos : Nat) (l : List Char) (k : Nat → Option Nat),
    Remains text pos (a ++ l) → k (pos + a.length) ≠ none →
      search text p pos k = k (pos + a.length)

theorem Takes.prefers (h : p.Takes c) : p.Prefers [c] :=
  fun text pos _ k hl _ => h text pos k hl.head?

/-- The text consists of pieces that the pattern takes, none of which begins with `z`. -/
inductive Repeats (p : Pattern) (z : Char) : List Char → Prop where
  | nil : Repeats p z []
  | cons {c : Char} {a b : List Char} (ha : p.Prefers (c :: a)) (hc : c ≠ z)
    (hb : Repeats p z b) : Repeats p z (c :: a ++ b)

namespace Repeats

variable {w : List Char}

/-- A text of characters that the pattern takes. -/
theorem of_takes (h : ∀ c ∈ w, p.Takes c ∧ c ≠ z) : Repeats p z w := by
  induction w with
  | nil => exact nil
  | cons c w ih =>
      obtain ⟨hc, hne⟩ := h c List.mem_cons_self
      exact cons hc.prefers hne (ih fun d hd => h d (List.mem_cons_of_mem c hd))

theorem append {v : List Char} (hv : Repeats p z v) (hw : Repeats p z w) :
    Repeats p z (v ++ w) := by
  induction hv with
  | nil => exact hw
  | cons ha hc _ ih =>
      rw [List.append_assoc]
      exact cons ha hc ih

theorem resume {greedy : Bool} {a : List Char} (ha : p.Prefers (c :: a))
    (hl : Remains text pos (c :: a ++ l))
    (hnext : searchStar text.size (search text p) greedy k (pos + (c :: a).length) ≠ none) :
    search text p pos (Pattern.resume text.size (search text p) greedy k pos) =
      searchStar text.size (search text p) greedy k (pos + (c :: a).length) := by
  have hsize := hl.size
  rw [List.length_append, List.length_cons] at hsize
  have hresume : Pattern.resume text.size (search text p) greedy k pos (pos + (c :: a).length) =
      searchStar text.size (search text p) greedy k (pos + (c :: a).length) := by
    rw [Pattern.resume, if_pos]
    rw [List.length_cons]
    omega
  rw [ha text pos l _ hl (hresume ▸ hnext), hresume]

/-- A lazy repetition goes on until what comes after it succeeds, which it does at a `z` only. -/
theorem searchStar_lazy (hw : Repeats p z w)
    (hk : ∀ {i : Nat} {c : Char} {l : List Char}, Remains text i (c :: l) → c ≠ z → k i = none)
    (hl : Remains text pos (w ++ z :: l)) (hend : k (pos + w.length) ≠ none) :
    searchStar text.size (search text p) false k pos = k (pos + w.length) := by
  induction hw generalizing pos with
  | nil =>
      obtain ⟨n, hn⟩ := Option.ne_none_iff_exists'.mp hend
      rw [searchStar_eq, if_neg Bool.false_ne_true, hn]
      rw [List.length_nil, Nat.add_zero] at hn
      rw [hn]
      rfl
  | @cons c a b ha hc _ ih =>
      rw [List.append_assoc] at hl
      rw [List.length_append, ← Nat.add_assoc] at hend ⊢
      have hrest := ih hl.pass hend
      rw [searchStar_eq, if_neg Bool.false_ne_true, hk hl hc, Option.none_or,
        resume ha hl (hrest ▸ hend), hrest]

/-- A greedy repetition goes on as long as it can, if what comes after it then succeeds. -/
theorem searchStar_greedy (hz : p.Declines z) (hw : Repeats p z w)
    (hl : Remains text pos (w ++ z :: l)) (hend : k (pos + w.length) ≠ none) :
    searchStar text.size (search text p) true k pos = k (pos + w.length) := by
  induction hw generalizing pos with
  | nil =>
      rw [searchStar_eq, if_pos rfl, hz text pos _ hl.head?, Option.none_or]
      rfl
  | @cons c a b ha hc _ ih =>
      rw [List.append_assoc] at hl
      rw [List.length_append, ← Nat.add_assoc] at hend ⊢
      have hrest := ih hl.pass hend
      obtain ⟨n, hn⟩ := Option.ne_none_iff_exists'.mp hend
      rw [searchStar_eq, if_pos rfl, resume ha hl (hrest ▸ hend), hrest, hn]
      rfl

end Repeats

end Pattern

end TagTemplate
