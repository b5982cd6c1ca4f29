import TagTemplate.Proofs.Scanning.Bodies
import TagTemplate.Proofs.Scanning.Builtin

/-! # The text of a tag

Each known tag is written with a body in one way, `text`.  `Accepts` says which bodies are meant:
words, and arguments made of words.

* `reads_text`: the opening pattern of the tag reads the text, whatever comes after it.
* `body_text`: the body found in the text is the one that was written.
* `still_text`: inside the text no tag opens or closes. -/

namespace TagTemplate

open Pattern BuiltinTag

/-! ### Characters -/

/-- The characters of arguments. -/
def isPlain (c : Char) : Bool :=
  c.isAlphanum || c = ' ' || c = '='

/-- The characters of bodies: those of arguments, and parentheses. -/
def isCalm (c : Char) : Bool :=
  isPlain c || c = '(' || c = ')'

theorem forall_ascii {p : Char → Bool} (h : ∀ n < 128, p (Char.ofNat n) = true) {c : Char}
    (hc : c.toNat < 128) : p c = true := by
  rw [← Char.ofNat_toNat c]
  exact h c.toNat hc

theorem isAlpha_cases {c : Char} (h : c.isAlpha = true) :
    ('A'.val ≤ c.val ∧ c.val ≤ 'Z'.val) ∨ ('a'.val ≤ c.val ∧ c.val ≤ 'z'.val) := by
  rcases Bool.or_eq_true_iff.mp h with h | h
  · exact .inl (of_decide_eq_true h)
  · exact .inr ((Bool.and_eq_true_iff.mp h).imp of_decide_eq_true of_decide_eq_true)

theorem toNat_lt_of_isAlphanum {c : Char} (h : c.isAlphanum = true) : c.toNat < 128 := by
  have hlt {v w : UInt32} (h : v ≤ w) (hw : w.toNat < 128) : v.toNat < 128 :=
    Nat.lt_of_le_of_lt h hw
  rcases Bool.or_eq_true_iff.mp h with h | h
  · rcases isAlpha_cases h with ⟨_, h⟩ | ⟨_, h⟩ <;> exact hlt h (by decide)
  · exact hlt (of_decide_eq_true (Bool.and_eq_true_iff.mp h).2) (by decide)

theorem isAlphanum_of_isAlpha {c : Char} (h : c.isAlpha = true) : c.isAlphanum = true := by
  exact Bool.or_eq_true_iff.mpr (.inl h)

theorem isPlain_of_isAlphanum {c : Char} (h : c.isAlphanum = true) : isPlain c = true := by
  simp [isPlain, h]

theorem isCalm_of_isPlain {c : Char} (h : isPlain c = true) : isCalm c = true := by
  simp [isCalm, h]

theorem facts_of_isAlphanum {c : Char} (h : c.isAlphanum = true) :
    Text.isWordChar c = true ∧ Text.isWhiteSpace c = false ∧ c ≠ '\x7d' := by
  have hall : ∀ n < 128, (!(Char.ofNat n).isAlphanum || (Text.isWordChar (Char.ofNat n) &&
      !Text.isWhiteSpace (Char.ofNat n) && Char.ofNat n != '\x7d')) = true := by
    decide +kernel
  have := forall_ascii (p := fun c => !c.isAlphanum || (Text.isWordChar c &&
    !Text.isWhiteSpace c && c != '\x7d')) hall (toNat_lt_of_isAlphanum h)
  simp only [h, Bool.not_true, Bool.false_or, Bool.and_eq_true, Bool.not_eq_true', bne_iff_ne] at this
  exact ⟨this.1.1, this.1.2, this.2⟩

theorem facts_of_isCalm {c : Char} (h : isCalm c = true) :
    c ≠ '"' ∧ c ≠ '\'' ∧ c ≠ '\n' ∧ c ≠ '\x7b' ∧ c ≠ '\x7d' ∧ c ≠ '@' := by
  refine ⟨?_, ?_, ?_, ?_, ?_, ?_⟩ <;> rintro rfl <;> revert h <;> decide

theorem facts_of_isPlain {c : Char} (h : isPlain c = true) : c ≠ '(' ∧ c ≠ ')' := by
  refine ⟨?_, ?_⟩ <;> rintro rfl <;> revert h <;> decide

/-! ### Steps of bodies -/

theorem declines_quotedRun {quote c : Char} (h : c ≠ quote) : (quotedRun quote).Declines c :=
  (declines_char (by simpa using Ne.symm h)).seq _

theorem takes_item {c : Char} (h₁ : c ≠ '"') (h₂ : c ≠ '\'') {cs : CharClass}
    (h : cs.contains c = true) : (item cs).Takes c :=
  (declines_quotedRun h₁).alt_takes ((declines_quotedRun h₂).alt_takes (takes_char h))

theorem declines_item {c : Char} (h₁ : c ≠ '"') (h₂ : c ≠ '\'') {cs : CharClass}
    (h : cs.contains c = false) : (item cs).Declines c :=
  (declines_quotedRun h₁).alt ((declines_quotedRun h₂).alt (declines_char h))

theorem takes_bodyItem {c : Char} (h : isCalm c = true) : bodyItem.Takes c := by
  obtain ⟨h₁, h₂, h₃, _⟩ := facts_of_isCalm h
  refine takes_item h₁ h₂ ?_
  simpa [CharClass.contains] using Ne.symm h₃

theorem repeats_of_isCalm {b : List Char} (h : ∀ c ∈ b, isCalm c = true) :
    Repeats bodyItem '\x7d' b :=
  .of_takes fun c hc => ⟨takes_bodyItem (h c hc), (facts_of_isCalm (h c hc)).2.2.2.2.1⟩

theorem takes_argumentItem {c : Char} (h : isPlain c = true) : argumentItem.Takes c := by
  obtain ⟨h₁, h₂, h₃, _⟩ := facts_of_isCalm (isCalm_of_isPlain h)
  obtain ⟨h₄, h₅⟩ := facts_of_isPlain h
  refine takes_item h₁ h₂ ?_
  simp [CharClass.contains, Ne.symm h₃, Ne.symm h₄, Ne.symm h₅]

theorem repeats_of_isPlain {b : List Char} (h : ∀ c ∈ b, isPlain c = true) :
    Repeats argumentItem ')' b :=
  .of_takes fun c hc => ⟨takes_argumentItem (h c hc), (facts_of_isPlain (h c hc)).2⟩

theorem declines_argumentItem : argumentItem.Declines ')' :=
  declines_item (by decide) (by decide) (by decide)

theorem takes_dottedPart {c : Char} (h : c.isAlphanum = true) : dottedPart.Takes c :=
  takes_char (by simp [CharClass.contains, (facts_of_isAlphanum h).1])

theorem takes_word {c : Char} (h : c.isAlphanum = true) : (char .word).Takes c :=
  takes_char (facts_of_isAlphanum h).1

theorem repeats_of_isAlphanum {p : Pattern} {z : Char} {w : List Char}
    (hp : ∀ {c : Char}, c.isAlphanum = true → p.Takes c) (hz : z.isAlphanum = false)
    (h : ∀ c ∈ w, c.isAlphanum = true) : Repeats p z w := by
  refine .of_takes fun c hc => ⟨hp (h c hc), ?_⟩
  rintro rfl
  rw [h c hc] at hz
  cases hz

theorem takes_nameStart {c : Char} (h : c.isAlpha = true) : nameStart.Takes c := by
  refine takes_char ?_
  simp only [CharClass.contains, Bool.or_eq_true, decide_eq_true_eq]
  rcases isAlpha_cases h with h | h
  · exact .inl h
  · exact .inr (.inl h)

section steps
variable {text : Array Char} {pos : Nat} {l b : List Char}

theorem takes_blank {s : Char} (hs : s = ' ' ∨ s = '\t') : blank.Takes s := by
  rcases hs with rfl | rfl <;> exact takes_char (by decide)

theorem search_last {c : Char} (hl : Remains text pos (c :: l)) :
    search text (seqAll [char (.single c)]) pos some = some (pos + 1) := by
  rw [seqAll, search_single, if_pos hl.head?]

theorem search_last_ne {c z : Char} (h : c ≠ z) (hl : Remains text pos (c :: l)) :
    search text (seqAll [char (.single z)]) pos some = none := by
  rw [seqAll, search_single, if_neg]
  rw [hl.head?]
  exact fun heq => h (Option.some.inj heq)

theorem search_body (hb : Repeats bodyItem '\x7d' b) (hl : Remains text pos (b ++ '\x7d' :: l)) :
    search text (star false bodyItem) pos
      (fun m => search text (seqAll [char (.single '\x7d')]) m some) =
        some (pos + b.length + 1) := by
  have hend := search_last hl.pass
  rw [search, hb.searchStar_lazy (fun hi hc => search_last_ne hc hi) hl, hend]
  rw [hend]
  exact Option.some_ne_none _

theorem search_greedy {p : Pattern} {z : Char} {ps : List Pattern} {n : Nat}
    (hb : Repeats p z b) (hz : p.Declines z) (hl : Remains text pos (b ++ z :: l))
    (hend : search text (seqAll ps) (pos + b.length) some = some n) :
    search text (star true p) pos (fun m => search text (seqAll ps) m some) = some n := by
  rw [search, hb.searchStar_greedy hz hl, hend]
  rw [hend]
  exact Option.some_ne_none _

end steps

/-! ### Words and tidy texts -/

/-- The text is a word: letters and digits, a letter first. -/
def isWord (w : List Char) : Bool :=
  w.head?.any Char.isAlpha && w.all Char.isAlphanum

/-- The text begins with a letter and does not end in white space. -/
def isTidy (b : List Char) : Bool :=
  b.head?.any Char.isAlpha && b.getLast?.any fun c => !Text.isWhiteSpace c

theorem isTidy_of_isWord {w : List Char} (h : isWord w = true) : isTidy w = true := by
  rw [isWord, Bool.and_eq_true] at h
  rw [isTidy, h.1, Bool.true_and]
  cases hw : w.getLast? with
  | none =>
      rw [List.getLast?_eq_none_iff] at hw
      rw [hw] at h
      exact h.1
  | some c =>
      have hc := List.all_eq_true.mp h.2 c (List.mem_of_getLast? hw)
      simp [(facts_of_isAlphanum hc).2.1]

theorem isTidy_append {a b : List Char} (ha : isTidy a = true) (hb : isTidy b = true) (c : Char) :
    isTidy (a ++ c :: b) = true := by
  rw [isTidy, Bool.and_eq_true] at ha hb ⊢
  constructor
  · cases a with
    | nil => cases ha.1
    | cons d a => exact ha.1
  · cases b with
    | nil => cases hb.1
    | cons d b =>
        rw [List.getLast?_append, List.getLast?_cons_cons, List.getLast?_cons, Option.some_or,
          ← List.getLast?_cons]
        exact hb.2

theorem trim_of_isTidy {b : List Char} (h : isTidy b = true) : Text.trim b = b := by
  rw [isTidy, Bool.and_eq_true, Option.any_eq_true, Option.any_eq_true] at h
  obtain ⟨⟨c, hc, halpha⟩, d, hd, hspace⟩ := h
  refine strip_of_ends (fun x hx => ?_) fun x hx => ?_
  · rw [Option.mem_def, hc] at hx
    cases hx
    exact (facts_of_isAlphanum (isAlphanum_of_isAlpha halpha)).2.1
  · rw [Option.mem_def, hd] at hx
    cases hx
    simpa using hspace

theorem trim_blank {b : List Char} (h : isTidy b = true) : Text.trim (' ' :: b) = b := by
  have hspace : Text.isWhiteSpace ' ' = true := by decide
  have := trim_of_isTidy h
  rw [Text.trim, Text.strip] at this ⊢
  rwa [List.dropWhile_cons_of_pos hspace]

/-! ### Bodies of texts -/

theorem withoutDelimiters_braces (s : List Char) :
    withoutDelimiters {} ('\x7b' :: (s ++ ['\x7d'])) = s := by
  have h := withoutDelimiters_between {} s
  have hopen : ({} : Delimiters).opening.toList = ['\x7b'] := String.toList_ofList
  have hclose : ({} : Delimiters).closing.toList = ['\x7d'] := String.toList_ofList
  rwa [hopen, hclose] at h

theorem withoutDelimiters_at (s : List Char) : withoutDelimiters {} ('@' :: s) = '@' :: s := by
  have hopen : ({} : Delimiters).opening.toList = ['\x7b'] := String.toList_ofList
  rw [withoutDelimiters, hopen]
  rfl

theorem withoutParentheses_of_isTidy {b : List Char} (h : isTidy b = true) :
    withoutParentheses b = b := by
  rw [isTidy, Bool.and_eq_true, Option.any_eq_true] at h
  obtain ⟨⟨c, hc, halpha⟩, _⟩ := h
  refine withoutParentheses_of_head fun d hd => ?_
  rw [Option.mem_def, hc] at hd
  cases hd
  rintro rfl
  cases halpha

section body
variable {t : TagDefinition} {lead b : List Char}

/-- The body of a tag between braces, after its lead and perhaps a blank. -/
theorem body_braces (hlead : t.lead.toList = lead) (hb : isTidy b = true) :
    t.body {} ('\x7b' :: (lead ++ b ++ ['\x7d'])) = b ∧
      t.body {} ('\x7b' :: (lead ++ ' ' :: b ++ ['\x7d'])) = b := by
  subst hlead
  constructor
  · rw [TagDefinition.body_of_lead (withoutDelimiters_braces _), trim_of_isTidy hb]
    exact withoutParentheses_of_isTidy hb
  · rw [TagDefinition.body_of_lead (withoutDelimiters_braces _), trim_blank hb]
    exact withoutParentheses_of_isTidy hb

/-- A tag between braces that is nothing but its lead has no body. -/
theorem body_bare (hlead : t.lead.toList = lead) :
    t.body {} ('\x7b' :: (lead ++ ['\x7d'])) = [] := by
  have hinner : withoutDelimiters {} ('\x7b' :: (lead ++ ['\x7d'])) = t.lead.toList ++ [] := by
    rw [withoutDelimiters_braces, hlead, List.append_nil]
  rw [TagDefinition.body_of_lead hinner]
  rfl

theorem body_directive (hlead : t.lead.toList = '@' :: lead) (hb : isTidy b = true) :
    t.body {} ('@' :: lead ++ ['('] ++ b ++ [')']) = b := by
  have hinner : withoutDelimiters {} ('@' :: lead ++ ['('] ++ b ++ [')']) =
      t.lead.toList ++ '(' :: (b ++ [')']) := by
    rw [List.append_assoc, List.append_assoc, List.singleton_append, hlead]
    exact withoutDelimiters_at _
  rw [TagDefinition.body_of_parentheses hinner, trim_of_isTidy hb]

end body

/-! ### Texts that opening patterns read -/

section reads
variable {lead b : List Char}

theorem reads_body (hb : Repeats bodyItem '\x7d' b) :
    (seqAll (letters lead ++ [star false bodyItem, char (.single '\x7d')])).Reads
      (lead ++ b ++ ['\x7d']) := by
  intro text pos l hl
  rw [List.append_assoc, List.append_assoc, List.singleton_append] at hl
  rw [search_letters hl, search_seqAll_cons, search_body hb hl.pass]
  simp only [List.length_append, List.length_singleton, Nat.add_assoc]

theorem reads_hash {s : Char} (hs : s = ' ' ∨ s = '\t') (hb : Repeats bodyItem '\x7d' b) :
    (seqAll (letters lead ++ [blank, star false bodyItem, char (.single '\x7d')])).Reads
      (lead ++ s :: b ++ ['\x7d']) := by
  intro text pos l hl
  rw [List.append_assoc, List.append_assoc, List.singleton_append, List.cons_append] at hl
  rw [search_letters hl, search_seqAll_cons, takes_blank hs _ _ _ hl.pass.head?, search_seqAll_cons,
    search_body hb hl.pass.tail]
  simp only [List.length_append, List.length_cons, List.length_nil]
  congr 1
  omega

theorem search_blank_brace {text : Array Char} {pos : Nat} {l : List Char} {p : Pattern}
    {k : Nat → Option Nat} (hl : Remains text pos ('\x7d' :: l)) :
    search text (alt (seq blank p) empty) pos k = k pos := by
  have hblank : blank.Declines '\x7d' := declines_char (by decide)
  rw [search, hblank.seq p _ _ _ hl.head?]
  rfl

theorem reads_optional_bare :
    (seqAll (letters lead ++ [alt (seq blank (star false bodyItem)) empty,
      char (.single '\x7d')])).Reads (lead ++ ['\x7d']) := by
  intro text pos l hl
  rw [List.append_assoc, List.singleton_append] at hl
  rw [search_letters hl, search_seqAll_cons, search_blank_brace hl.pass, search_last hl.pass]
  simp only [List.length_append, List.length_singleton, Nat.add_assoc]

theorem search_blank_body {text : Array Char} {pos : Nat} {l : List Char} {s : Char}
    (hs : s = ' ' ∨ s = '\t') (hb : Repeats bodyItem '\x7d' b)
    (hl : Remains text pos (s :: (b ++ '\x7d' :: l))) :
    search text (alt (seq blank (star false bodyItem)) empty) pos
      (fun m => search text (seqAll [char (.single '\x7d')]) m some) =
        some (pos + 1 + b.length + 1) := by
  have hfirst : search text (seq blank (star false bodyItem)) pos
      (fun m => search text (seqAll [char (.single '\x7d')]) m some) =
        some (pos + 1 + b.length + 1) :=
    (takes_blank hs _ _ _ hl.head?).trans (search_body hb hl.tail)
  rw [search, hfirst, Option.some_or]

theorem reads_optional {s : Char} (hs : s = ' ' ∨ s = '\t') (hb : Repeats bodyItem '\x7d' b) :
    (seqAll (letters lead ++ [alt (seq blank (star false bodyItem)) empty,
      char (.single '\x7d')])).Reads (lead ++ s :: b ++ ['\x7d']) := by
  intro text pos l hl
  rw [List.append_assoc, List.append_assoc, List.singleton_append, List.cons_append] at hl
  rw [search_letters hl, search_seqAll_cons, search_blank_body hs hb hl.pass]
  simp only [List.length_append, List.length_cons, List.length_nil]
  congr 1
  omega

theorem reads_directive (hb : Repeats argumentItem ')' b) :
    (seqAll (letters lead ++ [star true argumentItem, char (.single ')')])).Reads
      (lead ++ b ++ [')']) := by
  intro text pos l hl
  rw [List.append_assoc, List.append_assoc, List.singleton_append] at hl
  rw [search_letters hl, search_seqAll_cons,
    search_greedy hb declines_argumentItem hl.pass
      (search_last hl.pass.pass)]
  simp only [List.length_append, List.length_singleton, Nat.add_assoc]

theorem exists_of_isWord (h : isWord b = true) :
    ∃ c w, b = c :: w ∧ c.isAlpha = true ∧ ∀ d ∈ w, d.isAlphanum = true := by
  rw [isWord, Bool.and_eq_true, List.all_eq_true] at h
  cases b with
  | nil => cases h.1
  | cons c w => exact ⟨c, w, rfl, h.1, fun d hd => h.2 d (List.mem_cons_of_mem c hd)⟩

theorem reads_reference (hb : isWord b = true) :
    (seqAll (letters lead ++ [nameStart, star true dottedPart,
      alt (seq blank (star false bodyItem)) empty, char (.single '\x7d')])).Reads
        (lead ++ b ++ ['\x7d']) := by
  obtain ⟨c, w, rfl, hc, hw⟩ := exists_of_isWord hb
  intro text pos l hl
  rw [List.append_assoc, List.append_assoc, List.singleton_append, List.cons_append] at hl
  have hend : search text (seqAll [alt (seq blank (star false bodyItem)) empty,
      char (.single '\x7d')]) (pos + lead.length + 1 + w.length) some =
        some (pos + lead.length + 1 + w.length + 1) := by
    rw [search_seqAll_cons, search_blank_brace hl.pass.tail.pass, search_last hl.pass.tail.pass]
  rw [search_letters hl, search_seqAll_cons, takes_nameStart hc _ _ _ hl.pass.head?,
    search_seqAll_cons, search_greedy (repeats_of_isAlphanum takes_dottedPart (by decide) hw)
      (declines_char (by decide)) hl.pass.tail hend]
  simp only [List.length_append, List.length_cons, List.length_nil]
  congr 1
  omega

theorem reads_loopValue (hb : isWord b = true) :
    (seqAll (letters lead ++ [nameStart, star true (char .word), char (.single '\x7d')])).Reads
      (lead ++ b ++ ['\x7d']) := by
  obtain ⟨c, w, rfl, hc, hw⟩ := exists_of_isWord hb
  intro text pos l hl
  rw [List.append_assoc, List.append_assoc, List.singleton_append, List.cons_append] at hl
  rw [search_letters hl, search_seqAll_cons, takes_nameStart hc _ _ _ hl.pass.head?,
    search_seqAll_cons, search_greedy (repeats_of_isAlphanum takes_word (by decide) hw)
      (declines_char (by decide)) hl.pass.tail (search_last hl.pass.tail.pass)]
  simp only [List.length_append, List.length_cons, List.length_nil]
  congr 1
  omega

end reads

/-! ### Tags and their bodies -/

/-- The variables of a loop that can be written between braces. -/
def loopValues : List (List Char) :=
  [['@', 'c', 'u', 'r', 'r', 'e', 'n', 't'], ['@', 'i', 'n', 'd', 'e', 'x'], ['@', 'k', 'e', 'y']]

def isArguments (b : List Char) : Bool :=
  isTidy b && b.all isPlain

namespace BuiltinTag

/-- The text of a tag with a body. -/
def text (t : BuiltinTag) (b : List Char) : List Char :=
  match t with
  | var | expr => t.lead ++ b ++ ['\x7d']
  | loopVar => '\x7b' :: (b ++ ['\x7d'])
  | comment => t.lead
  | await => if b = [] then t.lead ++ ['\x7d'] else t.lead ++ ' ' :: b ++ ['\x7d']
  | binding | conditional | whileLoop | eachLoop | untilLoop => t.lead ++ ' ' :: b ++ ['\x7d']
  | layout | slot | output | inclusion | moduleUse | definition | invocation =>
    t.lead ++ b ++ [')']

/-- The bodies that a tag is written with here. -/
def Accepts (t : BuiltinTag) (b : List Char) : Prop :=
  match t with
  | var => isWord b = true
  | loopVar => b ∈ loopValues
  | expr => isTidy b = true ∧ ∀ c ∈ b, isCalm c = true
  | comment => b = []
  | await => b = [] ∨ isArguments b = true
  | _ => isArguments b = true

variable {t : BuiltinTag} {b : List Char}

theorem isTidy_of_isArguments (h : isArguments b = true) : isTidy b = true :=
  (Bool.and_eq_true _ _ ▸ h).1

theorem isPlain_of_isArguments (h : isArguments b = true) : ∀ c ∈ b, isPlain c = true :=
  List.all_eq_true.mp (Bool.and_eq_true _ _ ▸ h).2

theorem isCalm_of_isArguments (h : isArguments b = true) : ∀ c ∈ b, isCalm c = true :=
  fun c hc => isCalm_of_isPlain (isPlain_of_isArguments h c hc)

theorem isCalm_of_isWord (h : isWord b = true) : ∀ c ∈ b, isCalm c = true := by
  rw [isWord, Bool.and_eq_true, List.all_eq_true] at h
  exact fun c hc => isCalm_of_isPlain (isPlain_of_isAlphanum (h.2 c hc))

/-- A loop variable is a word after an at sign, found as it was written, and its at sign begins no
directive. -/
theorem loopValue_facts : ∀ b ∈ loopValues,
    (b.head? = some '@' ∧ isWord b.tail = true) ∧ loopVar.spec.body {} (loopVar.text b) = b ∧
      (∀ w ∈ marks, ¬ w <+: b ++ ['\x7d'] ∧ ¬ b ++ ['\x7d'] <+: w) ∧
      '\x7b' ∉ (b ++ ['\x7d']).tail ∧ '@' ∉ (b ++ ['\x7d']).tail := by
  decide +kernel

theorem reads_text (h : t.Accepts b) : t.opener.Reads (t.text b) := by
  cases t with
  | var => exact reads_reference h
  | loopVar =>
      have hword := (loopValue_facts b h).1
      cases b with
      | nil => cases hword.1
      | cons c w =>
          obtain ⟨rfl, hw⟩ : c = '@' ∧ isWord w = true := by
            simpa using hword
          exact @reads_loopValue loopVar.lead _ hw
  | expr => exact reads_body (repeats_of_isCalm h.2)
  | comment =>
      obtain rfl : b = [] := h
      exact reads_letters _
  | await =>
      rcases h with rfl | h
      · exact reads_optional_bare
      · have hne : b ≠ [] := by
          rintro rfl
          cases h
        rw [text, if_neg hne]
        exact reads_optional (.inl rfl) (repeats_of_isCalm (isCalm_of_isArguments h))
  | binding | conditional | whileLoop | eachLoop | untilLoop =>
      exact reads_hash (.inl rfl) (repeats_of_isCalm (isCalm_of_isArguments h))
  | layout | slot | output | inclusion | moduleUse | definition | invocation =>
      exact reads_directive (repeats_of_isPlain (isPlain_of_isArguments h))

/-- The body found in the text of a tag is the one it was written with. -/
theorem body_text (h : t.Accepts b) : t.spec.body {} (t.text b) = b := by
  have hlead := toList_lead t
  cases t with
  | var => exact (body_braces hlead (isTidy_of_isWord h)).1
  | loopVar => exact (loopValue_facts b h).2.1
  | expr => exact (body_braces hlead h.1).1
  | comment =>
      obtain rfl : b = [] := h
      exact body_bare hlead
  | await =>
      rcases h with rfl | h
      · exact body_bare hlead
      · have hne : b ≠ [] := by
          rintro rfl
          cases h
        rw [text, if_neg hne]
        exact (body_braces hlead (isTidy_of_isArguments h)).2
  | binding | conditional | whileLoop | eachLoop | untilLoop =>
      exact (body_braces hlead (isTidy_of_isArguments h)).2
  | layout | slot | output | inclusion | moduleUse | definition | invocation =>
      exact body_directive hlead (isTidy_of_isArguments h)

/-! ### Marks inside a text -/

theorem still_append_of_clash {a l : List Char} (h : ∀ w ∈ marks, ¬ w <+: a ∧ ¬ a <+: w) :
    Still (a ++ l) := by
  intro w hw hprefix
  rcases List.prefix_or_prefix_of_prefix hprefix (List.prefix_append a l) with hwa | haw
  · exact (h w hw).1 hwa
  · exact (h w hw).2 haw

theorem still_of_mem {x a₁ a₂ l : List Char} (hx : ∀ c ∈ x, c ≠ '\x7b' ∧ c ≠ '@')
    (h : x = a₁ ++ a₂) (hne : a₂ ≠ []) : Still (a₂ ++ l) := by
  obtain ⟨c, a, rfl⟩ := List.exists_cons_of_ne_nil hne
  obtain ⟨h₁, h₂⟩ := hx c (h ▸ List.mem_append_right a₁ List.mem_cons_self)
  exact still_of_head h₁ h₂

theorem bland_of_isCalm (h : ∀ c ∈ b, isCalm c = true) : ∀ c ∈ b, c ≠ '\x7b' ∧ c ≠ '@' := by
  intro c hc
  obtain ⟨_, _, _, h₁, _, h₂⟩ := facts_of_isCalm (h c hc)
  exact ⟨h₁, h₂⟩

/-- Behind the first character of the lead of a tag that is no loop variable nothing looks like a
tag, if nothing does in what follows the lead. -/
theorem bland_tail_append (ht : t ≠ loopVar) {x : List Char}
    (hx : ∀ c ∈ x, c ≠ '\x7b' ∧ c ≠ '@') : ∀ c ∈ (t.lead ++ x).tail, c ≠ '\x7b' ∧ c ≠ '@' := by
  have hlead := bland_tail_mark (lead_mem_marks t) fun heq => ht (lead_injective heq)
  have hne : t.lead ≠ [] := by
    cases t <;> exact List.cons_ne_nil _ _
  intro c hc
  rw [List.tail_append_of_ne_nil hne] at hc
  rcases List.mem_append.mp hc with hc | hc
  · exact hlead c hc
  · exact hx c hc

theorem bland_closed (hb : ∀ c ∈ b, isCalm c = true) {z : Char} (hz : z ≠ '\x7b' ∧ z ≠ '@') :
    ∀ c ∈ b ++ [z], c ≠ '\x7b' ∧ c ≠ '@' := by
  intro c hc
  rcases List.mem_append.mp hc with hc | hc
  · exact bland_of_isCalm hb c hc
  · rw [List.mem_singleton.mp hc]
    exact hz

theorem bland_spaced (hb : ∀ c ∈ b, isCalm c = true) :
    ∀ c ∈ ' ' :: (b ++ ['\x7d']), c ≠ '\x7b' ∧ c ≠ '@' := by
  intro c hc
  rcases List.mem_cons.mp hc with rfl | hc
  · decide
  · exact bland_closed hb (by decide) c hc

/-- Behind the first character of a tag that is no loop variable nothing looks like a tag. -/
theorem bland_tail_text (h : t.Accepts b) (ht : t ≠ loopVar) :
    ∀ c ∈ (t.text b).tail, c ≠ '\x7b' ∧ c ≠ '@' := by
  -- all texts are the lead, then bland characters
  cases t with
  | loopVar => exact absurd rfl ht
  | comment => exact bland_tail_mark (lead_mem_marks comment) fun heq => ht (lead_injective heq)
  | var =>
      rw [text, List.append_assoc]
      exact bland_tail_append ht (bland_closed (isCalm_of_isWord h) (by decide))
  | expr =>
      rw [text, List.append_assoc]
      exact bland_tail_append ht (bland_closed h.2 (by decide))
  | await =>
      rcases h with rfl | h
      · exact bland_tail_append ht (x := ['\x7d']) (bland_of_not_mem (by decide))
      · have hne : b ≠ [] := by
          rintro rfl
          cases h
        rw [text, if_neg hne, List.append_assoc]
        exact bland_tail_append ht (bland_spaced (isCalm_of_isArguments h))
  | binding | conditional | whileLoop | eachLoop | untilLoop =>
      rw [text, List.append_assoc]
      exact bland_tail_append ht (bland_spaced (isCalm_of_isArguments h))
  | layout | slot | output | inclusion | moduleUse | definition | invocation =>
      rw [text, List.append_assoc]
      exact bland_tail_append ht (bland_closed (isCalm_of_isArguments h) (by decide))

/-- Behind its first character no tag opens or closes in the text of a tag. -/
theorem still_text (h : t.Accepts b) {a₁ a₂ l : List Char} (hx : t.text b = a₁ ++ a₂)
    (h₁ : a₁ ≠ []) (h₂ : a₂ ≠ []) : Still (a₂ ++ l) := by
  obtain ⟨c, a, rfl⟩ := List.exists_cons_of_ne_nil h₁
  have htail : (t.text b).tail = a ++ a₂ := by rw [hx, List.cons_append, List.tail_cons]
  by_cases ht : t = loopVar
  · -- the at sign of a loop variable begins no directive
    subst ht
    obtain ⟨_, _, hat, hbland⟩ := loopValue_facts b h
    rw [text, List.tail_cons] at htail
    cases a with
    | nil =>
        rw [List.nil_append] at htail
        rw [← htail]
        exact still_append_of_clash hat
    | cons d a =>
        have htail' : (b ++ ['\x7d']).tail = a ++ a₂ := by
          rw [htail, List.cons_append, List.tail_cons]
        exact still_of_mem (bland_of_not_mem hbland) htail' h₂
  · exact still_of_mem (bland_tail_text h ht) htail h₂

theorem lead_prefix_text (h : t.Accepts b) : t.lead <+: t.text b := by
  rw [← stem_opener t]
  exact (reads_text h).stem

end BuiltinTag

end TagTemplate
