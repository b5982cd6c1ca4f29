import TagTemplate.Proofs.Body.Quoting
import TagTemplate.Proofs.Scanning.TagText

/-! # Lists in brackets

The items of a list are words and texts in quotes, with commas between them and white space around
each.  A comma in quotes separates nothing, and white space alone is no item.

* `AttrValue.slots_joined`: a list is cut at its own commas.
* `AttrValue.item?_print`: what stands between two commas is read as the item.
* `AttrValue.items_printPlaces`: a list is read as its items, whatever the texts in quotes are.
* `not_mem_printList`: a list of texts in quotes has a closing bracket only if a text has one. -/

namespace TagTemplate

/-- One of the two quotes. -/
inductive QuoteMark where
  | double
  | single
deriving DecidableEq, Repr

namespace QuoteMark

def char : QuoteMark → Char
  | double => '"'
  | single => '\''

theorem char_eq (q : QuoteMark) : q.char = '"' ∨ q.char = '\'' := by
  cases q
  · exact .inl rfl
  · exact .inr rfl

theorem char_ne_backslash (q : QuoteMark) : q.char ≠ '\\' := by
  cases q <;> decide

theorem isWhiteSpace_char (q : QuoteMark) : Text.isWhiteSpace q.char = false := by
  cases q <;> decide

end QuoteMark

/-- A text that stands by itself: a word, or any text in quotes. -/
inductive LoneText where
  | word (w : List Char)
  | quoted (q : QuoteMark) (s : List Char)

namespace LoneText

/-- A word is not empty and has only characters that satisfy `p`. -/
def Sound (p : Char → Bool) : LoneText → Prop
  | word w => w ≠ [] ∧ ∀ c ∈ w, p c = true
  | quoted _ _ => True

def print : LoneText → List Char
  | word w => w
  | quoted q s => Text.quoted q.char s

def string : LoneText → String
  | word w => .ofList w
  | quoted _ s => .ofList s

def value : LoneText → AttrValue
  | word w => .bare (.ofList w)
  | quoted _ s => .quoted (.ofList s)

theorem asText_value (t : LoneText) : t.value.asText = t.string := by
  cases t <;> rfl

end LoneText

/-- The text is not empty, and there is no white space at its ends. -/
structure PlainEnds (s : List Char) : Prop where
  ne_nil : s ≠ []
  head : ∀ c ∈ s.head?, Text.isWhiteSpace c = false
  last : ∀ c ∈ s.getLast?, Text.isWhiteSpace c = false

theorem LoneText.Sound.ends {p : Char → Bool} (hp : ∀ c, p c = true → Text.isWhiteSpace c = false)
    {t : LoneText} (h : t.Sound p) : PlainEnds t.print := by
  cases t with
  | word w =>
      exact ⟨h.1, fun c hc => hp c (h.2 c (List.mem_of_mem_head? hc)),
        fun c hc => hp c (h.2 c (List.mem_of_mem_getLast? hc))⟩
  | quoted q s =>
      refine ⟨List.cons_ne_nil _ _, ?_, ?_⟩
      · rintro c ⟨⟩
        exact q.isWhiteSpace_char
      · intro c hc
        rw [print, Text.quoted, List.getLast?_concat] at hc
        cases hc
        exact q.isWhiteSpace_char

namespace ListSlot

def isPart (c : Char) : Bool :=
  !Text.isWhiteSpace c && c ≠ ',' && c ≠ '"' && c ≠ '\''

theorem facts_of_isPart {c : Char} (h : isPart c = true) :
    Text.isWhiteSpace c = false ∧ c ≠ ',' ∧ c ≠ '"' ∧ c ≠ '\'' := by
  simp only [isPart, Bool.and_eq_true, Bool.not_eq_true', decide_eq_true_eq] at h
  exact ⟨h.1.1.1, h.1.1.2, h.1.2, h.2⟩

end ListSlot

/-- An item of a list with white space around it. -/
structure ListSlot where
  before : List Char := []
  item : LoneText
  after : List Char := []
  white : (∀ c ∈ before, Text.isWhiteSpace c = true) ∧ ∀ c ∈ after, Text.isWhiteSpace c = true
  sound : item.Sound ListSlot.isPart

def ListSlot.print (x : ListSlot) : List Char :=
  x.before ++ x.item.print ++ x.after

/-- The text of a list between its brackets. -/
def printList (l : List ListSlot) : List Char :=
  Text.joined [','] (l.map ListSlot.print)

/-- What stands between two commas of a list: an item, or white space alone. -/
inductive ListPlace where
  | item (x : ListSlot)
  | blank (w : List Char) (white : ∀ c ∈ w, Text.isWhiteSpace c = true)

namespace ListPlace

def print : ListPlace → List Char
  | item x => x.print
  | blank w _ => w

/-- The item meant, none for white space. -/
def value? : ListPlace → Option AttrValue
  | item x => some x.item.value
  | blank _ _ => none

end ListPlace

/-- The text of a list between its brackets, where places may be left blank. -/
def printPlaces (l : List ListPlace) : List Char :=
  Text.joined [','] (l.map ListPlace.print)

/-! ### Commas that separate -/

namespace AttrValue

theorem itemValues_eq_map (l : List AttrValue) : itemValues l = l.map toValue := by
  induction l with
  | nil => rfl
  | cons v l ih => rw [itemValues, ih, List.map_cons]

section slots
variable {q : QuoteMark} {done l : List Char}

theorem slots_plain {w : List Char} (hw : ∀ c ∈ w, c ≠ ',' ∧ c ≠ '"' ∧ c ≠ '\'') :
    slots .outside done (w ++ l) = slots .outside (w.reverse ++ done) l := by
  induction w generalizing done with
  | nil => rfl
  | cons c w ih =>
      obtain ⟨hcomma, hdouble, hsingle⟩ := hw c List.mem_cons_self
      rw [List.cons_append, slots, if_neg fun h => h.1.elim hdouble hsingle, if_neg hcomma,
        ih fun d hd => hw d (List.mem_cons_of_mem c hd), List.reverse_cons, List.append_assoc,
        List.singleton_append]

theorem slots_escape (s : List Char) :
    slots (.inside q.char) done (Text.escape q.char s ++ q.char :: l) =
      slots .outside ((Text.escape q.char s ++ [q.char]).reverse ++ done) l := by
  induction s generalizing done with
  | nil =>
      rw [Text.escape, List.nil_append, slots, if_neg q.char_ne_backslash, if_pos rfl]
      rfl
  | cons c s ih =>
      rw [Text.escape]
      split
      · rw [List.cons_append, List.cons_append, slots, if_pos rfl, slots, ih]
        simp
      · next h =>
        obtain ⟨hback, hquote⟩ := not_or.mp h
        rw [List.cons_append, slots, if_neg hback, if_neg hquote, ih]
        simp

/-- A text in quotes at the beginning of an item is passed as a whole. -/
theorem slots_quoted (hdone : done.all Text.isWhiteSpace = true) (s : List Char) :
    slots .outside done (Text.quoted q.char s ++ l) =
      slots .outside ((Text.quoted q.char s).reverse ++ done) l := by
  have htext : Text.quoted q.char s ++ l = q.char :: (Text.escape q.char s ++ q.char :: l) := by
    simp [Text.quoted]
  rw [htext, slots, if_pos ⟨q.char_eq, hdone⟩, slots_escape]
  simp [Text.quoted]

theorem ne_of_isWhiteSpace {c : Char} (h : Text.isWhiteSpace c = true) :
    c ≠ ',' ∧ c ≠ '"' ∧ c ≠ '\'' := by
  refine ⟨?_, ?_, ?_⟩ <;> rintro rfl <;> exact absurd h (by decide)

/-- The text is passed as a whole from the beginning of an item: no comma in it separates. -/
def Passed (w : List Char) : Prop :=
  ∀ l, slots .outside [] (w ++ l) = slots .outside w.reverse l

theorem passed_blank {w : List Char} (hw : ∀ c ∈ w, Text.isWhiteSpace c = true) : Passed w := by
  intro l
  rw [slots_plain fun c hc => ne_of_isWhiteSpace (hw c hc), List.append_nil]

theorem passed_print (x : ListSlot) : Passed x.print := by
  intro l
  have hitem : slots .outside x.before.reverse (x.item.print ++ (x.after ++ l)) =
      slots .outside (x.item.print.reverse ++ x.before.reverse) (x.after ++ l) := by
    cases hx : x.item with
    | word w =>
        have hsound := x.sound
        rw [hx] at hsound
        refine slots_plain fun c hc => ?_
        exact (ListSlot.facts_of_isPart (hsound.2 c hc)).2
    | quoted q s =>
        refine slots_quoted ?_ s
        rw [List.all_reverse, List.all_eq_true]
        exact x.white.1
  rw [ListSlot.print, List.append_assoc, List.append_assoc,
    slots_plain fun c hc => ne_of_isWhiteSpace (x.white.1 c hc), List.append_nil, hitem,
    slots_plain fun c hc => ne_of_isWhiteSpace (x.white.2 c hc)]
  simp

theorem slots_joined : ∀ {ws : List (List Char)}, ws ≠ [] → (∀ w ∈ ws, Passed w) →
    slots .outside [] (Text.joined [','] ws) = ws
  | [], h, _ => absurd rfl h
  | [w], _, hpassed => by
      have hend := hpassed w List.mem_cons_self []
      rw [List.append_nil] at hend
      rw [Text.joined, hend, slots, List.reverse_reverse]
  | w :: v :: rest, _, hpassed => by
      have hcomma : ¬ (',' = '"' ∨ ',' = '\'') := by decide
      have hrest := slots_joined (List.cons_ne_nil v rest) fun u hu =>
        hpassed u (List.mem_cons_of_mem w hu)
      rw [Text.joined, List.append_assoc, hpassed w List.mem_cons_self, List.singleton_append,
        slots, if_neg fun h => hcomma h.1, if_pos rfl, List.reverse_reverse, hrest]

end slots

/-! ### Items -/

theorem between?_quoted (q : Char) (s : List Char) :
    between? q (Text.quoted q s) = some (Text.escape q s) := by
  have htext : Text.quoted q s = [q] ++ (Text.escape q s ++ [q]) := rfl
  rw [between?, htext, Text.dropPrefix?_append, Option.bind_some, dropSuffix?_append]

theorem between?_of_head {q c : Char} {s : List Char} (h : q ≠ c) : between? q (c :: s) = none := by
  rw [between?, Text.dropPrefix?, if_neg h, Option.bind_none]

theorem item?_blank {w : List Char} (hw : ∀ c ∈ w, Text.isWhiteSpace c = true) :
    item? w = none := by
  have htrim : Text.trim w = [] := Text.strip_of_all hw
  rw [item?, htrim, if_pos rfl]

theorem item?_print (x : ListSlot) : item? x.print = some x.item.value := by
  have hends : PlainEnds x.item.print := x.sound.ends fun c hc => (ListSlot.facts_of_isPart hc).1
  have htrim : Text.trim x.print = x.item.print :=
    Text.strip_around x.white.1 hends.head hends.last x.white.2
  rw [item?, htrim, if_neg hends.ne_nil]
  cases hx : x.item with
  | word w =>
      have hsound := x.sound
      rw [hx] at hsound
      obtain ⟨hw, hparts⟩ := hsound
      obtain ⟨c, w, rfl⟩ := List.exists_cons_of_ne_nil hw
      obtain ⟨-, -, hdouble, hsingle⟩ := ListSlot.facts_of_isPart (hparts c List.mem_cons_self)
      rw [LoneText.print, between?_of_head hdouble.symm, between?_of_head hsingle.symm]
      rfl
  | quoted q s =>
      cases q with
      | double =>
          rw [LoneText.print, QuoteMark.char, between?_quoted]
          dsimp only
          rw [Text.unquote_escape (by decide) (by decide)]
          rfl
      | single =>
          have hother : between? '"' (Text.quoted '\'' s) = none := between?_of_head (by decide)
          rw [LoneText.print, QuoteMark.char, hother, between?_quoted]
          dsimp only
          rw [Text.unquote_escape (by decide) (by decide)]
          rfl

theorem items_joined {ws : List (List Char)} (h : ∀ w ∈ ws, Passed w) :
    items (.ofList (Text.joined [','] ws)) = ws.filterMap item? := by
  rw [items, String.toList_ofList]
  by_cases hws : ws = []
  · rw [hws]
    rfl
  · rw [slots_joined hws h]

theorem items_printList (l : List ListSlot) :
    items (.ofList (printList l)) = l.map (·.item.value) := by
  have hitems : item? ∘ ListSlot.print = some ∘ fun x => x.item.value :=
    funext item?_print
  rw [printList, items_joined fun w hw => ?_, List.filterMap_map, hitems, ← List.filterMap_map,
    List.filterMap_some]
  obtain ⟨x, -, rfl⟩ := List.mem_map.mp hw
  exact passed_print x

/-- A list is read as its items in their order: the words as they are, and the texts in quotes
whatever characters they have.  A place left blank between commas holds no item. -/
theorem items_printPlaces (l : List ListPlace) :
    items (.ofList (printPlaces l)) = l.filterMap ListPlace.value? := by
  have hpassed : ∀ w ∈ l.map ListPlace.print, Passed w := by
    intro w hw
    obtain ⟨p, -, rfl⟩ := List.mem_map.mp hw
    cases p with
    | item x => exact passed_print x
    | blank w white => exact passed_blank white
  have hitem : item? ∘ ListPlace.print = ListPlace.value? := by
    funext p
    cases p with
    | item x => exact item?_print x
    | blank w white => exact item?_blank white
  rw [printPlaces, items_joined hpassed, List.filterMap_map, hitem]

end AttrValue

/-! ### Lists of texts in quotes -/

/-- A text in quotes as an item of a list, perhaps with blanks before it. -/
def quotedSlot (before : List Char) (h : ∀ c ∈ before, Text.isWhiteSpace c = true)
    (s : List Char) : ListSlot where
  before := before
  item := .quoted .double s
  white := ⟨h, List.forall_mem_nil _⟩
  sound := trivial

/-- Texts in quotes as the items of a list, a blank behind each comma. -/
def quotedSlots : List (List Char) → List ListSlot
  | [] => []
  | s :: rest =>
    quotedSlot [] (List.forall_mem_nil _) s :: rest.map (quotedSlot [' '] (List.all_eq_true.mp rfl))

theorem joined_blank : ∀ {l : List (List Char)}, l ≠ [] →
    Text.joined [','] (l.map (' ' :: ·)) = ' ' :: Text.joined [',', ' '] l
  | [], h => absurd rfl h
  | [_], _ => rfl
  | a :: b :: rest, _ => by
      have hrest := joined_blank (List.cons_ne_nil b rest)
      rw [List.map_cons] at hrest
      rw [List.map_cons, List.map_cons, Text.joined, hrest, Text.joined]
      simp

theorem printList_quotedSlots (items : List (List Char)) :
    printList (quotedSlots items) = Text.joined [',', ' '] (items.map (Text.quoted '"')) := by
  cases items with
  | nil => rfl
  | cons s rest =>
      have hfirst : (quotedSlot [] (List.forall_mem_nil _) s).print = Text.quoted '"' s :=
        List.append_nil _
      have hrest : (rest.map (quotedSlot [' '] (List.all_eq_true.mp rfl))).map ListSlot.print =
          (rest.map (Text.quoted '"')).map (' ' :: ·) := by
        rw [List.map_map, List.map_map]
        exact List.map_congr_left fun a _ => List.append_nil _
      rw [printList, quotedSlots, List.map_cons, hfirst, hrest, List.map_cons]
      cases rest with
      | nil => rfl
      | cons a rest =>
          have hjoined := joined_blank (List.cons_ne_nil (Text.quoted '"' a)
            (rest.map (Text.quoted '"')))
          rw [List.map_cons] at hjoined
          rw [List.map_cons, List.map_cons, Text.joined, hjoined, Text.joined]
          simp

theorem mem_joined {c : Char} {glue : List Char} : ∀ {l : List (List Char)},
    c ∈ Text.joined glue l → c ∈ glue ∨ ∃ a ∈ l, c ∈ a
  | [], h => absurd h List.not_mem_nil
  | [a], h => .inr ⟨a, List.mem_cons_self, h⟩
  | a :: b :: rest, h => by
      rw [Text.joined] at h
      rcases List.mem_append.mp h with h | h
      · rcases List.mem_append.mp h with h | h
        · exact .inr ⟨a, List.mem_cons_self, h⟩
        · exact .inl h
      · rcases mem_joined h with h | ⟨d, hd, h⟩
        · exact .inl h
        · exact .inr ⟨d, List.mem_cons_of_mem a hd, h⟩

theorem mem_of_mem_escape {q c : Char} : ∀ {s : List Char}, c ∈ Text.escape q s → c = '\\' ∨ c ∈ s
  | [], h => absurd h List.not_mem_nil
  | d :: s, h => by
      rw [Text.escape] at h
      have hrest (h : c ∈ d :: Text.escape q s) : c = '\\' ∨ c ∈ d :: s := by
        rcases List.mem_cons.mp h with rfl | h
        · exact .inr List.mem_cons_self
        · exact (mem_of_mem_escape h).imp id (List.mem_cons_of_mem d)
      split at h
      · rcases List.mem_cons.mp h with rfl | h
        · exact .inl rfl
        · exact hrest h
      · exact hrest h

/-- There is a closing bracket in the list only if there is one in its texts. -/
theorem not_mem_printList {items : List (List Char)} (h : ∀ s ∈ items, ']' ∉ s) :
    ']' ∉ printList (quotedSlots items) := by
  rw [printList_quotedSlots]
  intro hmem
  rcases mem_joined hmem with hglue | ⟨a, ha, hmem⟩
  · revert hglue
    decide
  · obtain ⟨s, hs, rfl⟩ := List.mem_map.mp ha
    rw [Text.quoted, List.cons_append, List.mem_cons, List.mem_append, List.mem_singleton] at hmem
    rcases hmem with heq | hmem | heq
    · cases heq
    · rcases mem_of_mem_escape hmem with heq | hmem
      · cases heq
      · exact h s hs hmem
    · cases heq

end TagTemplate
