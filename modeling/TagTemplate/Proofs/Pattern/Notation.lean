import TagTemplate.Proofs.Pattern.Reading

/-! # Texts of patterns one after another

The reader of patterns goes through a text from left to right and adds to a group what it reads.  A
text that it can read without what comes after it adds the same patterns everywhere.

* `Denotes`: a text adds a list of patterns, whatever stands around it.
* `Denotes.append`: two such texts add their patterns one after another.
* `denotes_escaped_text`: an escaped text denotes its characters. -/

namespace TagTemplate

namespace Pattern

/-- The group with more items. -/
def OpenGroup.addAll (g : OpenGroup) (ps : List Pattern) : OpenGroup :=
  ps.foldl .add g

/-- The text adds the patterns to any group, whatever comes after it, unless that is a question
mark, which would make a repetition lazy. -/
def Denotes (s : List Char) (ps : List Pattern) : Prop :=
  ∀ (n : Nat) (names : List String) (g : OpenGroup) (outer : List OpenGroup) (rest : List Char),
    s.length + rest.length < n → rest.head? ≠ some '?' → ∃ m, rest.length < m ∧
      read n {} names g outer (s ++ rest) = read m {} names (g.addAll ps) outer rest

/-- The characters that the reader takes for something else than themselves. -/
def isSign (c : Char) : Bool :=
  c ∈ ['(', ')', '|', '[', '*', '+', '?', '\x7b', '\\', '.', '^', '$']

theorem isMeta_of_isSign {c : Char} (h : isSign c = true) : isMeta c = true := by
  simp [isSign] at h
  rcases h with rfl | rfl | rfl | rfl | rfl | rfl | rfl | rfl | rfl | rfl | rfl | rfl <;> rfl

namespace OpenGroup

theorem addAll_eq (g : OpenGroup) (ps : List Pattern) :
    g.addAll ps = { g with items := (ps.map .pattern).reverse ++ g.items } := by
  induction ps generalizing g with
  | nil => rfl
  | cons p ps ih =>
      show (g.add p).addAll ps = _
      rw [ih, add, List.map_cons, List.reverse_cons, List.append_assoc, List.singleton_append]

theorem branch_addAll {g : OpenGroup} (h : g.items = []) (ps : List Pattern) :
    (g.addAll ps).branch = seqAll ps := by
  have hpatterns : (ps.map Item.pattern).map Item.toPattern = ps := by
    rw [List.map_map]
    exact List.map_id ps
  rw [addAll_eq, branch, h]
  dsimp only
  rw [List.append_nil, List.reverse_reverse, hpatterns]

theorem branches_addAll (g : OpenGroup) (ps : List Pattern) :
    (g.addAll ps).branches = g.branches := by
  rw [addAll_eq]

theorem body_addAll {g : OpenGroup} (h : g.items = []) (hb : g.branches = []) (ps : List Pattern) :
    (g.addAll ps).body = seqAll ps := by
  rw [body, branch_addAll h, branches_addAll, hb]
  rfl

end OpenGroup

namespace Denotes

variable {s t : List Char} {ps qs : List Pattern}

theorem nil : Denotes [] [] := by
  intro n names g outer rest hn _
  exact ⟨n, by simpa using hn, rfl⟩

theorem append (hs : Denotes s ps) (ht : Denotes t qs) (hhead : t.head? ≠ some '?') :
    Denotes (s ++ t) (ps ++ qs) := by
  intro n names g outer rest hn hrest
  have hfirst : (t ++ rest).head? ≠ some '?' := by
    cases t with
    | nil => exact hrest
    | cons c t => exact hhead
  rw [List.length_append] at hn
  obtain ⟨m, hm, hread⟩ := hs n names g outer (t ++ rest)
    (by rw [List.length_append]; omega) hfirst
  obtain ⟨k, hk, hread'⟩ := ht m names (g.addAll ps) outer rest
    (by rwa [List.length_append] at hm) hrest
  refine ⟨k, hk, ?_⟩
  rw [List.append_assoc, hread, hread', OpenGroup.addAll, OpenGroup.addAll, OpenGroup.addAll,
    List.foldl_append]

end Denotes

/-- Without flags nothing is skipped. -/
theorem skipSpace_usual (s : List Char) : skipSpace {} s = s :=
  rfl

/-- A character that is no sign denotes itself. -/
theorem denotes_literal {c : Char} (h : isSign c = false) : Denotes [c] [char (.single c)] := by
  intro n names g outer rest hn _
  obtain ⟨m, rfl⟩ : ∃ m, n = m + 1 := ⟨n - 1, by omega⟩
  have hm : rest.length < m := by
    rw [List.length_singleton] at hn
    omega
  refine ⟨m, hm, ?_⟩
  rw [List.singleton_append, read.eq_def]
  dsimp only
  rw [skipSpace_usual]
  -- in every case but the last the character is a sign
  split <;> next heq => cases heq <;> first | cases h | rfl

theorem read_escape {n : Nat} {names : List String} {g : OpenGroup} {outer : List OpenGroup}
    {s rest : List Char} {e : Escaped} {p : Pattern} (h : readEscape {} s = some (e, rest))
    (hp : escapedPattern? {} e = some p) :
    read (n + 1) {} names g outer ('\\' :: s) = read n {} names (g.add p) outer rest := by
  simp only [read, skipSpace_usual, h, hp]

/-- A class in brackets adds its pattern. -/
theorem read_class {n : Nat} {names : List String} {g : OpenGroup} {outer : List OpenGroup}
    {s rest rest' : List Char} {o : OpenClass} {cs : CharClass}
    (h : openClass {} s = some (o, rest)) (hclass : readClass {} n o [] rest = some (cs, rest')) :
    read (n + 1) {} names g outer ('[' :: s) = read n {} names (g.add (.char cs)) outer rest' := by
  simp only [read, skipSpace_usual, h, hclass]

theorem denotes_escaped {c : Char} (h : isMeta c = true) :
    Denotes ['\\', c] [char (.single c)] := by
  intro n names g outer rest hn _
  obtain ⟨m, rfl⟩ : ∃ m, n = m + 1 := ⟨n - 1, by omega⟩
  have hm : rest.length < m := by
    rw [List.length_cons, List.length_singleton] at hn
    omega
  have hescape : readEscape {} (c :: rest) = some (.literal c, rest) := by
    simp [isMeta] at h
    rcases h with rfl | rfl | rfl | rfl | rfl | rfl | rfl | rfl | rfl | rfl | rfl | rfl | rfl |
      rfl | rfl | rfl | rfl | rfl <;> rfl
  exact ⟨m, hm, read_escape hescape rfl⟩

/-- A text with a backslash before each sign. -/
def escaped (w : List Char) : List Char :=
  w.flatMap fun c => if isMeta c then ['\\', c] else [c]

theorem toList_escape (s : String) : (escape s).toList = escaped s.toList := by
  rw [escape, String.toList_ofList, escaped]

theorem escaped_cons (c : Char) (w : List Char) :
    escaped (c :: w) = (if isMeta c then ['\\', c] else [c]) ++ escaped w :=
  List.flatMap_cons

theorem head?_escaped_ne (w : List Char) : (escaped w).head? ≠ some '?' := by
  cases w with
  | nil =>
      intro h
      cases h
  | cons c w =>
      rw [escaped_cons]
      split
      · intro h
        cases h
      · next hc =>
        intro h
        cases h
        exact hc rfl

/-! ### Repetitions -/

theorem readGreed_usual {s : List Char} (h : s.head? ≠ some '?') : readGreed {} s = (true, s) := by
  unfold readGreed
  split
  · exact absurd rfl h
  · rfl

theorem Denotes.star {s : List Char} {p : Pattern} (h : Denotes s [p])
    (hw : weight p ≤ maxWeight) : Denotes (s ++ ['*']) [star true p] := by
  intro n names g outer rest hn hrest
  have hhead : ('*' :: rest).head? ≠ some '?' := by
    intro h
    cases h
  rw [List.length_append, List.length_singleton] at hn
  obtain ⟨m, hm, hread⟩ := h n names g outer ('*' :: rest) (by rw [List.length_cons]; omega) hhead
  rw [List.length_cons] at hm
  obtain ⟨k, rfl⟩ : ∃ k, m = k + 1 := ⟨m - 1, by omega⟩
  refine ⟨k, by omega, ?_⟩
  have hrepeat : (g.addAll [p]).repeatLast? true 0 none = some (g.addAll [.star true p]) := by
    have hcopies : ¬ maxWeight < weight p * (max 0 (Option.getD none 0) + 1) := by
      rw [Option.getD_none, Nat.max_self, Nat.zero_add, Nat.mul_one]
      exact Nat.not_lt_of_le hw
    exact if_neg hcopies
  rw [List.append_assoc, List.singleton_append, hread]
  simp only [read, skipSpace_usual, readGreed_usual hrest, hrepeat]

/-! ### Escaped texts -/

theorem denotes_escaped_text : ∀ w : List Char, Denotes (escaped w) (letters w)
  | [] => .nil
  | c :: w => by
      have ih := denotes_escaped_text w
      rw [escaped_cons]
      show Denotes _ ([char (.single c)] ++ letters w)
      split
      · next hc => exact (denotes_escaped hc).append ih (head?_escaped_ne w)
      · next hc =>
        refine (denotes_literal ?_).append ih (head?_escaped_ne w)
        exact Bool.eq_false_iff.mpr fun h => hc (isMeta_of_isSign h)

theorem denotes_letters : ∀ {w : List Char}, (∀ c ∈ w, isSign c = false) → Denotes w (letters w)
  | [], _ => .nil
  | c :: w, h => by
      have ih := denotes_letters fun d hd => h d (List.mem_cons_of_mem c hd)
      refine (denotes_literal (h c List.mem_cons_self)).append ih ?_
      intro hhead
      have hmem := List.mem_of_head? hhead
      cases h '?' (List.mem_cons_of_mem c hmem)

theorem Denotes.parse? {s : String} {ps : List Pattern} {p : Pattern} (h : Denotes s.toList ps)
    (hp : parse? s = some p) : p = seqAll ps := by
  have hhead : ([] : List Char).head? ≠ some '?' := by
    intro h
    cases h
  obtain ⟨m, hm, hread⟩ := h (s.toList.length + 1) [] {} [] [] (Nat.lt_succ_self _) hhead
  obtain ⟨k, rfl⟩ : ∃ k, m = k + 1 := ⟨m - 1, by rw [List.length_nil] at hm; omega⟩
  rw [List.append_nil] at hread
  obtain ⟨hp, _⟩ := Option.filter_eq_some_iff.mp hp
  rw [hread] at hp
  have hbody : some (OpenGroup.addAll {} ps).body = some p := hp
  rw [← Option.some.inj hbody, OpenGroup.body_addAll rfl rfl]

end Pattern

end TagTemplate
