import TagTemplate.Function
import TagTemplate.Proofs.Pattern.Reading

/-! # Splitting and joining

A text is cut where a separator begins, from left to right, and the next separator is looked for
behind the last one.  So `aa` stands in `aaa` once, at its beginning.

* `Text.free_of_cut`: a text is cut at the first separator.
* `Text.joined_pieces`: the pieces with a new text in between are the text with every separator
  replaced by it, and no piece has a separator in it.
* `Function.join_split`: the three functions of expressions agree on every text. -/

namespace TagTemplate

namespace Text

open Pattern (Free)

variable {pat new a b l s : List Char}

/-! ### Replacing -/

theorem replaceFrom_drop : ∀ (a : List Char) {pat new l : List Char},
    replaceFrom pat new a.length (a ++ l) = replaceFrom pat new 0 l
  | [], _, _, _ => rfl
  | _ :: a, _, _, _ => replaceFrom_drop a

/-- An occurrence is replaced, and then the text after it is read. -/
theorem replaceFrom_append (hne : pat ≠ []) :
    replaceFrom pat new 0 (pat ++ l) = new ++ replaceFrom pat new 0 l := by
  obtain ⟨c, p, rfl⟩ := List.exists_cons_of_ne_nil hne
  have hfound : dropPrefix? (c :: p) (c :: (p ++ l)) = some l := dropPrefix?_append (c :: p) l
  rw [List.cons_append, replaceFrom, hfound]
  dsimp only
  rw [List.length_cons, Nat.add_sub_cancel, replaceFrom_drop]

/-- A text in which nothing begins that is to be replaced stays as it is. -/
theorem replaceFrom_of_free (h : Free (· = pat) a l) :
    replaceFrom pat new 0 (a ++ l) = a ++ replaceFrom pat new 0 l := by
  induction a with
  | nil => rfl
  | cons c a ih =>
      have hnone : dropPrefix? pat (c :: (a ++ l)) = none := by
        refine Option.eq_none_iff_forall_ne_some.mpr fun rest hrest => ?_
        refine h [] (c :: a) rfl (List.cons_ne_nil c a) pat rfl ⟨rest, ?_⟩
        exact (eq_append_of_dropPrefix? hrest).symm
      have htail : Free (· = pat) a l := by
        rintro x y rfl hne
        exact h (c :: x) y rfl hne
      rw [List.cons_append, replaceFrom, hnone]
      dsimp only
      rw [ih htail, List.cons_append]

/-! ### Cutting -/

theorem not_isPrefix_of_dropPrefix? (h : dropPrefix? pat s = none) : ¬ pat <+: s := by
  rintro ⟨rest, rfl⟩
  rw [dropPrefix?_append] at h
  cases h

theorem free_cons {c : Char} (hc : ¬ pat <+: c :: (a ++ l)) (ha : Free (· = pat) a l) :
    Free (· = pat) (c :: a) l := by
  rintro x y hxy hne w rfl
  cases x with
  | nil =>
      obtain rfl : c :: a = y := hxy
      exact hc
  | cons d x => exact ha x y (List.cons.inj hxy).2 hne w rfl

/-- A text is cut at the first occurrence: none begins in the text before it, not even one that
runs into it. -/
theorem free_of_cut (h : cut pat s = some (a, b)) : Free (· = pat) a (pat ++ b) := by
  induction s generalizing a b with
  | nil =>
      rw [cut] at h
      split at h
      · cases h
        exact .nil
      · cases h
  | cons c s ih =>
      rw [cut] at h
      split at h
      · cases h
        exact .nil
      · next hnone =>
        obtain ⟨⟨x, y⟩, hxy, heq⟩ := Option.map_eq_some_iff.mp h
        cases heq
        refine free_cons ?_ (ih hxy)
        rw [← List.append_assoc, ← append_of_cut hxy]
        exact not_isPrefix_of_dropPrefix? hnone

theorem free_of_cut_eq_none (h : cut pat s = none) : Free (· = pat) s [] := by
  induction s with
  | nil => exact .nil
  | cons c s ih =>
      rw [cut] at h
      split at h
      · cases h
      · next hnone =>
        refine free_cons ?_ (ih (Option.map_eq_none_iff.mp h))
        rw [List.append_nil]
        exact not_isPrefix_of_dropPrefix? hnone

theorem not_isInfix_of_free (hne : pat ≠ []) (h : Free (· = pat) a l) : ¬ pat <:+: a := by
  rintro ⟨x, y, hxy⟩
  rw [List.append_assoc] at hxy
  refine h x (pat ++ y) hxy.symm (List.append_ne_nil_of_left_ne_nil hne y) pat rfl ?_
  rw [List.append_assoc]
  exact List.prefix_append pat (y ++ l)

/-! ### Pieces -/

theorem pieces_ne_nil (pat s : List Char) : pieces pat s ≠ [] := by
  rw [pieces]
  split
  · exact List.cons_ne_nil _ _
  · split <;> exact List.cons_ne_nil _ _

theorem joined_cons (glue : List Char) {ps : List (List Char)} (h : ps ≠ []) :
    joined glue (a :: ps) = a ++ glue ++ joined glue ps := by
  obtain ⟨p, ps, rfl⟩ := List.exists_cons_of_ne_nil h
  rw [joined]

theorem joined_pieces_self (pat s : List Char) : joined pat (pieces pat s) = s := by
  fun_induction pieces pat s with
  | case1 | case2 => rfl
  | case3 s _ a b hcut ih =>
    rw [joined_cons pat (pieces_ne_nil pat b), ih, ← append_of_cut hcut]

/-- The pieces with a new text in between are the text with every separator replaced. -/
theorem joined_pieces (pat new s : List Char) : joined new (pieces pat s) = replace pat new s := by
  fun_induction pieces pat s with
  | case1 s h => rw [replace, if_pos h, joined]
  | case2 s h hcut =>
    have hfree : replaceFrom pat new 0 (s ++ []) = s ++ replaceFrom pat new 0 [] :=
      replaceFrom_of_free (free_of_cut_eq_none hcut)
    rw [List.append_nil, replaceFrom, List.append_nil] at hfree
    rw [replace, if_neg h, hfree, joined]
  | case3 s h a b hcut ih =>
    rw [replace, if_neg h] at ih
    rw [replace, if_neg h, joined_cons new (pieces_ne_nil pat b), ih, append_of_cut hcut,
      List.append_assoc a pat b, replaceFrom_of_free (free_of_cut hcut), replaceFrom_append h,
      List.append_assoc]

theorem not_isInfix_of_mem_pieces (h : pat ≠ []) {p : List Char} (hp : p ∈ pieces pat s) :
    ¬ pat <:+: p := by
  fun_induction pieces pat s with
  | case1 s hnil => exact absurd hnil h
  | case2 s _ hcut =>
    rw [List.mem_singleton.mp hp]
    exact not_isInfix_of_free h (free_of_cut_eq_none hcut)
  | case3 s _ a b hcut ih =>
    rcases List.mem_cons.mp hp with rfl | hp
    · exact not_isInfix_of_free h (free_of_cut hcut)
    · exact ih hp

theorem joined_eq_intercalate (glue : List Char) : ∀ ps : List (List Char),
    joined glue ps = glue.intercalate ps
  | [] => List.intercalate_nil.symm
  | [p] => (List.intercalate_singleton).symm
  | p :: q :: ps => by
      rw [joined, joined_eq_intercalate glue (q :: ps), List.intercalate_cons_cons]

end Text

namespace Function

theorem displayItems_map_text (items : List String) :
    Value.displayItems (items.map .text) = items := by
  induction items with
  | nil => rfl
  | cons s items ih => rw [List.map_cons, Value.displayItems, ih, Value.display]

theorem split_eq {t s : Value} (h : s.display ≠ "") :
    split [t, s] = .ok (.list
      (((Text.pieces s.display.toList t.display.toList).map String.ofList).map .text)) := by
  rw [List.map_map]
  exact if_neg h

theorem join_texts (items : List String) (u : Value) :
    join [.list (items.map .text), u] = .ok (.text (u.display.intercalate items)) :=
  congrArg (fun l => Except.ok (Value.text (u.display.intercalate l))) (displayItems_map_text items)

theorem replace_eq {t s u : Value} (h : s.display ≠ "") :
    replace [t, s, u] = .ok (.text
      (.ofList (Text.replace s.display.toList u.display.toList t.display.toList))) :=
  if_neg h

theorem intercalate_pieces (glue : String) (pat s : List Char) :
    glue.intercalate ((Text.pieces pat s).map .ofList) =
      .ofList (Text.joined glue.toList (Text.pieces pat s)) := by
  rw [← String.toList_inj, String.toList_intercalate, String.toList_ofList, List.map_map,
    Text.joined_eq_intercalate]
  exact congrArg _ ((List.map_congr_left fun p _ => String.toList_ofList).trans (List.map_id _))

/-- Splitting a text and joining the items with another one replaces each separator by it.  The
items joined with the separator are the text again, and no item has a separator in it. -/
theorem join_split (t s u : Value) (h : s.display ≠ "") :
    ∃ (items : List String) (r : String),
      split [t, s] = .ok (.list (items.map .text)) ∧
      join [.list (items.map .text), u] = .ok (.text r) ∧
      replace [t, s, u] = .ok (.text r) ∧
      join [.list (items.map .text), s] = .ok (.text t.display) ∧
      ∀ item ∈ items, ¬ s.display.toList <:+: item.toList := by
  have hne : s.display.toList ≠ [] := fun hnil => h (String.toList_eq_nil_iff.mp hnil)
  refine ⟨_, _, split_eq h, join_texts _ u, ?_, ?_, fun item hitem => ?_⟩
  · rw [replace_eq h, intercalate_pieces, Text.joined_pieces]
  · rw [join_texts, intercalate_pieces, Text.joined_pieces_self, String.ofList_toList]
  · obtain ⟨p, hp, rfl⟩ := List.mem_map.mp hitem
    rw [String.toList_ofList]
    exact Text.not_isInfix_of_mem_pieces hne hp

/-- A separator that overlaps itself: `aa` stands in `aaa` once. -/
theorem join_split_overlapping : (Value.text "aa").display ≠ "" ∧
    ∃ items : List String, split [.text "aaa", .text "aa"] = .ok (.list (items.map .text)) ∧
      join [.list (items.map .text), .text "b"] = .ok (.text "ba") ∧
      replace [.text "aaa", .text "aa", .text "b"] = .ok (.text "ba") ∧
      join [.list (items.map .text), .text "aa"] = .ok (.text "aaa") := by
  have hne : (Value.text "aa").display ≠ "" := by decide
  obtain ⟨items, r, hsplit, hjoin, hreplace, hback, -⟩ :=
    join_split (.text "aaa") (.text "aa") (.text "b") hne
  have hr : replace [.text "aaa", .text "aa", .text "b"] = .ok (.text "ba") := rfl
  obtain rfl : r = "ba" := Value.text.inj (Except.ok.inj (hreplace.symm.trans hr))
  exact ⟨hne, items, hsplit, hjoin, hr, hback⟩

end Function

end TagTemplate
