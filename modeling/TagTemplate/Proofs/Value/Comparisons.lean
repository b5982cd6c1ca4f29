import TagTemplate.Proofs.Value.Doubles
import TagTemplate.Render.Control

/-! # Comparing values

Two values that stand for numbers compare as doubles, and all other values by their displays.  The
tests on a variable read one order of two values, which is there unless both stand for numbers and
one of them for what is not a number.

* `order_swap` and `order_eq_none_iff`: the order of two values, from either side.
* `holds_coherent`: how the tests go together.  A text equals itself but for spellings of `nan`. -/

namespace TagTemplate

namespace Comparison

/-! ### The order of numbers and texts -/

theorem orderOfNumbers_eq (a b : Float) : orderOfNumbers a b = Decimal.compare? a b := by
  have hgreater : Decimal.compare? b a = some .lt ↔ Decimal.compare? a b = some .gt := by
    rw [Decimal.compare?, Decimal.compare_swap, ← Decimal.compare?]
    rcases Decimal.compare? a b with _ | _ | _ | _ <;> simp
  unfold orderOfNumbers
  simp only [Decimal.lt_iff, Decimal.beq_iff, hgreater]
  rcases Decimal.compare? a b with _ | _ | _ | _ <;> rfl

theorem orderOfNumbers_swap (a b : Float) :
    orderOfNumbers b a = (orderOfNumbers a b).map Ordering.swap := by
  rw [orderOfNumbers_eq, orderOfNumbers_eq]
  exact Decimal.compare_swap _ _

theorem orderOfNumbers_eq_none_iff (a b : Float) :
    orderOfNumbers a b = none ↔ a.isNaN = true ∨ b.isNaN = true := by
  rw [orderOfNumbers_eq]
  exact Decimal.compare_eq_none_iff _ _

theorem orderOfNumbers_self {a : Float} (h : a.isNaN = false) :
    orderOfNumbers a a = some .eq := by
  rw [orderOfNumbers_eq]
  exact Decimal.compare_self h

theorem orderOfTexts_self (a : String) : orderOfTexts a a = .eq := by
  simp [orderOfTexts]

theorem orderOfTexts_swap (a b : String) : orderOfTexts b a = (orderOfTexts a b).swap := by
  unfold orderOfTexts
  rcases lt_trichotomy a b with h | rfl | h
  · rw [if_neg (lt_asymm h), if_neg (ne_of_gt h), if_pos h]
    rfl
  · simp
  · rw [if_pos h, if_neg (lt_asymm h), if_neg (ne_of_gt h)]
    rfl

/-! ### The order of values -/

/-- The value is what is not a number, or a text that spells it. -/
def StandsForNaN : Value → Prop
  | .number x => x.isNaN = true
  | .text s => Decimal.SpellsNaN (Text.trim s.toList)
  | _ => False

/-- Both values stand for numbers, and one of them for what is not a number. -/
def Unordered (v w : Value) : Prop :=
  (number? v).isSome ∧ (number? w).isSome ∧ (StandsForNaN v ∨ StandsForNaN w)

theorem number?_text (s : String) : number? (.text s) = Decimal.read? (Text.trimmed s) :=
  rfl

theorem standsForNaN_iff (v : Value) :
    StandsForNaN v ↔ ∃ x, number? v = some x ∧ x.isNaN = true := by
  cases v with
  | number x => simp [StandsForNaN, number?]
  | text s =>
      rw [number?_text, Decimal.isNaN_read?_iff, Text.trimmed, String.toList_ofList]
      rfl
  | null | bool b | list items | map fields => simp [StandsForNaN, number?]

theorem order_of_numbers {v w : Value} {x y : Float} (hv : number? v = some x)
    (hw : number? w = some y) : order v w = orderOfNumbers x y := by
  rw [order, hv, hw]

theorem order_of_displays {v w : Value} (h : number? v = none ∨ number? w = none) :
    order v w = some (orderOfTexts v.display w.display) := by
  unfold order
  split
  · next hv hw =>
    rcases h with h | h
    · rw [h] at hv; cases hv
    · rw [h] at hw; cases hw
  · rfl

theorem order_swap (v w : Value) : order w v = (order v w).map Ordering.swap := by
  rcases hv : number? v with _ | x
  · rw [order_of_displays (.inl hv), order_of_displays (.inr hv), orderOfTexts_swap]
    rfl
  · rcases hw : number? w with _ | y
    · rw [order_of_displays (.inl hw), order_of_displays (.inr hw), orderOfTexts_swap]
      rfl
    · rw [order_of_numbers hv hw, order_of_numbers hw hv, orderOfNumbers_swap]

/-- Two values have an order but where both stand for numbers and one is not a number. -/
theorem order_eq_none_iff (v w : Value) : order v w = none ↔ Unordered v w := by
  rw [Unordered, standsForNaN_iff, standsForNaN_iff]
  rcases hv : number? v with _ | x
  · rw [order_of_displays (.inl hv)]
    simp
  · rcases hw : number? w with _ | y
    · rw [order_of_displays (.inr hw)]
      simp
    · rw [order_of_numbers hv hw, orderOfNumbers_eq_none_iff]
      simp

/-- A text is in order with itself unless it spells what is not a number. -/
theorem order_text_self (s : String) :
    order (.text s) (.text s) = some .eq ↔ ¬ Decimal.SpellsNaN (Text.trim s.toList) := by
  have hnan := standsForNaN_iff (.text s)
  rw [StandsForNaN] at hnan
  rw [hnan]
  rcases hs : number? (.text s) with _ | x
  · rw [order_of_displays (.inl hs), orderOfTexts_self]
    simp
  · rw [order_of_numbers hs hs]
    cases hx : x.isNaN with
    | false =>
        refine iff_of_true (orderOfNumbers_self hx) ?_
        rintro ⟨y, hy, hnan⟩
        cases hy
        rw [hx] at hnan
        cases hnan
    | true =>
        rw [(orderOfNumbers_eq_none_iff x x).mpr (.inl hx)]
        exact iff_of_false nofun fun h => h ⟨x, rfl, hx⟩

/-! ### Tests -/

theorem existsUnique_accepts (o : Ordering) :
    ∃! c, c ∈ [less, equals, greater] ∧ c.accepts (some o) = true := by
  cases o with
  | lt => exact ⟨less, by decide, fun c => by cases c <;> decide⟩
  | eq => exact ⟨equals, by decide, fun c => by cases c <;> decide⟩
  | gt => exact ⟨greater, by decide, fun c => by cases c <;> decide⟩

/-- A condition that asks for a text compares its variable with it. -/
theorem condition_equals {σ : RenderState} {id : Nat} {var s : String} {v : Value}
    (hvar : (σ.node id).attributes.text? "var" = some var)
    (hequals : (σ.node id).attributes.get? "equals" = some (.quoted s))
    (hv : σ.lookup? id ((Text.dropPrefix? ['$'] var.toList).elim var String.ofList) = some v) :
    σ.condition id = equals.holds v (.text s) := by
  have htest : (all.findSome? fun c => ((σ.node id).attributes.get? c.key).map (c, ·)) =
      some (equals, .quoted s) := by
    rw [all, List.findSome?_cons, key, hequals]
    rfl
  unfold RenderState.condition
  simp only [hvar, htest, hv]
  rfl

/-- The tests go together.  Where one of two numbers is not a number, only `not_equals` holds
between them; between any other two values exactly one of `lt`, `equals` and `gt` holds.  Always
`not_equals` is the opposite of `equals`, `gte` is `gt` or `equals`, `lte` is `lt` or `equals`, and
`gt` is `lt` from the other side.  A text equals itself, also in a condition that asks for it,
unless it spells what is not a number. -/
theorem holds_coherent (v w : Value) (s : String) :
    (Unordered v w →
      ∀ c ∈ [less, equals, greater, lessOrEqual, greaterOrEqual], c.holds v w = false) ∧
    (¬ Unordered v w → ∃! c, c ∈ [less, equals, greater] ∧ c.holds v w = true) ∧
    notEquals.holds v w = !equals.holds v w ∧
    greaterOrEqual.holds v w = (greater.holds v w || equals.holds v w) ∧
    lessOrEqual.holds v w = (less.holds v w || equals.holds v w) ∧
    greater.holds v w = less.holds w v ∧
    (equals.holds (.text s) (.text s) = true ↔ ¬ Decimal.SpellsNaN (Text.trim s.toList)) ∧
    ∀ (σ : RenderState) (id : Nat) (var : String),
      (σ.node id).attributes.text? "var" = some var →
      (σ.node id).attributes.get? "equals" = some (.quoted s) →
      σ.lookup? id ((Text.dropPrefix? ['$'] var.toList).elim var String.ofList) =
        some (.text s) →
      (σ.condition id = true ↔ ¬ Decimal.SpellsNaN (Text.trim s.toList)) := by
  have hself : equals.holds (.text s) (.text s) = true ↔
      ¬ Decimal.SpellsNaN (Text.trim s.toList) := by
    rw [← order_text_self]
    simp [holds, accepts]
  refine ⟨fun h c hc => ?_, fun h => ?_, ?_, ?_, ?_, ?_, hself,
    fun σ id var hvar hequals hv => ?_⟩
  · have hnone := (order_eq_none_iff v w).mpr h
    rw [holds, hnone]
    revert c
    decide
  · have hsome : order v w ≠ none := fun hnone => h ((order_eq_none_iff v w).mp hnone)
    obtain ⟨o, ho⟩ := Option.ne_none_iff_exists'.mp hsome
    simp only [holds, ho]
    exact existsUnique_accepts o
  · simp [holds, accepts]
  · simp [holds, accepts]
  · simp [holds, accepts]
  · rw [holds, holds, order_swap v w]
    rcases order v w with _ | _ | _ | _ <;> rfl
  · rw [condition_equals hvar hequals hv]
    exact hself

/-- A condition that asks whether the variable `word` is the text `s`, where it is. -/
def wordState (s : String) : RenderState where
  document := (∅ : Document).push
    { kind := .conditional
      attributes := { pairs := [("var", .bare "word"), ("equals", .quoted s)] }
      content := .children []
      span := ⟨0, 0⟩
      scope := (∅ : Scope).insert "word" (.text s) }

/-- The text `10` and the number 9, the text `NaN` and the number 9, and a condition on `x`. -/
theorem holds_coherent_wordState :
    (∃! c, c ∈ [less, equals, greater] ∧ c.holds (.text "10") (.number 9) = true) ∧
    greater.holds (.text "10") (.number 9) = less.holds (.number 9) (.text "10") ∧
    equals.holds (.text "NaN") (.number 9) = false ∧
    (wordState "x").condition 0 = true := by
  have hordered : ¬ Unordered (.text "10") (.number 9) := by
    rw [← order_eq_none_iff]
    decide +kernel
  have hunordered : Unordered (.text "NaN") (.number 9) := by
    rw [← order_eq_none_iff]
    decide +kernel
  obtain ⟨-, hone, -, -, -, hturned, -, hcondition⟩ := holds_coherent (.text "10") (.number 9) "x"
  obtain ⟨hnone, -⟩ := holds_coherent (.text "NaN") (.number 9) "x"
  refine ⟨hone hordered, hturned, hnone hunordered equals (by decide), ?_⟩
  exact (hcondition (wordState "x") 0 "word" rfl rfl rfl).mpr (by decide +kernel)

/-- The text `nan` is neither less than itself nor equal to itself nor greater, and a condition that
asks for it is not met by a variable with that text. -/
theorem text_nan_unlike_itself :
    less.holds (.text "nan") (.text "nan") = false ∧
    equals.holds (.text "nan") (.text "nan") = false ∧
    greater.holds (.text "nan") (.text "nan") = false ∧
    (wordState "nan").condition 0 = false := by
  decide +kernel

end Comparison

end TagTemplate
