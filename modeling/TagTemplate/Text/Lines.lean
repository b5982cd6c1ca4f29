import TagTemplate.Text.Basic

/-! # Lines of a text

A line reaches over its end, which is one of the Unicode line ends or a carriage return with a
line feed.  `flatten_lines` says that nothing is lost, `locate` finds the line and the column of a
position. -/

namespace TagTemplate.Text

def isLineEnd (c : Char) : Bool :=
  c ∈ ['\n', '\r', '\x0b', '\x0c', '\u0085', '\u2028', '\u2029']

/-- The lines with one more character at the beginning of the first. -/
def consLine (c : Char) : List (List Char) → List (List Char)
  | [] => [[c]]
  | l :: ls => (c :: l) :: ls

def lines : List Char → List (List Char)
  | [] => []
  | '\r' :: '\n' :: s => ['\r', '\n'] :: lines s
  | c :: s => if isLineEnd c then [c] :: lines s else consLine c (lines s)

theorem flatten_consLine (c : Char) (ls : List (List Char)) :
    (consLine c ls).flatten = c :: ls.flatten := by
  cases ls <;> simp [consLine]

theorem flatten_lines (s : List Char) : (lines s).flatten = s := by
  fun_induction lines s with
  | case1 => rfl
  | case2 s ih => simp [ih]
  | case3 c s _ _ ih => simp [ih]
  | case4 c s _ _ ih => simp [flatten_consLine, ih]

/-- The number of the line that holds a position, and the column there.  The last line also takes
what comes after it. -/
def locate : List (List Char) → Nat → Nat × Nat
  | l :: l' :: ls, n =>
    if n < l.length then (0, n)
    else
      let (line, column) := locate (l' :: ls) (n - l.length)
      (line + 1, column)
  | _, n => (0, n)

end TagTemplate.Text
