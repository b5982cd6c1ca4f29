import TagTemplate.Decimal.Reader

/-! # Dates and times in TOML

A date, a time of day, or both with an optional offset from universal time.  `Moment.read?` reads
one, `Moment.display` writes it in its normal form. -/

namespace TagTemplate.Toml

/-- A day of the calendar. -/
structure Date where
  year : Nat
  month : Nat
  day : Nat
deriving DecidableEq, Repr

/-- A time of day; the digits of the fraction of a second have no zero at their end. -/
structure Time where
  hour : Nat
  minute : Nat
  second : Nat
  fraction : List Char
deriving DecidableEq, Repr

/-- The offset of a local time from universal time. -/
inductive Offset where
  | universal
  | minutes (ahead : Bool) (count : Nat)
deriving DecidableEq, Repr

/-- A point in time. -/
inductive Moment where
  | date (d : Date)
  | time (t : Time)
  | dateTime (d : Date) (t : Time) (offset : Option Offset)
deriving DecidableEq, Repr

/-! ### Writing -/

/-- A number with zeros in front up to a width. -/
def padded (width n : Nat) : String :=
  let digits := toString n
  .ofList (.replicate (width - digits.length) '0') ++ digits

def Date.display (d : Date) : String :=
  padded 4 d.year ++ "-" ++ padded 2 d.month ++ "-" ++ padded 2 d.day

def Time.display (t : Time) : String :=
  padded 2 t.hour ++ ":" ++ padded 2 t.minute ++ ":" ++ padded 2 t.second
    ++ if t.fraction = [] then "" else "." ++ .ofList t.fraction

/-- The text of an offset; none at all counts as ahead. -/
def Offset.display : Offset → String
  | universal => "Z"
  | minutes ahead count =>
    (if ahead ∨ count = 0 then "+" else "-") ++ padded 2 (count / 60) ++ ":" ++ padded 2 (count % 60)

def Moment.display : Moment → String
  | date d => d.display
  | time t => t.display
  | dateTime d t offset => d.display ++ "T" ++ t.display ++ (offset.map Offset.display).getD ""

/-! ### Reading -/

def daysIn (year month : Nat) : Nat :=
  if month = 2 then
    if year % 4 = 0 ∧ (year % 100 ≠ 0 ∨ year % 400 = 0) then 29 else 28
  else if month ∈ [4, 6, 9, 11] then 30
  else 31

/-- Exactly `count` decimal digits at the beginning. -/
def digits? (count : Nat) (s : List Char) : Option (Nat × List Char) :=
  let ds := s.take count
  if ds.length = count ∧ ds.all Decimal.isDigit then
    some (Decimal.digitsValue 0 ds, s.drop count)
  else none

def after? (c : Char) : List Char → Option (List Char)
  | d :: s => if d = c then some s else none
  | [] => none

def Date.read? (s : List Char) : Option (Date × List Char) := do
  let (year, s) ← digits? 4 s
  let s ← after? '-' s
  let (month, s) ← digits? 2 s
  let s ← after? '-' s
  let (day, s) ← digits? 2 s
  if 1 ≤ month ∧ month ≤ 12 ∧ 1 ≤ day ∧ day ≤ daysIn year month then some (⟨year, month, day⟩, s)
  else none

/-- The fraction of a second, with nine digits of it at most. -/
def fraction? : List Char → Option (List Char × List Char)
  | '.' :: s =>
    let ds := s.takeWhile Decimal.isDigit
    if ds = [] then none
    else some (((ds.take 9).reverse.dropWhile (· = '0')).reverse, s.dropWhile Decimal.isDigit)
  | s => some ([], s)

def Time.read? (s : List Char) : Option (Time × List Char) := do
  let (hour, s) ← digits? 2 s
  let s ← after? ':' s
  let (minute, s) ← digits? 2 s
  let s ← after? ':' s
  let (second, s) ← digits? 2 s
  let (fraction, s) ← fraction? s
  if hour ≤ 23 ∧ minute ≤ 59 ∧ second ≤ 60 then some (⟨hour, minute, second, fraction⟩, s)
  else none

/-- The whole text is an offset, or empty. -/
def Offset.read? : List Char → Option (Option Offset)
  | [] => some none
  | ['Z'] | ['z'] => some (some universal)
  | c :: s =>
    if c = '+' ∨ c = '-' then do
      let (hour, s) ← digits? 2 s
      let s ← after? ':' s
      let (minute, s) ← digits? 2 s
      if hour ≤ 23 ∧ minute ≤ 59 ∧ s = [] then
        some (some (.minutes (c = '+') (60 * hour + minute)))
      else none
    else none

def Moment.read? (s : List Char) : Option Moment :=
  match Date.read? s with
  | some (d, []) => some (date d)
  | some (d, c :: s) =>
    if c = 'T' ∨ c = 't' ∨ c = ' ' then
      (Time.read? s).bind fun (t, s) => (Offset.read? s).map (dateTime d t)
    else none
  | none =>
    match Time.read? s with
    | some (t, []) => some (time t)
    | _ => none

end TagTemplate.Toml
