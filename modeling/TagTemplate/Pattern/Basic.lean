import TagTemplate.Pattern.CharClass

/-! # Patterns

Regular patterns with preferences: of two alternatives the first is preferred, a greedy repetition
prefers to go on and a lazy one prefers to stop.

* `follow` lists the positions that a pattern reaches from a position, the most preferred first and
  each position once.
* `matchAt?` is the preferred match at a position, `find?` the one at the first position that has
  any. -/

namespace TagTemplate

/-- A condition on a place between two characters.  The flag `ascii` restricts words to ASCII. -/
inductive Place where
  | textStart
  | textEnd
  | lineStart
  | lineEnd
  | lineStartCR
  | lineEndCR
  | boundary (ascii : Bool)
  | noBoundary (ascii : Bool)
  | wordStart (ascii : Bool)
  | wordEnd (ascii : Bool)
  | wordStartHalf (ascii : Bool)
  | wordEndHalf (ascii : Bool)
deriving DecidableEq, Repr

inductive Pattern where
  | empty
  | char (cs : CharClass)
  | place (p : Place)
  | seq (a b : Pattern)
  | alt (a b : Pattern)
  | star (greedy : Bool) (a : Pattern)
  | group (name : String) (a : Pattern)
deriving DecidableEq, Repr, Inhabited

namespace Place

def before? (text : Array Char) (pos : Nat) : Option Char :=
  if pos = 0 then none else text[pos - 1]?

def isWord (ascii : Bool) : Option Char → Bool
  | none => false
  | some c => if ascii then CharClass.word.toAscii.contains c else CharClass.word.contains c

/-- The condition holds at a position of a text. -/
def holds (p : Place) (text : Array Char) (pos : Nat) : Bool :=
  let prev := before? text pos
  let next := text[pos]?
  match p with
  | textStart => prev.isNone
  | textEnd => next.isNone
  | lineStart => prev.isNone || prev = some '\n'
  | lineEnd => next.isNone || next = some '\n'
  | lineStartCR => prev.isNone || prev = some '\n' || (prev = some '\r' && next ≠ some '\n')
  | lineEndCR => next.isNone || next = some '\r' || (next = some '\n' && prev ≠ some '\r')
  | boundary a => isWord a prev != isWord a next
  | noBoundary a => isWord a prev == isWord a next
  | wordStart a => !isWord a prev && isWord a next
  | wordEnd a => isWord a prev && !isWord a next
  | wordStartHalf a => !isWord a prev
  | wordEndHalf a => !isWord a next

end Place

/-- A position reached, with the named groups passed on the way, the latest first. -/
structure Trail where
  pos : Nat
  groups : List (String × Nat × Nat) := []
deriving DecidableEq, Repr

/-- Positions in the order in which they were first reached, the latest first, and the set of
them. -/
structure Reach where
  trails : List Trail := []
  seen : Nat := 0
deriving DecidableEq, Repr

namespace Reach

/-- The position has been reached. -/
def has (r : Reach) (pos : Nat) : Bool :=
  r.seen.testBit pos

/-- The position of a trail is reached, unless it has been already. -/
def add (r : Reach) (t : Trail) : Reach :=
  if r.has t.pos then r else ⟨t :: r.trails, r.seen ||| 1 <<< t.pos⟩

/-- The positions in the order in which they were reached. -/
def toList (r : Reach) : List Trail :=
  r.trails.reverse

end Reach

namespace Pattern

/-! ### Following a pattern -/

mutual

/-- The positions reached by steps repeated from a trail.  A greedy repetition goes on before it
stops, a lazy one stops before it goes on.  Positions reached already are not walked again. -/
def walk (size : Nat) (step : Trail → List Trail) (greedy : Bool) (t : Trail) (r : Reach) :
    Reach :=
  let r := if greedy then r else r.add t
  let r := walkAll size step greedy t.pos (step t) r
  if greedy then r.add t else r
termination_by (size - t.pos, 1, 0)

/-- The positions reached through a list of steps that were made from `origin`.  A step that does
not move ends the repetition. -/
def walkAll (size : Nat) (step : Trail → List Trail) (greedy : Bool) (origin : Nat)
    (steps : List Trail) (r : Reach) : Reach :=
  match steps with
  | [] => r
  | t :: rest =>
    let r :=
      if _h : origin < t.pos ∧ t.pos ≤ size then
        if r.has t.pos then r else walk size step greedy t r
      else r.add t
    walkAll size step greedy origin rest r
termination_by (size - origin, 0, steps.length)

end

/-- The positions that a pattern reaches from a trail, put after those already in `r`. -/
def follow (text : Array Char) : Pattern → Trail → Reach → Reach
  | empty, t, r => r.add t
  | char cs, t, r =>
    match text[t.pos]? with
    | some c => if cs.contains c then r.add { t with pos := t.pos + 1 } else r
    | none => r
  | place p, t, r => if p.holds text t.pos then r.add t else r
  | seq a b, t, r => (follow text a t {}).toList.foldl (fun r t => follow text b t r) r
  | alt a b, t, r => follow text b t (follow text a t r)
  | star greedy a, t, r =>
    (walk text.size (fun t => (follow text a t {}).toList) greedy t {}).toList.foldl .add r
  | group name a, t, r =>
    (follow text a t {}).toList.foldl
      (fun r u => r.add { u with groups := (name, t.pos, u.pos) :: u.groups }) r

/-- The preferred match of a pattern at a position. -/
def matchAt? (p : Pattern) (text : Array Char) (pos : Nat) : Option Trail :=
  (follow text p { pos } {}).toList.head?

/-- A match: where it begins and ends, and the named groups on its way. -/
structure Match where
  start : Nat
  stop : Nat
  groups : List (String × Nat × Nat)
deriving DecidableEq, Repr

/-- The match at the first of `n` positions from `pos` on that has one. -/
def findWithin (p : Pattern) (text : Array Char) : Nat → Nat → Option Match
  | 0, _ => none
  | n + 1, pos =>
    match p.matchAt? text pos with
    | some t => some ⟨pos, t.pos, t.groups⟩
    | none => findWithin p text n (pos + 1)

/-- The first match that begins at `start` or later. -/
def find? (p : Pattern) (text : Array Char) (start : Nat) : Option Match :=
  p.findWithin text (text.size + 1 - start) start

/-- The pattern matches somewhere in the text. -/
def isMatch (p : Pattern) (text : Array Char) : Bool :=
  (p.find? text 0).isSome

/-! ### Derived patterns -/

def optional (greedy : Bool) (a : Pattern) : Pattern :=
  if greedy then alt a empty else alt empty a

/-- Patterns one after another. -/
def seqAll : List Pattern → Pattern
  | [] => empty
  | [a] => a
  | a :: rest => seq a (seqAll rest)

/-- The first of a list of patterns, then the second, and so on. -/
def altAll : List Pattern → Pattern
  | [] => empty
  | [a] => a
  | a :: rest => alt a (altAll rest)

/-- At most `n` times the pattern. -/
def atMost (greedy : Bool) (a : Pattern) : Nat → Pattern
  | 0 => empty
  | n + 1 => optional greedy (if n = 0 then a else seq a (atMost greedy a n))

/-- From `least` to `most` times the pattern, without an upper limit if there is no `most`. -/
def repeated (greedy : Bool) (a : Pattern) (least : Nat) (most : Option Nat) : Pattern :=
  let front := List.replicate least a
  match most with
  | none => seqAll (front ++ [star greedy a])
  | some m => if m ≤ least then seqAll front else seqAll (front ++ [atMost greedy a (m - least)])

/-! ### Size -/

/-- A measure of the machine that would run a class: one unit for classes of few characters, many
for the classes of Unicode. -/
def classWeight : CharClass → Nat
  | .nothing => 1
  | .range _ last => if last.toNat < 0x80 then 1 else 4
  | .digit => 80
  | .space => 12
  | .word => 640
  | .complement a => classWeight a + 8
  | .union a b => max (classWeight a) (classWeight b)
  | .intersection a b => max (classWeight a) (classWeight b)
  | .caseless a => classWeight a + 1

/-- A measure of the machine that would run a pattern. -/
def weight : Pattern → Nat
  | empty => 1
  | char cs => classWeight cs
  | place _ => 1
  | seq a b => weight a + weight b
  | alt a b => weight a + weight b + 1
  | star _ a => weight a + 1
  | group _ a => weight a + 2

/-- The largest weight that is accepted. -/
def maxWeight : Nat := 327680

end Pattern

end TagTemplate
