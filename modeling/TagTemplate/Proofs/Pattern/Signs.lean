import TagTemplate.Pattern.Reader

/-! # Patterns sign by sign

The reader of patterns takes one sign of the text after the other.  Which sign stands at the
beginning of a text depends on the flags only; what it does, depends on the groups around it.

* `readSign`: the sign at the beginning of a text, and what follows it.
* `Sign.perform?`: what a sign does to the groups that are open.
* `read_succ`: the reader performs one sign and goes on. -/

namespace TagTemplate

namespace Pattern

/-- A sign of the notation of patterns. -/
inductive Sign where
  | flags (changed : Flags)
  | opening (name : Option String) (inner : Flags)
  | closing
  | bar
  | repetition (greedy : Bool) (least : Nat) (most : Option Nat)
  | pattern (p : Pattern)

/-- What the reader keeps between two signs: the flags, the names in use, the group it is in and
the groups around that one. -/
structure Pending where
  flags : Flags
  names : List String
  group : OpenGroup
  outer : List OpenGroup

/-- What a sign does. -/
def Sign.perform? : Sign → Pending → Option Pending
  | flags f, st => some { st with
      flags := f
      group := { st.group with items := .flags :: st.group.items } }
  | opening none inner, st => some { st with
      flags := inner
      group := { outer := st.flags }
      outer := st.group :: st.outer }
  | opening (some name) inner, st =>
    if st.names.contains name then none
    else some ⟨inner, name :: st.names, { name := some name, outer := st.flags },
      st.group :: st.outer⟩
  | closing, st =>
    match st.outer with
    | [] => none
    | g :: outer => some ⟨st.group.outer, st.names, g.add st.group.close, outer⟩
  | bar, st => some { st with group := st.group.alternate }
  | repetition greedy least most, st =>
    (st.group.repeatLast? greedy least most).map fun g => { st with group := g }
  | pattern p, st => some { st with group := st.group.add p }

def GroupStart.sign : GroupStart → Sign
  | group name inner => .opening name inner
  | flags changed => .flags changed

def readRepetition (f : Flags) (least : Nat) (most : Option Nat) (s : List Char) :
    Sign × List Char :=
  let (greedy, rest) := readGreed f s
  (.repetition greedy least most, rest)

/-- The sign that begins with a character, and what follows it. -/
def readSign (n : Nat) (f : Flags) (c : Char) (s : List Char) : Option (Sign × List Char) :=
  match c with
  | '(' => (readGroupStart f s).map fun p => (p.1.sign, p.2)
  | ')' => some (.closing, s)
  | '|' => some (.bar, s)
  | '[' =>
    (openClass f s).bind fun o =>
      (readClass f n o.1 [] o.2).map fun p => (.pattern (.char p.1), p.2)
  | '*' => some (readRepetition f 0 none s)
  | '+' => some (readRepetition f 1 none s)
  | '?' => some (readRepetition f 0 (some 1) s)
  | '\x7b' =>
    (readBounds f s).map fun p => readRepetition f p.1.1 p.1.2 (skipSpace f p.2)
  | '\\' =>
    (readEscape f s).bind fun e => (escapedPattern? f e.1).map fun p => (.pattern p, e.2)
  | '.' => if f.unicode then some (.pattern (.char f.dot), s) else none
  | '^' => some (.pattern (.place f.lineStart), s)
  | '$' => some (.pattern (.place f.lineEnd), s)
  | c => some (.pattern (literal f c), s)

/-- The rest of a pattern after what has been read. -/
def Pending.read (n : Nat) (st : Pending) (s : List Char) : Option Pattern :=
  Pattern.read n st.flags st.names st.group st.outer s

/-- The pattern at the end of a text, where no group may be open. -/
def Pending.finish? (st : Pending) : Option Pattern :=
  match st.outer with
  | [] => some st.group.body
  | _ :: _ => none

/-- The reader performs one sign and goes on behind it. -/
theorem read_succ (n : Nat) (st : Pending) (s : List Char) :
    st.read (n + 1) s = match skipSpace st.flags s with
      | [] => st.finish?
      | c :: s' => (readSign n st.flags c s').bind fun x =>
          (x.1.perform? st).bind fun st' => st'.read n x.2 := by
  obtain ⟨f, names, g, outer⟩ := st
  rw [Pending.read, Pattern.read.eq_def]
  dsimp only
  split <;> rename_i heq <;> rw [heq]
  · cases outer <;> rfl
  · -- a group or a change of flags
    simp only [readSign]
    split <;> rename_i hstart <;> rw [hstart]
    · rfl
    · rfl
    · simp only [Option.map_some, Option.bind_some, GroupStart.sign, Sign.perform?]
      split <;> rfl
    · rfl
  · cases outer <;> rfl
  · rfl
  · -- a class
    simp only [readSign]
    split <;> rename_i hopen <;> rw [hopen]
    · simp only [Option.bind_some]
      split <;> rename_i hclass <;> rw [hclass] <;> rfl
    · rfl
  · simp only [readSign, readRepetition, Option.bind_some, Sign.perform?]
    cases g.repeatLast? (readGreed f _).1 0 none <;> rfl
  · simp only [readSign, readRepetition, Option.bind_some, Sign.perform?]
    cases g.repeatLast? (readGreed f _).1 1 none <;> rfl
  · simp only [readSign, readRepetition, Option.bind_some, Sign.perform?]
    cases g.repeatLast? (readGreed f _).1 0 (some 1) <;> rfl
  · -- a repetition with bounds
    simp only [readSign]
    split <;> rename_i hbounds <;> rw [hbounds]
    · simp only [Option.map_some, readRepetition, Option.bind_some, Sign.perform?]
      cases g.repeatLast? (readGreed f (skipSpace f _)).1 _ _ <;> rfl
    · rfl
  · -- an escape
    simp only [readSign]
    split <;> rename_i hescape <;> rw [hescape]
    · simp only [Option.bind_some]
      split <;> rename_i hpattern <;> rw [hpattern] <;> rfl
    · rfl
  · simp only [readSign]
    split <;> rfl
  · rfl
  · rfl
  · -- any other character
    simp only [readSign]
    rfl

end Pattern

end TagTemplate
