import TagTemplate.Proofs.Document.Outline
import TagTemplate.Proofs.Scanning.TagText

/-! # Template texts from trees

A script is a template text as a tree: gaps of literal text alternate with leaf tags, raw blocks and
blocks that hold a script.  An empty gap is no text at all, so no two texts are neighbours.

`Script.print` writes a script under the usual delimiters, `Script.outline` lists what is expected
of the nodes that it denotes. -/

namespace TagTemplate

open BuiltinTag

/-! ### Arguments -/

/-- Letters and digits, a letter first. -/
abbrev Word := { w : List Char // isWord w = true }

/-- A word, or a key with a value. -/
inductive TagArgument where
  | plain (w : Word)
  | pair (key value : Word)

def TagArgument.text : TagArgument → List Char
  | plain w => w.1
  | pair key value => key.1 ++ '=' :: value.1

/-- One or more arguments. -/
structure TagArguments where
  first : TagArgument
  others : List TagArgument := []

/-- The text of arguments, with blanks in between. -/
def TagArguments.text (a : TagArguments) : List Char :=
  a.others.foldl (fun s x => s ++ ' ' :: x.text) a.first.text

theorem isArguments_append {a b : List Char} {c : Char} (ha : isArguments a = true)
    (hc : isPlain c = true) (hb : isArguments b = true) : isArguments (a ++ c :: b) = true := by
  rw [isArguments, Bool.and_eq_true] at ha hb ⊢
  refine ⟨isTidy_append ha.1 hb.1 c, ?_⟩
  rw [List.all_append, List.all_cons, ha.2, hc, hb.2]
  rfl

theorem isArguments_word (w : Word) : isArguments w.1 = true := by
  have h := w.2
  rw [isArguments, isTidy_of_isWord h, Bool.true_and, List.all_eq_true]
  rw [isWord, Bool.and_eq_true, List.all_eq_true] at h
  exact fun c hc => isPlain_of_isAlphanum (h.2 c hc)

theorem TagArgument.isArguments_text (x : TagArgument) : isArguments x.text = true := by
  cases x with
  | plain w => exact isArguments_word w
  | pair key value =>
      exact isArguments_append (isArguments_word key) (by decide) (isArguments_word value)

theorem TagArguments.isArguments_text (a : TagArguments) : isArguments a.text = true := by
  obtain ⟨first, others⟩ := a
  have hall (l : List TagArgument) : ∀ s, isArguments s = true →
      isArguments (l.foldl (fun s x => s ++ ' ' :: x.text) s) = true := by
    induction l with
    | nil => exact fun s hs => hs
    | cons x l ih =>
        exact fun s hs => ih _ (isArguments_append hs (by decide) x.isArguments_text)
  exact hall others _ first.isArguments_text

/-! ### Tags -/

/-- A variable of a loop. -/
inductive LoopValue where
  | current
  | index
  | key

def LoopValue.text : LoopValue → List Char
  | current => ['@', 'c', 'u', 'r', 'r', 'e', 'n', 't']
  | index => ['@', 'i', 'n', 'd', 'e', 'x']
  | key => ['@', 'k', 'e', 'y']

theorem LoopValue.mem_loopValues (v : LoopValue) : v.text ∈ loopValues := by
  cases v <;> decide

/-- A tag that holds nothing. -/
inductive Leaf where
  | reference (name : Word)
  | loopValue (value : LoopValue)
  | call (function argument : Word)
  | binding (args : TagArguments)
  | output (args : TagArguments)
  | inclusion (args : TagArguments)
  | invocation (args : TagArguments)

namespace Leaf

def tag : Leaf → BuiltinTag
  | reference _ => .var
  | loopValue _ => .loopVar
  | call _ _ => .expr
  | binding _ => .binding
  | output _ => .output
  | inclusion _ => .inclusion
  | invocation _ => .invocation

def body : Leaf → List Char
  | reference name => name.1
  | loopValue value => value.text
  | call function argument => function.1 ++ '(' :: (argument.1 ++ [')'])
  | binding args | output args | inclusion args | invocation args => args.text

def print (l : Leaf) : List Char :=
  l.tag.text l.body

theorem closing?_tag (l : Leaf) : l.tag.closing? = none := by
  cases l <;> rfl

theorem rawBody_tag (l : Leaf) : l.tag.spec.rawBody = false := by
  cases l <;> rfl

theorem accepts_body (l : Leaf) : l.tag.Accepts l.body := by
  cases l with
  | reference name => exact name.2
  | loopValue value => exact value.mem_loopValues
  | call function argument =>
      refine ⟨?_, fun c hc => ?_⟩
      · have hf := isTidy_of_isWord function.2
        rw [isTidy, Bool.and_eq_true] at hf ⊢
        refine ⟨?_, ?_⟩
        · obtain ⟨c, w, hw, hc, _⟩ := exists_of_isWord function.2
          rw [body, hw]
          exact hc
        · rw [body, List.getLast?_append, List.getLast?_cons, List.getLast?_append,
            List.getLast?_singleton]
          rfl
      · rw [body] at hc
        rcases List.mem_append.mp hc with hc | hc
        · exact isCalm_of_isWord function.2 c hc
        · rcases List.mem_cons.mp hc with rfl | hc
          · decide
          · rcases List.mem_append.mp hc with hc | hc
            · exact isCalm_of_isWord argument.2 c hc
            · rw [List.mem_singleton.mp hc]
              decide
  | binding args | output args | inclusion args | invocation args => exact args.isArguments_text

end Leaf

/-- The opening tag of a block with tags inside. -/
inductive Heading where
  | conditional (args : TagArguments)
  | whileLoop (args : TagArguments)
  | eachLoop (args : TagArguments)
  | untilLoop (args : TagArguments)
  | await (args : Option TagArguments)
  | slot (args : TagArguments)

namespace Heading

def tag : Heading → BuiltinTag
  | conditional _ => .conditional
  | whileLoop _ => .whileLoop
  | eachLoop _ => .eachLoop
  | untilLoop _ => .untilLoop
  | await _ => .await
  | slot _ => .slot

def body : Heading → List Char
  | conditional args | whileLoop args | eachLoop args | untilLoop args | slot args => args.text
  | await args => args.elim [] TagArguments.text

def print (h : Heading) : List Char :=
  h.tag.text h.body

def closing (h : Heading) : List Char :=
  h.tag.closing?.getD []

theorem closing?_tag (h : Heading) : h.tag.closing? = some h.closing := by
  cases h <;> rfl

theorem rawBody_tag (h : Heading) : h.tag.spec.rawBody = false := by
  cases h <;> rfl

theorem accepts_body (h : Heading) : h.tag.Accepts h.body := by
  cases h with
  | conditional args | whileLoop args | eachLoop args | untilLoop args | slot args =>
      exact args.isArguments_text
  | await args =>
      cases args with
      | none => exact .inl rfl
      | some args => exact .inr args.isArguments_text

end Heading

/-- The opening tag of a block whose inside is left as it is. -/
inductive RawHeading where
  | comment
  | definition (args : TagArguments)

namespace RawHeading

def tag : RawHeading → BuiltinTag
  | comment => .comment
  | definition _ => .definition

def body : RawHeading → List Char
  | comment => []
  | definition args => args.text

def print (h : RawHeading) : List Char :=
  h.tag.text h.body

def closing (h : RawHeading) : List Char :=
  h.tag.closing?.getD []

theorem closing?_tag (h : RawHeading) : h.tag.closing? = some h.closing := by
  cases h <;> rfl

theorem rawBody_tag (h : RawHeading) : h.tag.spec.rawBody = true := by
  cases h <;> rfl

theorem accepts_body (h : RawHeading) : h.tag.Accepts h.body := by
  cases h with
  | comment => rfl
  | definition args => exact args.isArguments_text

end RawHeading

/-- A raw block.  Its inside is any text in which its own tags neither open nor close. -/
structure RawBlock where
  heading : RawHeading
  inside : List Char
  opens_not : ¬ heading.tag.lead <:+: inside
  closes_not : ¬ heading.closing <:+: inside

/-! ### Scripts -/

/-- Literal text without the characters that begin tags, perhaps empty. -/
abbrev Gap := { g : List Char // ∀ c ∈ g, c ≠ '\x7b' ∧ c ≠ '@' }

theorem bland_nil : ∀ c ∈ ([] : List Char), c ≠ '\x7b' ∧ c ≠ '@' :=
  List.forall_mem_nil _

/-- A template text as a tree. -/
inductive Script where
  | last (gap : Gap)
  | leaf (gap : Gap) (tag : Leaf) (rest : Script)
  | raw (gap : Gap) (block : RawBlock) (rest : Script)
  | block (gap : Gap) (heading : Heading) (inside rest : Script)

namespace Script

/-- The text of a script. -/
def print : Script → List Char
  | last gap => gap.1
  | leaf gap tag rest => gap.1 ++ (tag.print ++ rest.print)
  | raw gap b rest =>
    gap.1 ++ (b.heading.print ++ (b.inside ++ (b.heading.closing ++ rest.print)))
  | block gap heading inside rest =>
    gap.1 ++ (heading.print ++ (inside.print ++ (heading.closing ++ rest.print)))

/-- The part of a gap whose first byte is at `base`, if there is text in it. -/
def gapParts (base : Nat) (gap : Gap) : List Part :=
  if gap.1 = [] then [] else [.literal (.ofList gap.1) ⟨base, base + Text.byteLength gap.1⟩]

/-- The parts that are expected of a script whose first byte is at `base`. -/
def parts (base : Nat) : Script → List Part
  | last gap => gapParts base gap
  | leaf gap tag rest =>
    let start := base + Text.byteLength gap.1
    let stop := start + Text.byteLength tag.print
    gapParts base gap ++
      .leaf tag.tag.spec (.ofList tag.body) (.ofList tag.print) ⟨start, stop⟩ :: rest.parts stop
  | raw gap b rest =>
    let start := base + Text.byteLength gap.1
    let stop := start + Text.byteLength b.heading.print + Text.byteLength b.inside
      + Text.byteLength b.heading.closing
    gapParts base gap ++
      .raw b.heading.tag.spec (.ofList b.heading.body) (.ofList b.inside) ⟨start, stop⟩
        :: rest.parts stop
  | block gap heading inside rest =>
    let start := base + Text.byteLength gap.1
    let opened := start + Text.byteLength heading.print
    let stop := opened + Text.byteLength inside.print + Text.byteLength heading.closing
    gapParts base gap ++
      .block heading.tag.spec (.ofList heading.body) (.ofList inside.print) (inside.parts opened)
        ⟨start, stop⟩ :: rest.parts stop

def gapOutline (gap : Gap) : List Outline :=
  if gap.1 = [] then [] else [.node "" .literal "" none (some (.ofList gap.1)) []]

/-- What is expected of a node of a tag. -/
def tagOutline (t : BuiltinTag) (body : List Char) (source text : Option (List Char))
    (children : List Outline) : Outline :=
  .node t.spec.name t.spec.kind (.ofList body) (source.map .ofList) (text.map .ofList) children

/-- What is expected of the nodes of a script. -/
def outline : Script → List Outline
  | last gap => gapOutline gap
  | leaf gap tag rest =>
    gapOutline gap ++ tagOutline tag.tag tag.body none (some tag.print) [] :: rest.outline
  | raw gap b rest =>
    gapOutline gap ++ tagOutline b.heading.tag b.heading.body (some b.inside) (some b.inside) []
      :: rest.outline
  | block gap heading inside rest =>
    gapOutline gap ++ tagOutline heading.tag heading.body (some inside.print) none inside.outline
      :: rest.outline

theorem outlineAll_gapParts (base : Nat) (gap : Gap) :
    Part.outlineAll (gapParts base gap) = gapOutline gap := by
  rw [gapParts, gapOutline]
  split <;> rfl

theorem outlineAll_parts (f : Script) : ∀ base, Part.outlineAll (f.parts base) = f.outline := by
  induction f with
  | last gap => exact fun base => outlineAll_gapParts base gap
  | leaf gap tag rest ih =>
      intro base
      rw [parts, Part.outlineAll_append, outlineAll_gapParts, Part.outlineAll, ih]
      rfl
  | raw gap b rest ih =>
      intro base
      rw [parts, Part.outlineAll_append, outlineAll_gapParts, Part.outlineAll, ih]
      rfl
  | block gap heading inside rest ihi ihr =>
      intro base
      rw [parts, Part.outlineAll_append, outlineAll_gapParts, Part.outlineAll, ihr, Part.outline,
        ihi]
      rfl

end Script

end TagTemplate
