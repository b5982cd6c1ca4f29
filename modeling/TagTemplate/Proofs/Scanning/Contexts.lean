import TagTemplate.Proofs.Document.Outline
import TagTemplate.Proofs.Scanning.Patches
import TagTemplate.Proofs.Scanning.Script

/-! # Trees with a place for a tag

The tree of a template text around one of its tags, as a context with a place for that tag.  A tag
that is written in another way, which the texts around it cannot tell apart, is put into the same
context.

* `TagContext.fill`: the tree with the tag in its place.
* `Exchanges`: the tag is put into the same context when it is written in the other way, by one rule
  for each way to go on reading.
* `Yields.exchange`: texts that differ in one tag are read as one context, filled in two ways. -/

namespace TagTemplate

open Pattern BuiltinTag

/-- The outlines of a text around a tag: those before and behind it, and the blocks that it
stands in.  A block or a raw block knows the text of its inside, which has the tag's text between two
others. -/
inductive TagContext where
  | leaf (before after : List Outline)
  | opening (before : List Outline) (inside : List Char) (text : Option (List Char))
      (children after : List Outline)
  | block (before : List Outline) (tag : BuiltinTag) (body front back : List Char)
      (inner : TagContext) (after : List Outline)
  | raw (before : List Outline) (tag : BuiltinTag) (body front back : List Char)
      (after : List Outline)

namespace TagContext

open Script

/-- The outlines with the tag in its place, written `w`. -/
def fill (t : BuiltinTag) (w : List Char) : TagContext → List Outline
  | leaf before after => before ++ tagOutline t (t.spec.body {} w) none (some w) [] :: after
  | opening before inside text children after =>
    before ++ tagOutline t (t.spec.body {} w) (some inside) text children :: after
  | block before tag body front back inner after =>
    before ++ tagOutline tag body (some (front ++ (w ++ back))) none (inner.fill t w) :: after
  | raw before tag body front back after =>
    before ++ tagOutline tag body (some (front ++ (w ++ back))) (some (front ++ (w ++ back))) []
      :: after

/-- The context behind other outlines. -/
def behind (outlines : List Outline) : TagContext → TagContext
  | leaf before after => leaf (outlines ++ before) after
  | opening before inside text children after =>
    opening (outlines ++ before) inside text children after
  | block before tag body front back inner after =>
    block (outlines ++ before) tag body front back inner after
  | raw before tag body front back after => raw (outlines ++ before) tag body front back after

theorem fill_behind (outlines : List Outline) (t : BuiltinTag) (w : List Char) (c : TagContext) :
    (c.behind outlines).fill t w = outlines ++ c.fill t w := by
  cases c <;> exact List.append_assoc _ _ _

end TagContext

/-! ### Outlines of parts -/

namespace Part

mutual

theorem outline_placeless (p : Part) : p.placeless.outline = p.outline := by
  cases p with
  | block tag body inside parts span =>
      rw [placeless, outline, outlineAll_placelessAll, outline]
  | literal | leaf | raw => rfl

theorem outlineAll_placelessAll (ps : List Part) : outlineAll (placelessAll ps) = outlineAll ps := by
  cases ps with
  | nil => rfl
  | cons p rest =>
      rw [placelessAll, outlineAll, outline_placeless, outlineAll_placelessAll, outlineAll]

end

theorem outlineAll_eq_of_placelessAll {ps ps' : List Part}
    (h : placelessAll ps' = placelessAll ps) : outlineAll ps' = outlineAll ps := by
  rw [← outlineAll_placelessAll, h, outlineAll_placelessAll]

end Part

/-- The outline of a literal text, if it is not empty. -/
def Outline.literals (a : List Char) : List Outline :=
  if a = [] then [] else [.node "" .literal "" none (some (.ofList a)) []]

namespace TagScanner

open TagTemplate.Part Script

section found
variable {base pos : Nat} {text : Array Char} {g : BuiltinTag} {a v i l : List Char}
  {span : Span} {inner rest : List Part}

theorem outlineAll_literalPart (hl : Remains text pos (a ++ l)) :
    outlineAll (literalPart base text pos (pos + a.length)) = Outline.literals a := by
  have hslice : slice text pos (pos + a.length) = a := hl.slice
  rw [literalPart, hslice, Outline.literals]
  by_cases ha : a = []
  · rw [if_neg (by rw [ha]; exact Nat.lt_irrefl pos), if_pos ha]
    rfl
  · rw [if_pos (Nat.lt_add_of_pos_right (List.length_pos_iff.mpr ha)), if_neg ha]
    rfl

theorem foundBody_remains (hl : Remains text pos (v ++ l)) :
    builtin.foundBody text ⟨g.matcher, pos, pos + v.length⟩ = .ofList (g.spec.body {} v) := by
  have hopened : opened text ⟨g.matcher, pos, pos + v.length⟩ = v := hl.slice
  rw [foundBody, hopened]
  rfl

theorem outlineAll_leaf (hl : Remains text pos (a ++ (v ++ l))) :
    outlineAll (literalPart base text pos (pos + a.length) ++
      .leaf g.spec
        (builtin.foundBody text ⟨g.matcher, pos + a.length, pos + a.length + v.length⟩)
        (.ofList (opened text ⟨g.matcher, pos + a.length, pos + a.length + v.length⟩)) span
          :: rest) =
      Outline.literals a ++ tagOutline g (g.spec.body {} v) none (some v) [] :: outlineAll rest := by
  have hopened : opened text ⟨g.matcher, pos + a.length, pos + a.length + v.length⟩ = v :=
    hl.pass.slice
  rw [outlineAll_append, outlineAll_literalPart hl, foundBody_remains hl.pass, hopened]
  rfl

variable (hl : Remains text pos (a ++ (v ++ (i ++ l))))
include hl

theorem outlineAll_raw :
    outlineAll (literalPart base text pos (pos + a.length) ++
      .raw g.spec
        (builtin.foundBody text ⟨g.matcher, pos + a.length, pos + a.length + v.length⟩)
        (.ofList (slice text (pos + a.length + v.length) (pos + a.length + v.length + i.length)))
        span :: rest) =
      Outline.literals a ++ tagOutline g (g.spec.body {} v) (some i) (some i) [] ::
        outlineAll rest := by
  have hinside := hl.pass.pass.slice
  rw [outlineAll_append, outlineAll_literalPart hl, foundBody_remains hl.pass, slice, hinside]
  rfl

theorem outlineAll_block :
    outlineAll (literalPart base text pos (pos + a.length) ++
      .block g.spec
        (builtin.foundBody text ⟨g.matcher, pos + a.length, pos + a.length + v.length⟩)
        (.ofList (slice text (pos + a.length + v.length) (pos + a.length + v.length + i.length)))
        inner span :: rest) =
      Outline.literals a ++ tagOutline g (g.spec.body {} v) (some i) none (outlineAll inner) ::
        outlineAll rest := by
  have hinside := hl.pass.pass.slice
  rw [outlineAll_append, outlineAll_literalPart hl, foundBody_remains hl.pass, slice, hinside]
  rfl

end found

/-! ### Reading a tag in its place -/

/-- A block that has the same text behind its opening tag in two texts is closed alike. -/
theorem closer?_behind {text text' : Array Char} {pos pos' close stop : Nat} {g : BuiltinTag}
    {S : List Char} (hl : Remains text pos S) (hl' : Remains text' pos' S)
    (h : builtin.closer? g.matcher text pos = some (close, stop)) :
    ∃ s z S₂ : List Char, S = s ++ (z ++ S₂) ∧ close = pos + s.length ∧
      stop = pos + s.length + z.length ∧ builtin.closer? g.matcher text' pos' =
        some (pos' + s.length, pos' + s.length + z.length) := by
  have hrel := Track.closer?_shift hl hl' g (Track.faces_shift _ _ _)
  obtain ⟨z, l, hz, hlz, rfl⟩ := closing_of_closer? h
  rw [h] at hrel
  generalize hclose' : builtin.closer? g.matcher text' pos' = r' at hrel
  cases hrel with
  | @some _ r' hr =>
      obtain ⟨close', stop'⟩ := r'
      obtain ⟨y, _, hy, _, rfl⟩ := closing_of_closer? hclose'
      obtain rfl : z = y := Option.some.inj (hz.symm.trans hy)
      obtain ⟨⟨j, hj, hcj, hcj'⟩, _⟩ := hr
      dsimp only at hcj hcj'
      subst hcj hcj'
      have hlen : (S.take j).length = j := List.length_take_of_le hj
      refine ⟨S.take j, z, l, ?_, ?_, ?_, ?_⟩
      · rw [← hlz.drop, (hl.behind hj).drop, List.take_append_drop]
      all_goals rw [hlen]

theorem Yields.inside {base : Nat} {s : List Char} {inner : List Part}
    (h : builtin.Yields base s.toArray 0 inner) (base' : Nat) :
    ∃ inner', builtin.Yields base' s.toArray 0 inner' ∧ outlineAll inner' = outlineAll inner := by
  obtain ⟨inner', hinner', hparts⟩ := h.shift (remains_toArray s) (remains_toArray s)
  exact ⟨inner', hinner', outlineAll_eq_of_placelessAll hparts⟩

variable {t : BuiltinTag} {w w' : List Char}

/-- Wherever the tag stands in what is read from the position on, the parts are a context filled with
it, and the same context when it is written in the other way. -/
def Exchanges (t : BuiltinTag) (w w' : List Char) (text : Array Char) (pos : Nat)
    (parts : List Part) : Prop :=
  ∀ (base' : Nat) {text' : Array Char} {pos' : Nat} {P S : List Char}, Exchange t P S w w' →
    Remains text pos (P ++ (w ++ S)) → Remains text' pos' (P ++ (w' ++ S)) →
      ∃ (parts' : List Part) (c : TagContext), builtin.Yields base' text' pos' parts' ∧
        outlineAll parts = c.fill t w ∧ outlineAll parts' = c.fill t w'

namespace Exchanges

variable {base close stop : Nat} {text : Array Char} {pos : Nat} {m : TagMatch}
  {inner rest : List Part}

theorem done (hfind : builtin.find? text pos = none) {parts : List Part} :
    Exchanges t w w' text pos parts := by
  intro base' text' pos' P S hx hl hl'
  rcases find?_patch hx hl hl' with ⟨_, _, _, _, _, _, hf, _⟩ | ⟨hf, _⟩
  · cases hfind.symm.trans hf
  · cases hfind.symm.trans hf

theorem leaf (hfind : builtin.find? text pos = some m) (hleaf : m.tag.isBlock = false)
    (hrest : builtin.Yields base text m.stop rest) (ih : Exchanges t w w' text m.stop rest)
    (span : Span) :
    Exchanges t w w' text pos (literalPart base text pos m.start ++
      .leaf m.tag (builtin.foundBody text m) (.ofList (opened text m)) span :: rest) := by
  intro base' text' pos' P S hx hl hl'
  rcases find?_patch hx hl hl' with ⟨g, a, v, P, rfl, _, hf, hf'⟩ | ⟨hf, hf'⟩
  · cases hfind.symm.trans hf
    rw [List.append_assoc, List.append_assoc] at hl hl'
    obtain ⟨rest', c, hrest', hc, hc'⟩ := ih base' hx.suffix.suffix hl.pass.pass hl'.pass.pass
    refine ⟨_, c.behind (Outline.literals a ++
      [tagOutline g (g.spec.body {} v) none (some v) []]), .leaf hf' hleaf hrest', ?_, ?_⟩
    · rw [TagContext.fill_behind, ← hc, List.append_assoc]
      exact outlineAll_leaf hl
    · rw [TagContext.fill_behind, ← hc', List.append_assoc]
      exact outlineAll_leaf hl'
  · cases hfind.symm.trans hf
    obtain ⟨rest', hrest', hparts⟩ := hrest.shift hl.pass.pass hl'.pass.pass
    refine ⟨_, .leaf (Outline.literals P) (outlineAll _), .leaf hf' hleaf hrest',
      outlineAll_leaf hl, ?_⟩
    rw [← outlineAll_eq_of_placelessAll hparts]
    exact outlineAll_leaf hl'

variable (hfind : builtin.find? text pos = some m) (hblock : m.tag.isBlock = true)
  (hclose : builtin.closer? m.matcher text m.stop = some (close, stop))
  (hrest : builtin.Yields base text stop rest)
include hfind hblock hclose hrest

theorem raw (hraw : m.tag.rawBody = true) (ih : Exchanges t w w' text stop rest) (span : Span) :
    Exchanges t w w' text pos (literalPart base text pos m.start ++
      .raw m.tag (builtin.foundBody text m) (.ofList (slice text m.stop close)) span :: rest) := by
  intro base' text' pos' P S hx hl hl'
  rcases find?_patch hx hl hl' with ⟨g, a, v, P, rfl, hlead, hf, hf'⟩ | ⟨hf, hf'⟩
  · cases hfind.symm.trans hf
    have hopens : g.lead <:+: a ++ (v ++ P) := hlead.isInfix.trans (List.suffix_append a _).isInfix
    rw [List.append_assoc, List.append_assoc] at hl hl'
    rcases closer?_patch hx.suffix.suffix hl.pass.pass hl'.pass.pass (hx.neutral g (.inr hopens))
      (hx.neutral' g (.inr hopens)) hclose with
        ⟨b, z, P, rfl, rfl, rfl, hclose'⟩ | ⟨s, z, S, rfl, rfl, rfl, hclose'⟩
    · rw [List.append_assoc, List.append_assoc] at hl hl'
      obtain ⟨rest', c, hrest', hc, hc'⟩ := ih base' hx.suffix.suffix.suffix.suffix
        hl.pass.pass.pass.pass hl'.pass.pass.pass.pass
      refine ⟨_, c.behind (Outline.literals a ++
        [tagOutline g (g.spec.body {} v) (some b) (some b) []]),
        .raw hf' hblock hraw hclose' hrest', ?_, ?_⟩
      · rw [TagContext.fill_behind, ← hc, List.append_assoc]
        exact outlineAll_raw hl
      · rw [TagContext.fill_behind, ← hc', List.append_assoc]
        exact outlineAll_raw hl'
    · rw [← List.append_assoc w, ← List.append_assoc P] at hl
      rw [← List.append_assoc w', ← List.append_assoc P] at hl'
      obtain ⟨rest', hrest', hparts⟩ :=
        hrest.shift hl.pass.pass.pass.pass hl'.pass.pass.pass.pass
      refine ⟨_, .raw (Outline.literals a) g (g.spec.body {} v) P s (outlineAll rest),
        .raw hf' hblock hraw hclose' hrest', outlineAll_raw hl, ?_⟩
      rw [← outlineAll_eq_of_placelessAll hparts]
      exact outlineAll_raw hl'
  · cases hfind.symm.trans hf
    obtain ⟨s, z, S, rfl, rfl, rfl, hclose'⟩ := closer?_behind hl.pass.pass hl'.pass.pass hclose
    obtain ⟨rest', hrest', hparts⟩ := hrest.shift hl.pass.pass.pass.pass hl'.pass.pass.pass.pass
    refine ⟨_, .opening (Outline.literals P) s (some s) [] (outlineAll rest),
      .raw hf' hblock hraw hclose' hrest', outlineAll_raw hl, ?_⟩
    rw [← outlineAll_eq_of_placelessAll hparts]
    exact outlineAll_raw hl'

theorem block (hraw : m.tag.rawBody = false) {base₂ : Nat}
    (hinner : builtin.Yields base₂ (text.extract m.stop close) 0 inner)
    (ihi : Exchanges t w w' (text.extract m.stop close) 0 inner)
    (ihr : Exchanges t w w' text stop rest) (span : Span) :
    Exchanges t w w' text pos (literalPart base text pos m.start ++
      .block m.tag (builtin.foundBody text m) (.ofList (slice text m.stop close)) inner span
        :: rest) := by
  intro base' text' pos' P S hx hl hl'
  rcases find?_patch hx hl hl' with ⟨g, a, v, P, rfl, hlead, hf, hf'⟩ | ⟨hf, hf'⟩
  · cases hfind.symm.trans hf
    have hopens : g.lead <:+: a ++ (v ++ P) := hlead.isInfix.trans (List.suffix_append a _).isInfix
    rw [List.append_assoc, List.append_assoc] at hl hl'
    rcases closer?_patch hx.suffix.suffix hl.pass.pass hl'.pass.pass (hx.neutral g (.inr hopens))
      (hx.neutral' g (.inr hopens)) hclose with
        ⟨b, z, P, rfl, rfl, rfl, hclose'⟩ | ⟨s, z, S, rfl, rfl, rfl, hclose'⟩
    · rw [List.append_assoc, List.append_assoc] at hl hl'
      obtain ⟨rest', c, hrest', hc, hc'⟩ := ihr base' hx.suffix.suffix.suffix.suffix
        hl.pass.pass.pass.pass hl'.pass.pass.pass.pass
      rw [hl.pass.pass.extract] at hinner
      obtain ⟨inner', hinner', hparts⟩ := hinner.inside
        (base' + Text.offsetOf text'.toList (pos' + a.length + v.length))
      rw [← hl'.pass.pass.extract] at hinner'
      refine ⟨_, c.behind (Outline.literals a ++
        [tagOutline g (g.spec.body {} v) (some b) none (outlineAll inner)]),
        .block hf' hblock hraw hclose' hinner' hrest', ?_, ?_⟩
      · rw [TagContext.fill_behind, ← hc, List.append_assoc]
        exact outlineAll_block hl
      · rw [TagContext.fill_behind, ← hc', List.append_assoc, ← hparts]
        exact outlineAll_block hl'
    · -- the tag stands in the block, whose inside is a text of its own
      rw [← List.append_assoc w, ← List.append_assoc P] at hl
      rw [← List.append_assoc w', ← List.append_assoc P] at hl'
      obtain ⟨rest', hrest', hparts⟩ :=
        hrest.shift hl.pass.pass.pass.pass hl'.pass.pass.pass.pass
      rw [hl.pass.pass.extract] at hinner ihi
      obtain ⟨inner', c, hinner', hc, hc'⟩ := ihi (base' + Text.offsetOf text'.toList
        (pos' + a.length + v.length)) hx.suffix.suffix.shorten (remains_toArray _)
        (remains_toArray _)
      rw [← hl'.pass.pass.extract] at hinner'
      refine ⟨_, .block (Outline.literals a) g (g.spec.body {} v) P s c (outlineAll rest),
        .block hf' hblock hraw hclose' hinner' hrest', ?_, ?_⟩
      · rw [TagContext.fill, ← hc]
        exact outlineAll_block hl
      · rw [TagContext.fill, ← hc', ← outlineAll_eq_of_placelessAll hparts]
        exact outlineAll_block hl'
  · cases hfind.symm.trans hf
    obtain ⟨s, z, S, rfl, rfl, rfl, hclose'⟩ := closer?_behind hl.pass.pass hl'.pass.pass hclose
    obtain ⟨rest', hrest', hparts⟩ := hrest.shift hl.pass.pass.pass.pass hl'.pass.pass.pass.pass
    rw [hl.pass.pass.extract] at hinner
    obtain ⟨inner', hinner', hinside⟩ := hinner.inside
      (base' + Text.offsetOf text'.toList (pos' + P.length + w'.length))
    rw [← hl'.pass.pass.extract] at hinner'
    refine ⟨_, .opening (Outline.literals P) s none (outlineAll inner) (outlineAll rest),
      .block hf' hblock hraw hclose' hinner' hrest', outlineAll_block hl, ?_⟩
    rw [← hinside, ← outlineAll_eq_of_placelessAll hparts]
    exact outlineAll_block hl'

end Exchanges

/-- A text in which a tag is written in another way is read as the same context. -/
theorem Yields.exchange {base : Nat} {text : Array Char} {pos : Nat} {parts : List Part}
    (h : builtin.Yields base text pos parts) : Exchanges t w w' text pos parts := by
  induction h with
  | done hfind => exact .done hfind
  | leaf hfind hleaf hrest ih => exact .leaf hfind hleaf hrest ih _
  | raw hfind hblock hraw hclose hrest ih => exact .raw hfind hblock hclose hrest hraw ih _
  | block hfind hblock hraw hclose hinner hrest ihi ihr =>
      exact .block hfind hblock hclose hrest hraw hinner ihi ihr _

/-- A text that is read without errors stays so when one of its tags is written in another way, and
the rest of its tree stays as it is. -/
theorem read_exchange {P S : List Char} (hx : Exchange t P S w w')
    (h : (builtin.read (.ofList (P ++ (w ++ S)))).errors = []) :
    (builtin.read (.ofList (P ++ (w' ++ S)))).errors = [] ∧
      ∃ c : TagContext,
        outlineAll (builtin.read (.ofList (P ++ (w ++ S)))).parts = c.fill t w ∧
        outlineAll (builtin.read (.ofList (P ++ (w' ++ S)))).parts = c.fill t w' := by
  rw [read, String.toList_ofList] at h
  obtain ⟨parts', c, hparts', hc, hc'⟩ := (yields_of_errors advances_builtin h).exchange
    0 hx (remains_toArray _) (remains_toArray _)
  have hread' : builtin.read (.ofList (P ++ (w' ++ S))) = { parts := parts' } := by
    rw [read, String.toList_ofList]
    exact hparts'.readFrom_eq advances_builtin
  have hread : builtin.read (.ofList (P ++ (w ++ S))) =
      builtin.readFrom 0 (P ++ (w ++ S)).toArray 0 0 := by
    rw [read, String.toList_ofList]
  rw [hread, hread']
  exact ⟨rfl, c, hc, hc'⟩

end TagScanner

end TagTemplate
