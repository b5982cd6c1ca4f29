import TagTemplate.Proofs.Scanning.RoundTrip

/-! # Fragments lose no text

The nodes of a fragment stand for its whole text.  `Document.Writes s d before ids w` says that the
nodes `ids` with all below them stand for the text `w` that follows the text `before`: literal text
and tags without a closing tag hold their text itself, and the text of a block is its opening tag,
its inside and its closing tag, where the inside is kept as it stands and the nodes of the block
write it.

* `TagScanner.bounds_of_find?` and `TagScanner.bounds_of_balance`: tags are found in the text and
  not before the place where the search begins, whatever the patterns are.
* `Part.prints_readFrom`: the parts that are read from a position write the text from there on.
* `Document.readFragment_writes`: the nodes of a fragment write its text, and each of them stands
  for its span. -/

namespace TagTemplate

/-! ### Places of tags -/

theorem NameMap.mem_of_find? {α : Type} {name : String} {v : α} {l : List (String × α)}
    (h : find? name l = some v) : (name, v) ∈ l := by
  induction l with
  | nil => cases h
  | cons e l ih =>
      obtain ⟨k, u⟩ := e
      rw [find?] at h
      split at h
      · next hk =>
        cases h
        rw [hk]
        exact List.mem_cons_self
      · exact List.mem_cons_of_mem _ (ih h)

namespace TagScanner

variable {s : TagScanner} {text : Array Char}

/-- A tag found opens in the text, and not before the place where the search begins. -/
theorem bounds_of_find? {start : Nat} {m : TagMatch} (h : s.find? text start = some m) :
    start ≤ m.start ∧ m.start ≤ m.stop ∧ m.stop ≤ text.size := by
  obtain ⟨x, hx, h⟩ := Option.bind_eq_some_iff.mp h
  obtain ⟨t, _, h⟩ := List.exists_of_findSome?_eq_some h
  obtain ⟨⟨first, last⟩, hplace, rfl⟩ := Option.map_eq_some_iff.mp h
  have hgroup := Pattern.bounds_of_mem_groups hx (NameMap.mem_of_find? hplace)
  have hmatch := Pattern.bounds_of_find? hx
  change start ≤ first ∧ first ≤ last ∧ last ≤ text.size
  dsimp only at hgroup
  omega

/-- A closing tag found stands in the text, and not before the place where the search begins. -/
theorem le_of_balance {opener closer : Pattern} {skip : Nat → Nat → Option Nat}
    {depth pos first last : Nat}
    (h : balance opener closer skip text depth pos = some (first, last)) :
    pos ≤ first ∧ first ≤ last ∧ last ≤ text.size := by
  fun_induction balance opener closer skip text depth pos with
  | case1 | case3 | case5 | case8 => cases h
  | case2 _ _ _ _ _ _ stop _ hstop ih =>
      have := ih h
      omega
  | case4 _ _ _ _ _ _ _ o _ hstop ih =>
      have := ih h
      omega
  | case6 pos close hclose =>
      cases h
      exact Pattern.bounds_of_find? hclose
  | case7 pos close hclose _ _ _ _ depth hstop ih =>
      have := ih h
      omega

theorem le_of_closer? {m : TagMatcher} {pos first last : Nat}
    (h : s.closer? m text pos = some (first, last)) :
    pos ≤ first ∧ first ≤ last ∧ last ≤ text.size := by
  rw [closer?_eq] at h
  obtain ⟨c, _, h⟩ := Option.bind_eq_some_iff.mp h
  exact le_of_balance h

/-! ### Texts between positions -/

theorem slice_append {a b c : Nat} (hab : a ≤ b) (hbc : b ≤ c) :
    slice text a b ++ slice text b c = slice text a c := by
  rw [slice, slice, ← Array.toList_append, Array.extract_append_extract, Nat.min_eq_left hab,
    Nat.max_eq_right hbc, slice]

theorem slice_all : slice text 0 text.size = text.toList := by
  rw [slice, Array.extract_size]

theorem slice_extract (a b : Nat) :
    slice (text.extract a b) 0 (text.extract a b).size = slice text a b := by
  rw [slice_all, slice]

theorem offsetOf_eq (n : Nat) : Text.offsetOf text.toList n = Text.byteLength (slice text 0 n) := by
  rw [Text.offsetOf, slice, Array.toList_extract, List.extract_eq_take_drop, List.drop_zero,
    Nat.sub_zero]

/-! ### What tags are made of -/

/-- The text opens a tag of these patterns. -/
def Opens (s : TagScanner) (m : TagMatcher) (opener : List Char) : Prop :=
  ∃ text cursor start stop,
    s.find? text cursor = some ⟨m, start, stop⟩ ∧ slice text start stop = opener

/-- The texts are the opening tag of a block, its inside and its closing tag. -/
def Encloses (s : TagScanner) (m : TagMatcher) (opener inside closer : List Char) : Prop :=
  ∃ text cursor start stop close last,
    s.find? text cursor = some ⟨m, start, stop⟩ ∧ s.closer? m text stop = some (close, last) ∧
      slice text start stop = opener ∧ slice text stop close = inside ∧
      slice text close last = closer

end TagScanner

/-! ### Nodes that write a text -/

/-- The span of a text that follows another one. -/
def Span.behind (before w : List Char) : Span :=
  ⟨Text.byteLength before, Text.byteLength (before ++ w)⟩

/-- The characters of a text in a span. -/
def Span.within (span : Span) (text : List Char) : List Char :=
  (text.take (Text.positionOf text span.stop)).drop (Text.positionOf text span.start)

theorem Span.within_behind (before w after : List Char) :
    (behind before w).within (before ++ w ++ after) = w := by
  have hpos (a b : List Char) : Text.positionOf (a ++ b) (Text.byteLength a) = a.length := by
    have h := Text.positionOf_offsetOf (s := a ++ b) (n := a.length) (by simp)
    rwa [Text.offsetOf, List.take_left] at h
  have hstart := hpos before (w ++ after)
  rw [← List.append_assoc] at hstart
  rw [within, behind, hpos, hstart, List.take_left, List.drop_left]

namespace Document

/-- The nodes `ids` with all below them write the text `w` that follows the text `before`. -/
inductive Writes (s : TagScanner) (d : Document) : List Char → List Nat → List Char → Prop
  | nil {before : List Char} : Writes s d before [] []
  | literal {before w v : List Char} {id : Nat} {ids : List Nat} (hw : w ≠ [])
      (hnode : d.node id = .literal (.ofList w) (.behind before w))
      (rest : Writes s d (before ++ w) ids v) : Writes s d before (id :: ids) (w ++ v)
  | leaf {before w v : List Char} {id : Nat} {ids : List Nat} {m : TagMatcher}
      (hopens : s.Opens m w) (hleaf : m.tag.isBlock = false)
      (hnode : d.node id = .ofTag m.tag (.ofList (m.tag.body s.delimiters w)) (.text (.ofList w))
        none (.behind before w))
      (rest : Writes s d (before ++ w) ids v) : Writes s d before (id :: ids) (w ++ v)
  | raw {before opener inside closer v : List Char} {id : Nat} {ids : List Nat} {m : TagMatcher}
      (hencloses : s.Encloses m opener inside closer) (hblock : m.tag.isBlock = true)
      (hraw : m.tag.rawBody = true)
      (hnode : d.node id = .ofTag m.tag (.ofList (m.tag.body s.delimiters opener))
        (.text (.ofList inside)) (some (.ofList inside))
        (.behind before (opener ++ inside ++ closer)))
      (rest : Writes s d (before ++ (opener ++ inside ++ closer)) ids v) :
      Writes s d before (id :: ids) (opener ++ inside ++ closer ++ v)
  | block {before opener inside closer v : List Char} {id : Nat} {kids ids : List Nat}
      {m : TagMatcher} (hencloses : s.Encloses m opener inside closer)
      (hblock : m.tag.isBlock = true) (hraw : m.tag.rawBody = false)
      (hnode : d.node id = .ofTag m.tag (.ofList (m.tag.body s.delimiters opener))
        (.children kids) (some (.ofList inside)) (.behind before (opener ++ inside ++ closer)))
      (inner : Writes s d (before ++ opener) kids inside)
      (rest : Writes s d (before ++ (opener ++ inside ++ closer)) ids v) :
      Writes s d before (id :: ids) (opener ++ inside ++ closer ++ v)

namespace Writes

variable {s : TagScanner} {d : Document} {before w v : List Char} {ids jds : List Nat}

theorem append (h : d.Writes s before ids w) (h' : d.Writes s (before ++ w) jds v) :
    d.Writes s before (ids ++ jds) (w ++ v) := by
  induction h with
  | nil => rwa [List.append_nil] at h'
  | literal hw hnode _ ih =>
      rw [List.append_assoc]
      exact .literal hw hnode (ih (by rwa [List.append_assoc]))
  | leaf hopens hleaf hnode _ ih =>
      rw [List.append_assoc]
      exact .leaf hopens hleaf hnode (ih (by rwa [List.append_assoc]))
  | raw hencloses hblock hraw hnode _ ih =>
      rw [List.append_assoc]
      exact .raw hencloses hblock hraw hnode (ih (by rwa [List.append_assoc]))
  | block hencloses hblock hraw hnode inner _ _ ih =>
      rw [List.append_assoc]
      exact .block hencloses hblock hraw hnode inner (ih (by rwa [List.append_assoc]))

end Writes

/-- The spans of the nodes follow one another from the byte `start` to the byte `stop`, without a
gap and without an overlap. -/
def Tiles (d : Document) (start stop : Nat) : List Nat → Prop
  | [] => start = stop
  | id :: rest =>
    (d.node id).span.start = start ∧ start ≤ (d.node id).span.stop ∧
      d.Tiles (d.node id).span.stop stop rest

theorem tiles_cons {d : Document} {before w : List Char} {stop id : Nat} {ids : List Nat}
    (hspan : (d.node id).span = .behind before w)
    (hrest : d.Tiles (Text.byteLength (before ++ w)) stop ids) :
    d.Tiles (Text.byteLength before) stop (id :: ids) := by
  rw [Tiles, hspan]
  refine ⟨rfl, ?_, hrest⟩
  rw [Span.behind, Text.byteLength_append]
  exact Nat.le_add_right _ _

theorem Writes.tiles {s : TagScanner} {d : Document} {before w : List Char} {ids : List Nat}
    (h : d.Writes s before ids w) :
    d.Tiles (Text.byteLength before) (Text.byteLength (before ++ w)) ids := by
  induction h with
  | nil => rw [Tiles, List.append_nil]
  | literal _ hnode _ ih | leaf _ _ hnode _ ih | raw _ _ _ hnode _ ih | block _ _ _ hnode _ _ _ ih =>
      rw [← List.append_assoc]
      exact tiles_cons (congrArg Node.span hnode) ih

/-- A node stands for its span of the source: a node of text holds the text of the span, and the
span of a block is an opening tag, the text that the node keeps, and a closing tag.  A raw block
holds the kept text, and the nodes in another block tile it. -/
inductive Stands (s : TagScanner) (d : Document) (source : List Char) (id : Nat) : Prop
  | text (hsource : (d.node id).source = none)
      (htext : (d.node id).text? = some (.ofList ((d.node id).span.within source)))
  | raw (m : TagMatcher) (opener inside closer : List Char)
      (hencloses : s.Encloses m opener inside closer) (hraw : m.tag.rawBody = true)
      (hspan : (d.node id).span.within source = opener ++ inside ++ closer)
      (hsource : (d.node id).source = some (.ofList inside))
      (htext : (d.node id).text? = some (.ofList inside))
  | block (m : TagMatcher) (opener inside closer : List Char)
      (hencloses : s.Encloses m opener inside closer) (hraw : m.tag.rawBody = false)
      (hspan : (d.node id).span.within source = opener ++ inside ++ closer)
      (hsource : (d.node id).source = some (.ofList inside))
      (htiles : d.Tiles ((d.node id).span.start + Text.byteLength opener)
        ((d.node id).span.stop - Text.byteLength closer) (d.node id).children)

/-- The second node is below the first one. -/
def Below (d : Document) : Nat → Nat → Prop :=
  Relation.TransGen fun i j => j ∈ (d.node i).children

theorem below_iff {d : Document} {i j : Nat} :
    d.Below i j ↔ ∃ k ∈ (d.node i).children, j = k ∨ d.Below k j := by
  rw [Below, Relation.TransGen.head'_iff]
  simp only [Relation.reflTransGen_iff_eq_or_transGen]

theorem not_below_of_text {d : Document} {i : Nat} (h : (d.node i).children = []) (j : Nat) :
    ¬ d.Below i j := by
  rw [below_iff, h]
  exact fun ⟨_, hk, _⟩ => absurd hk List.not_mem_nil

section stands
variable {s : TagScanner} {d : Document} {before source : List Char} {id : Nat}

theorem within_of_behind {w : List Char} (after : List Char)
    (hspan : (d.node id).span = .behind before w)
    (hsource : source = before ++ w ++ after) : (d.node id).span.within source = w := by
  rw [hspan, hsource, Span.within_behind]

theorem stands_of_text {w : List Char} (after : List Char)
    (hspan : (d.node id).span = .behind before w) (hkept : (d.node id).source = none)
    (htext : (d.node id).text? = some (.ofList w)) (hsource : source = before ++ w ++ after) :
    d.Stands s source id := by
  refine .text hkept ?_
  rw [within_of_behind after hspan hsource, htext]

/-- Each of the nodes that write a part of the source, and each node below them, stands for its
span. -/
theorem Writes.stands {w : List Char} {ids : List Nat} (h : d.Writes s before ids w) :
    ∀ after, source = before ++ w ++ after → ∀ id ∈ ids,
      d.Stands s source id ∧ ∀ j, d.Below id j → d.Stands s source j := by
  induction h with
  | nil => exact fun _ _ _ hid => absurd hid List.not_mem_nil
  | @literal before w v id ids _ hnode _ ih =>
      intro after hsource
      refine List.forall_mem_cons.mpr ⟨⟨?_, fun j hj => ?_⟩, ih after (by simp [hsource])⟩
      · exact stands_of_text (v ++ after) (congrArg Node.span hnode) (congrArg Node.source hnode)
          (congrArg Node.text? hnode) (by simp [hsource])
      · exact absurd hj (not_below_of_text (congrArg Node.children hnode) j)
  | @leaf before w v id ids m _ _ hnode _ ih =>
      intro after hsource
      refine List.forall_mem_cons.mpr ⟨⟨?_, fun j hj => ?_⟩, ih after (by simp [hsource])⟩
      · exact stands_of_text (v ++ after) (congrArg Node.span hnode) (congrArg Node.source hnode)
          (congrArg Node.text? hnode) (by simp [hsource])
      · exact absurd hj (not_below_of_text (congrArg Node.children hnode) j)
  | @raw before opener inside closer v id ids m hencloses _ hraw hnode _ ih =>
      intro after hsource
      refine List.forall_mem_cons.mpr ⟨⟨?_, fun j hj => ?_⟩, ih after (by simp [hsource])⟩
      · refine .raw m opener inside closer hencloses hraw ?_ (congrArg Node.source hnode)
          (congrArg Node.text? hnode)
        exact within_of_behind (v ++ after) (congrArg Node.span hnode) (by simp [hsource])
      · exact absurd hj (not_below_of_text (congrArg Node.children hnode) j)
  | @block before opener inside closer v id kids ids m hencloses _ hraw hnode inner _ ihi ihr =>
      intro after hsource
      refine List.forall_mem_cons.mpr ⟨⟨?_, fun j hj => ?_⟩, ihr after (by simp [hsource])⟩
      · refine .block m opener inside closer hencloses hraw ?_ (congrArg Node.source hnode) ?_
        · exact within_of_behind (v ++ after) (congrArg Node.span hnode) (by simp [hsource])
        · have htiles := inner.tiles
          have hstop : Text.byteLength (before ++ opener ++ inside)
              = Text.byteLength (before ++ (opener ++ inside ++ closer))
                - Text.byteLength closer := by
            simp only [Text.byteLength_append]
            omega
          rw [Text.byteLength_append, hstop] at htiles
          rwa [hnode]
      · obtain ⟨k, hk, hj⟩ := below_iff.mp hj
        rw [hnode] at hk
        obtain ⟨hstands, hbelow⟩ := ihi (closer ++ (v ++ after)) (by simp [hsource]) k hk
        rcases hj with rfl | hj
        · exact hstands
        · exact hbelow j hj

end stands

end Document

/-! ### Parts that print a text -/

namespace Part

open Document TagScanner

/-- Wherever the nodes of the parts stand in a document, they write the text `w` that follows the
text `before`. -/
def Prints (s : TagScanner) (before : List Char) (ps : List Part) (w : List Char) : Prop :=
  ∀ (d : Document) (n : Nat) (q : Option Nat), d.Holds n (runAll untouched n q ps) →
    d.Writes s before (numbers n ps) w

section prints
variable {s : TagScanner} {before w v : List Char} {ps qs : List Part}

theorem prints_nil : Prints s before [] [] :=
  fun _ _ _ _ => .nil

theorem Prints.append (hp : Prints s before ps w) (hq : Prints s (before ++ w) qs v) :
    Prints s before (ps ++ qs) (w ++ v) := by
  intro d n q h
  rw [runAll_append] at h
  have hright := h.right
  rw [length_runAll] at hright
  rw [numbers_append]
  exact (hp d n q h.left).append (hq d _ q hright)

/-- A part that is a node of its own prints what that node writes. -/
theorem prints_singleton {p : Part} (h : ∀ (d : Document) (n : Nat) (q : Option Nat),
    d.Holds n (run untouched n q p) → d.Writes s before [n + p.count - 1] w) :
    Prints s before [p] w := by
  intro d n q hd
  rw [runAll] at hd
  exact h d n q hd.left

theorem prints_literal (hw : w ≠ []) :
    Prints s before [.literal (.ofList w) (.behind before w)] w := by
  refine prints_singleton fun d n q h => ?_
  have hwrites : d.Writes s before [n] (w ++ []) := .literal hw h.node .nil
  rwa [List.append_nil] at hwrites

theorem prints_leaf {m : TagMatcher} (hopens : s.Opens m w) (hleaf : m.tag.isBlock = false) :
    Prints s before [.leaf m.tag (.ofList (m.tag.body s.delimiters w)) (.ofList w)
      (.behind before w)] w := by
  refine prints_singleton fun d n q h => ?_
  have hwrites : d.Writes s before [n] (w ++ []) := .leaf hopens hleaf h.node .nil
  rwa [List.append_nil] at hwrites

variable {m : TagMatcher} {opener inside closer : List Char}
  (hencloses : s.Encloses m opener inside closer) (hblock : m.tag.isBlock = true)
include hencloses hblock

theorem prints_raw (hraw : m.tag.rawBody = true) :
    Prints s before [.raw m.tag (.ofList (m.tag.body s.delimiters opener)) (.ofList inside)
      (.behind before (opener ++ inside ++ closer))] (opener ++ inside ++ closer) := by
  refine prints_singleton fun d n q h => ?_
  have hwrites : d.Writes s before [n] (opener ++ inside ++ closer ++ []) :=
    .raw hencloses hblock hraw h.node .nil
  rwa [List.append_nil] at hwrites

theorem prints_block (hraw : m.tag.rawBody = false)
    (hinner : Prints s (before ++ opener) ps inside) :
    Prints s before [.block m.tag (.ofList (m.tag.body s.delimiters opener)) (.ofList inside) ps
      (.behind before (opener ++ inside ++ closer))] (opener ++ inside ++ closer) := by
  refine prints_singleton fun d n q h => ?_
  have hnode := h.right.node
  rw [length_runAll] at hnode
  have hwrites : d.Writes s before [n + countAll ps] (opener ++ inside ++ closer ++ []) :=
    .block hencloses hblock hraw hnode (hinner d n _ h.left) .nil
  rwa [List.append_nil] at hwrites

end prints

/-! ### Reading -/

section reading
variable {s : TagScanner} {text : Array Char} {before : List Char}

theorem spanOf_eq_behind {base a b : Nat} (hbase : base = Text.byteLength before) (h : a ≤ b) :
    spanOf base text a b = .behind (before ++ slice text 0 a) (slice text a b) := by
  rw [spanOf, offsetOf_eq, offsetOf_eq, Span.behind, List.append_assoc,
    slice_append (Nat.zero_le a) h, Text.byteLength_append, Text.byteLength_append, hbase]

/-- The inside of a block begins behind what has been read of the text so far. -/
theorem offset_eq_byteLength {base : Nat} (hbase : base = Text.byteLength before) (a : Nat) :
    base + Text.offsetOf text.toList a = Text.byteLength (before ++ slice text 0 a) := by
  rw [hbase, offsetOf_eq, Text.byteLength_append]

theorem slice_ne_nil {a b : Nat} (h : a < b) (hb : b ≤ text.size) : slice text a b ≠ [] := by
  rw [← List.length_pos_iff, slice, Array.length_toList, Array.size_extract]
  omega

theorem prints_literalPart {base a b : Nat} (hbase : base = Text.byteLength before) (h : a ≤ b)
    (hb : b ≤ text.size) :
    Prints s (before ++ slice text 0 a) (literalPart base text a b) (slice text a b) := by
  rw [literalPart]
  split
  · next hlt =>
    rw [spanOf_eq_behind hbase h]
    exact prints_literal (slice_ne_nil hlt hb)
  · next hlt =>
    have hab : a = b := by omega
    have hnil : slice text b b = [] := by simp [slice]
    rw [hab, hnil]
    exact prints_nil

theorem Prints.pass {ps qs : List Part} {a b c : Nat}
    (hp : Prints s (before ++ slice text 0 a) ps (slice text a b))
    (hq : Prints s (before ++ slice text 0 b) qs (slice text b c)) (hab : a ≤ b) (hbc : b ≤ c) :
    Prints s (before ++ slice text 0 a) (ps ++ qs) (slice text a c) := by
  have hbefore : before ++ slice text 0 b = before ++ slice text 0 a ++ slice text a b := by
    rw [List.append_assoc, slice_append (Nat.zero_le a) hab]
  rw [hbefore] at hq
  have happend := hp.append hq
  rwa [slice_append hab hbc] at happend

theorem prints_found {base close stop : Nat} {m : TagMatch} {cursor : Nat}
    (hbase : base = Text.byteLength before) (hfind : s.find? text cursor = some m)
    (hblock : m.tag.isBlock = true)
    (hclose : s.closer? m.matcher text m.stop = some (close, stop)) :
    (m.tag.rawBody = true → Prints s (before ++ slice text 0 m.start)
      [.raw m.tag (s.foundBody text m) (.ofList (slice text m.stop close))
        (spanOf base text m.start stop)] (slice text m.start stop)) ∧
    ∀ ps, m.tag.rawBody = false →
      Prints s (before ++ slice text 0 m.stop) ps (slice text m.stop close) →
      Prints s (before ++ slice text 0 m.start)
        [.block m.tag (s.foundBody text m) (.ofList (slice text m.stop close)) ps
          (spanOf base text m.start stop)] (slice text m.start stop) := by
  have hm := bounds_of_find? hfind
  have hc := le_of_closer? hclose
  have hencloses : s.Encloses m.matcher (slice text m.start m.stop) (slice text m.stop close)
      (slice text close stop) :=
    ⟨text, cursor, m.start, m.stop, close, stop, hfind, hclose, rfl, rfl, rfl⟩
  have hwhole : slice text m.start m.stop ++ slice text m.stop close ++ slice text close stop
      = slice text m.start stop := by
    rw [slice_append hm.2.1 hc.1, slice_append (by omega) hc.2.1]
  rw [spanOf_eq_behind hbase (by omega), ← hwhole]
  refine ⟨fun hraw => prints_raw hencloses hblock hraw, fun ps hraw hinner => ?_⟩
  refine prints_block hencloses hblock hraw ?_
  change Prints s (before ++ slice text 0 m.start ++ slice text m.start m.stop) ps _
  rwa [List.append_assoc, slice_append (Nat.zero_le _) hm.2.1]

theorem prints_readFrom (s : TagScanner) (base : Nat) (text : Array Char) (start cursor : Nat) :
    ∀ before, base = Text.byteLength before → start ≤ cursor → cursor ≤ text.size →
      Prints s (before ++ slice text 0 start) (s.readFrom base text start cursor).parts
        (slice text start text.size) := by
  fun_induction s.readFrom base text start cursor with
  | case1 | case3 | case5 | case7 =>
      exact fun before hbase hle hsize =>
        prints_literalPart hbase (by omega) (Nat.le_refl _)
  | case2 base text start cursor m hfind _ _ _ hleaf hstop _ _ ih =>
      intro before hbase hle hsize
      have hm := bounds_of_find? hfind
      have hliteral : Prints s (before ++ slice text 0 start)
          (literalPart base text start m.start) (slice text start m.start) :=
        prints_literalPart hbase (by omega) (by omega)
      have hplain : m.tag.isBlock = false := by simpa using hleaf
      have hleaf : Prints s (before ++ slice text 0 m.start)
          [.leaf m.tag (s.foundBody text m) (.ofList (slice text m.start m.stop))
            (spanOf base text m.start m.stop)] (slice text m.start m.stop) := by
        rw [spanOf_eq_behind hbase hm.2.1]
        exact prints_leaf ⟨text, cursor, m.start, m.stop, hfind, rfl⟩ hplain
      have hrest := ih before hbase (Nat.le_refl _) hstop.2
      exact hliteral.pass (hleaf.pass hrest hm.2.1 hstop.2) (by omega) (by omega)
  | case4 base text start cursor m hfind _ _ _ hblock close stop hclose hstop _ _ inner _ ihi ihr =>
      intro before hbase hle hsize
      have hm := bounds_of_find? hfind
      have hc := le_of_closer? hclose
      have hliteral : Prints s (before ++ slice text 0 start)
          (literalPart base text start m.start) (slice text start m.start) :=
        prints_literalPart hbase (by omega) (by omega)
      have hinner : Prints s (before ++ slice text 0 m.start) inner.parts
          (slice text m.start stop) := by
        obtain ⟨hraw, hparts⟩ := prints_found hbase hfind (by simpa using hblock) hclose
        unfold inner
        split
        · next h => exact hraw h
        · next h =>
          split
          · next hlt =>
            refine hparts _ (by simpa using h) ?_
            have hinside := ihi hlt _ (offset_eq_byteLength hbase m.stop) (Nat.le_refl 0)
              (Nat.zero_le _)
            rw [slice_extract] at hinside
            simpa [slice] using hinside
          · exact prints_literalPart hbase (by omega) hstop.2
      have hrest := ihr before hbase (Nat.le_refl _) hstop.2
      rw [List.append_assoc]
      exact hliteral.pass (hinner.pass hrest (by omega) hstop.2) (by omega) (by omega)
  | case6 base text start cursor m hfind _ hclose hstop rest ih =>
      intro before hbase hle hsize
      have hm := bounds_of_find? hfind
      exact ih before hbase (by omega) hstop.2

theorem prints_read (s : TagScanner) (source : String) :
    Prints s [] (s.read source).parts source.toList := by
  have hprints := prints_readFrom s 0 source.toList.toArray 0 0 [] rfl (Nat.le_refl 0)
    (Nat.zero_le _)
  have hslice : slice source.toList.toArray 0 0 = [] := by simp [slice]
  rwa [slice_all, List.nil_append, hslice] at hprints

end reading

end Part

theorem Text.byteLength_toList (s : String) : byteLength s.toList = s.utf8ByteSize := by
  have hlen (l : List Char) : (String.ofList l).utf8ByteSize = byteLength l := by
    induction l with
    | nil => rfl
    | cons c l ih =>
        rw [String.ofList_cons, String.utf8ByteSize_append, String.utf8ByteSize_singleton, ih]
        rfl
  rw [← hlen, String.ofList_toList]

/-! ### Fragments -/

namespace Document

open TagTemplate.Part

/-- Reading a fragment loses no text and writes none twice: the spans of the nodes in its root tile
the source, these nodes with all below them write it, and every node below the root stands for its
span.  This holds for all tags and delimiters. -/
theorem readFragment_writes {s : TagScanner} {d d' : Document} {source : String} {root : Nat}
    (h : d.readFragment s source = (d', .ok root)) :
    (d'.node root).span = ⟨0, source.utf8ByteSize⟩ ∧
    d'.Tiles 0 source.utf8ByteSize (d'.node root).children ∧
    d'.Writes s [] (d'.node root).children source.toList ∧
    ∀ id, d'.Below root id → d'.Stands s source.toList id := by
  have herrors : (s.read source).errors = [] := by
    by_contra hne
    rw [readFragment_of_errors d hne] at h
    cases h
  rw [readFragment_of_no_errors d none herrors] at h
  cases h
  have hholds := holds_append d (fragment untouched d.size none (s.read source).parts
    ⟨0, source.utf8ByteSize⟩)
  have hroot := hholds.right.node
  rw [length_runAll] at hroot
  have hwrites := prints_read s source _ _ _ hholds.left
  have htiles := hwrites.tiles
  rw [List.nil_append, Text.byteLength_toList] at htiles
  have hstands := hwrites.stands [] (by rw [List.nil_append, List.append_nil])
  rw [hroot]
  refine ⟨rfl, htiles, hwrites, fun id hbelow => ?_⟩
  obtain ⟨child, hchild, hid⟩ := below_iff.mp hbelow
  rw [hroot] at hchild
  rcases hid with rfl | hid
  · exact (hstands id hchild).1
  · exact (hstands child hchild).2 id hid

/-- The text `a{#await}b{$y}c{/await}d`. -/
def awaitingScript : Script :=
  let gap (c : Char) (h : c ≠ '\x7b' ∧ c ≠ '@') : Gap := ⟨[c], List.forall_mem_singleton.mpr h⟩
  .block (gap 'a' (by decide)) (.await none)
    (.leaf (gap 'b' (by decide)) (.reference ⟨['y'], by decide⟩) (.last (gap 'c' (by decide))))
    (.last (gap 'd' (by decide)))

theorem readFragment_writes_awaitingScript : ∃ d' root,
    (∅ : Document).readFragment .builtin (.ofList awaitingScript.print) = (d', .ok root) ∧
    (d'.node root).span = ⟨0, 24⟩ ∧ d'.Writes .builtin [] (d'.node root).children
      (String.ofList awaitingScript.print).toList := by
  have herrors := congrArg Reading.errors (TagScanner.read_print awaitingScript)
  have h := readFragment_of_no_errors ∅ none herrors
  obtain ⟨hspan, _, hwrites, _⟩ := readFragment_writes h
  exact ⟨_, _, h, hspan.trans (by decide +kernel), hwrites⟩

end Document

end TagTemplate
