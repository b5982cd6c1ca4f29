import Mathlib.Data.List.Pairwise
import TagTemplate.Proofs.Document.Coupling
import TagTemplate.Proofs.Render.Confinement

/-! # The pieces of a page

How literal text is cut into nodes does not matter, and neither does the place of a part.  So a page
is a sequence of pieces: single characters of literal text, and parts without their places.  Two
pages with the same pieces, up to one, have nodes that correspond part by part.

* `Part.pieces`: the pieces of a part.
* `Chunk`: a run of numbers in one document that corresponds to a run in another one.
* `Coupling.ofChunks`: the coupling of two pages whose parts correspond chunk by chunk.
* `coupled_ofPage`: the documents of two such pages are coupled. -/

namespace TagTemplate

/-! ### Pieces -/

/-- A character of literal text, or another part with the number of its first node. -/
abbrev Entry := Char ⊕ Nat × Part

namespace Part

/-- The characters of literal text, or the part without its places. -/
def pieces : Part → List (Char ⊕ Part)
  | .literal text _ => text.toList.map .inl
  | p => [.inr p.placeless]

/-- The characters of literal text, or the part, whose first node has the number `n`. -/
def entry (n : Nat) : Part → List Entry
  | .literal text _ => text.toList.map .inl
  | p => [.inr (n, p)]

/-- The characters and parts of a list, whose first node has the number `n`. -/
def entries (n : Nat) : List Part → List Entry
  | [] => []
  | p :: rest => entry n p ++ entries (n + p.count) rest

end Part

namespace Entry

open TagTemplate.Part

/-- The entry without its number and its places. -/
def piece : Entry → Char ⊕ Part :=
  Sum.map id fun e => e.2.placeless

theorem map_piece_entries (n : Nat) (ps : List Part) :
    (entries n ps).map piece = ps.flatMap pieces := by
  induction ps generalizing n with
  | nil => rfl
  | cons p rest ih =>
      rw [entries, List.map_append, ih, List.flatMap_cons]
      congr 1
      cases p with
      | literal text span =>
          rw [entry, pieces, List.map_map]
          rfl
      | leaf | raw | block => rfl

/-- A part among the entries is one of the list, and no literal text. -/
theorem mem_entry {n a : Nat} {p q : Part} (h : .inr (a, q) ∈ entry n p) : a = n ∧ q = p := by
  cases p with
  | literal text span =>
      obtain ⟨ch, _, h⟩ := List.mem_map.mp h
      cases h
  | leaf | raw | block =>
      cases List.mem_singleton.mp h
      exact ⟨rfl, rfl⟩

theorem bounds_of_mem {n a : Nat} {q : Part} {ps : List Part} (h : .inr (a, q) ∈ entries n ps) :
    n ≤ a ∧ a + q.count ≤ n + countAll ps := by
  induction ps generalizing n with
  | nil => exact absurd h List.not_mem_nil
  | cons p rest ih =>
      rw [countAll]
      rcases List.mem_append.mp h with h | h
      · obtain ⟨rfl, rfl⟩ := mem_entry h
        omega
      · have := ih h
        omega

theorem holds_of_mem {g : Option Nat → Node → Node} {d : Document} {n a : Nat} {parent : Option Nat}
    {q : Part} {ps : List Part} (hd : d.Holds n (runAll g n parent ps))
    (h : .inr (a, q) ∈ entries n ps) : d.Holds a (run g a parent q) := by
  induction ps generalizing n with
  | nil => exact absurd h List.not_mem_nil
  | cons p rest ih =>
      rw [runAll] at hd
      rcases List.mem_append.mp h with h | h
      · obtain ⟨rfl, rfl⟩ := mem_entry h
        exact hd.left
      · have hright := hd.right
        rw [length_run] at hright
        exact ih hright h

/-- Of two parts the first one ends before the other begins. -/
def Before (x y : Entry) : Prop :=
  ∀ a p b q, x = .inr (a, p) → y = .inr (b, q) → a + p.count ≤ b

theorem sorted_entries (n : Nat) (ps : List Part) : (entries n ps).Pairwise Before := by
  induction ps generalizing n with
  | nil => exact .nil
  | cons p rest ih =>
      refine List.pairwise_append.mpr ⟨?_, ih _, fun x hx y hy => ?_⟩
      · cases p with
        | literal text span =>
            refine List.pairwise_map.mpr (List.pairwise_of_forall fun _ _ => ?_)
            intro a p b q h
            cases h
        | leaf | raw | block => exact List.pairwise_singleton _ _
      · rintro a p' b q rfl rfl
        obtain ⟨rfl, rfl⟩ := mem_entry hx
        exact (bounds_of_mem hy).1

end Entry

/-! ### Chunks -/

/-- The `count` numbers from `start` on, and their counterparts from `start'` on. -/
structure Chunk where
  start : Nat
  start' : Nat
  count : Nat

namespace Chunk

/-- The number belongs to the chunk. -/
def Covers (k : Chunk) (i : Nat) : Prop :=
  k.start ≤ i ∧ i < k.start + k.count

instance (k : Chunk) (i : Nat) : Decidable (k.Covers i) :=
  inferInstanceAs (Decidable (_ ∧ _))

/-- The first chunk ends before the second one begins, on both sides. -/
def Before (k l : Chunk) : Prop :=
  k.start + k.count ≤ l.start ∧ k.start' + k.count ≤ l.start'

/-- The counterpart of a number: by its chunk, or else by its distance from the roots. -/
def partner (chunks : List Chunk) (root root' i : Nat) : Nat :=
  match chunks.find? fun k => k.Covers i with
  | some k => k.start' + (i - k.start)
  | none => root' + (i - root)

variable {chunks : List Chunk} {root root' i : Nat} {k l : Chunk}

theorem eq_or_before (hs : chunks.Pairwise Before) (hk : k ∈ chunks) (hl : l ∈ chunks) :
    k = l ∨ k.Before l ∨ l.Before k := by
  induction hs with
  | nil => exact absurd hk List.not_mem_nil
  | cons hhead _ ih =>
      rcases List.mem_cons.mp hk with rfl | hk'
      · rcases List.mem_cons.mp hl with rfl | hl'
        · exact .inl rfl
        · exact .inr (.inl (hhead l hl'))
      · rcases List.mem_cons.mp hl with rfl | hl'
        · exact .inr (.inr (hhead k hk'))
        · exact ih hk' hl'

theorem covers_of_find? (h : (chunks.find? fun k => k.Covers i) = some k) :
    k ∈ chunks ∧ k.Covers i :=
  ⟨List.mem_of_find?_eq_some h, by simpa using List.find?_some h⟩

theorem partner_of_covers (hs : chunks.Pairwise Before) (hk : k ∈ chunks) (hi : k.Covers i) :
    partner chunks root root' i = k.start' + (i - k.start) := by
  unfold partner
  cases h : chunks.find? fun k => k.Covers i with
  | none =>
      have hno := List.find?_eq_none.mp h k hk
      exact absurd (decide_eq_true hi) hno
  | some l =>
      obtain ⟨hl, hli⟩ := covers_of_find? h
      rcases eq_or_before hs hk hl with rfl | hb | hb
      · rfl
      · have := hb.1
        unfold Covers at hi hli
        omega
      · have := hb.1
        unfold Covers at hi hli
        omega

theorem partner_of_le (hroot : ∀ k ∈ chunks, k.start + k.count ≤ root) (hi : root ≤ i) :
    partner chunks root root' i = root' + (i - root) := by
  unfold partner
  cases h : chunks.find? fun k => k.Covers i with
  | none => rfl
  | some l =>
      obtain ⟨hl, hli⟩ := covers_of_find? h
      have := hroot l hl
      unfold Covers at hli
      omega

end Chunk

/-! ### The coupling of two pages -/

/-- Chunks of two pages with these roots: in order, and before the roots. -/
structure Chunk.Fit (chunks : List Chunk) (root root' : Nat) : Prop where
  sorted : chunks.Pairwise Chunk.Before
  le {k : Chunk} (h : k ∈ chunks) : k.start + k.count ≤ root ∧ k.start' + k.count ≤ root'

namespace Coupling

variable {chunks : List Chunk} {root root' : Nat}

/-- The coupling of two pages.  The nodes of the chunks correspond, the roots, and all nodes behind
them.  The roots hold other nodes besides, and are the only containers.  Unless another layout is
found among the corresponding nodes, `a` and `b` are the layouts asked for. -/
def ofChunks (h : Chunk.Fit chunks root root') (a b : Option String) : Coupling where
  base := root + 1
  base' := root' + 1
  partner := Chunk.partner chunks root root'
  linked i := (∃ k ∈ chunks, k.Covers i) ∨ root ≤ i
  whole i := (∃ k ∈ chunks, k.Covers i) ∨ root < i
  layouts d i x y := i = root ∧
    ((∀ j, ((∃ k ∈ chunks, k.Covers j) ∨ root < j) → (d.node j).kind ≠ .layout) → x = a ∧ y = b)
  known _ := True
  partner_add k := by
    rw [Chunk.partner_of_le (fun k hk => (h.le hk).1) (by omega)]
    omega
  partner_lt {i} hl hi := by
    rcases hl with ⟨k, hk, hki⟩ | hl
    · have := (h.le hk).2
      rw [Chunk.partner_of_covers h.sorted hk hki]
      unfold Chunk.Covers at hki
      omega
    · rw [Chunk.partner_of_le (fun k hk => (h.le hk).1) hl]
      omega
  partner_inj {i j} hi hj heq := by
    have hroots {i : Nat} (hi : root ≤ i) :
        Chunk.partner chunks root root' i = root' + (i - root) :=
      Chunk.partner_of_le (fun k hk => (h.le hk).1) hi
    have hchunks {i : Nat} {k : Chunk} (hk : k ∈ chunks) (hi : k.Covers i) :
        Chunk.partner chunks root root' i = k.start' + (i - k.start) :=
      Chunk.partner_of_covers h.sorted hk hi
    rcases hi with ⟨k, hk, hki⟩ | hi <;> rcases hj with ⟨l, hl, hlj⟩ | hj
    · rw [hchunks hk hki, hchunks hl hlj] at heq
      unfold Chunk.Covers at hki hlj
      rcases Chunk.eq_or_before h.sorted hk hl with rfl | hb | hb
      · omega
      · have := hb.2
        omega
      · have := hb.2
        omega
    · have := (h.le hk).2
      rw [hchunks hk hki, hroots hj] at heq
      unfold Chunk.Covers at hki
      omega
    · have := (h.le hl).2
      rw [hroots hi, hchunks hl hlj] at heq
      unfold Chunk.Covers at hlj
      omega
    · rw [hroots hi, hroots hj] at heq
      omega
  whole_add k := .inr (by omega)
  linked_of_whole hw := hw.imp_right Nat.le_of_lt
  layouts_mono {d e i x y} hd hxy := by
    refine ⟨hxy.1, fun hno => hxy.2 fun j hj hk => ?_⟩
    rcases Nat.lt_or_ge j d.size with hlt | hge
    · exact hno j hj ((hd.kind hlt).trans hk)
    · rw [Document.node_of_size_le hge] at hk
      cases hk
  layouts_self {d i j} hw hk x y hxy new := ⟨hxy.1, fun hno => absurd hk (hno i hw)⟩

end Coupling

namespace Entry

open TagTemplate.Part

/-- The chunks of two lists of entries with the same pieces. -/
def chunks : List Entry → List Entry → List Chunk
  | .inr (a, p) :: xs, .inr (b, _) :: ys => ⟨a, b, p.count⟩ :: chunks xs ys
  | _ :: xs, _ :: ys => chunks xs ys
  | _, _ => []

/-- The character, or the number of the node of the part itself. -/
def top : Entry → Char ⊕ Nat :=
  Sum.map id fun e => e.1 + e.2.count - 1

variable {xs ys : List Entry}

/-- A property of two lists of entries with the same pieces, by induction. -/
theorem pieces_induction {P : List Entry → List Entry → Prop} (nil : P [] [])
    (char : ∀ ch xs ys, xs.map piece = ys.map piece → P xs ys →
      P (.inl ch :: xs) (.inl ch :: ys))
    (part : ∀ a p b q xs ys, q.placeless = p.placeless → xs.map piece = ys.map piece → P xs ys →
      P (.inr (a, p) :: xs) (.inr (b, q) :: ys)) :
    ∀ xs ys : List Entry, xs.map piece = ys.map piece → P xs ys
  | [], [], _ => nil
  | [], y :: ys, h => by cases h
  | x :: xs, [], h => by cases h
  | x :: xs, y :: ys, h => by
      injection h with hhead htail
      have ih := pieces_induction nil char part xs ys htail
      cases x with
      | inl ch =>
          cases y with
          | inl ch' =>
              cases hhead
              exact char ch xs ys htail ih
          | inr e => cases hhead
      | inr e =>
          cases y with
          | inl ch => cases hhead
          | inr e' => exact part e.1 e.2 e'.1 e'.2 xs ys (Sum.inr.inj hhead).symm htail ih

theorem mem_chunks (h : xs.map piece = ys.map piece) {k : Chunk} :
    k ∈ chunks xs ys → ∃ p q, .inr (k.start, p) ∈ xs ∧ .inr (k.start', q) ∈ ys ∧
      q.placeless = p.placeless ∧ k.count = p.count := by
  refine pieces_induction (P := fun xs ys => k ∈ chunks xs ys → ∃ p q, .inr (k.start, p) ∈ xs ∧
    .inr (k.start', q) ∈ ys ∧ q.placeless = p.placeless ∧ k.count = p.count) ?_ ?_ ?_ xs ys h
  · exact fun h => absurd h List.not_mem_nil
  · intro ch xs ys _ ih hk
    obtain ⟨p, q, hp, hq, hrest⟩ := ih hk
    exact ⟨p, q, List.mem_cons_of_mem _ hp, List.mem_cons_of_mem _ hq, hrest⟩
  · intro a p b q xs ys hpq _ ih hk
    rcases List.mem_cons.mp hk with rfl | hk
    · exact ⟨p, q, List.mem_cons_self, List.mem_cons_self, hpq, rfl⟩
    · obtain ⟨p', q', hp, hq, hrest⟩ := ih hk
      exact ⟨p', q', List.mem_cons_of_mem _ hp, List.mem_cons_of_mem _ hq, hrest⟩

theorem sorted_chunks (h : xs.map piece = ys.map piece) :
    xs.Pairwise Before → ys.Pairwise Before → (chunks xs ys).Pairwise Chunk.Before := by
  refine pieces_induction (P := fun xs ys => xs.Pairwise Before → ys.Pairwise Before →
    (chunks xs ys).Pairwise Chunk.Before) ?_ ?_ ?_ xs ys h
  · exact fun _ _ => .nil
  · exact fun ch xs ys _ ih hx hy => ih hx.of_cons hy.of_cons
  · intro a p b q xs ys hpq hmap ih hx hy
    refine .cons (fun k hk => ?_) (ih hx.of_cons hy.of_cons)
    obtain ⟨p', q', hp, hq, _⟩ := mem_chunks hmap hk
    have hcount := count_eq_of_placeless hpq
    have hx' := (List.pairwise_cons.mp hx).1 _ hp a p k.start p' rfl rfl
    have hy' := (List.pairwise_cons.mp hy).1 _ hq b q k.start' q' rfl rfl
    exact ⟨hx', hcount ▸ hy'⟩

theorem exists_chunk (h : xs.map piece = ys.map piece) {a : Nat} {p : Part} :
    .inr (a, p) ∈ xs → ∃ k ∈ chunks xs ys, k.start = a ∧ k.count = p.count := by
  refine pieces_induction (P := fun xs ys => .inr (a, p) ∈ xs →
    ∃ k ∈ chunks xs ys, k.start = a ∧ k.count = p.count) ?_ ?_ ?_ xs ys h
  · exact fun h => absurd h List.not_mem_nil
  · intro ch xs ys _ ih hmem
    rcases List.mem_cons.mp hmem with h | hmem
    · cases h
    · exact ih hmem
  · intro b q b' q' xs ys _ _ ih hmem
    rcases List.mem_cons.mp hmem with h | hmem
    · cases h
      exact ⟨_, List.mem_cons_self, rfl, rfl⟩
    · obtain ⟨k, hk, hrest⟩ := ih hmem
      exact ⟨k, List.mem_cons_of_mem _ hk, hrest⟩

/-- The counterparts of the nodes of the first list are those of the second. -/
theorem map_top {f : Nat → Nat} (h : xs.map piece = ys.map piece) :
    (∀ k ∈ chunks xs ys, ∀ i, k.Covers i → f i = k.start' + (i - k.start)) →
      ys.map top = (xs.map top).map (Sum.map id f) := by
  refine pieces_induction (P := fun xs ys =>
    (∀ k ∈ chunks xs ys, ∀ i, k.Covers i → f i = k.start' + (i - k.start)) →
      ys.map top = (xs.map top).map (Sum.map id f)) ?_ ?_ ?_ xs ys h
  · exact fun _ => rfl
  · intro ch xs ys _ ih hf
    rw [List.map_cons, List.map_cons, List.map_cons, ih hf]
    rfl
  · intro a p b q xs ys hpq _ ih hf
    have hpos := p.count_pos
    have hown := hf _ List.mem_cons_self (a + p.count - 1)
      ⟨by dsimp only; omega, by dsimp only; omega⟩
    dsimp only at hown
    have hnumber : f (a + p.count - 1) = b + q.count - 1 := by
      rw [hown, count_eq_of_placeless hpq]
      omega
    rw [List.map_cons, List.map_cons, List.map_cons,
      ih fun k hk => hf k (List.mem_cons_of_mem _ hk)]
    exact congrArg (List.cons · _) (congrArg Sum.inr hnumber.symm)

end Entry

/-! ### The documents of two pages -/

namespace Document

open TagTemplate.Part

/-- The document of a page that has been read as a list of parts, when its root is rendered. -/
def ofPage (around : Surroundings) (ps : List Part) (span : Span) : Document :=
  let nodes := fragment (Node.prepared Preparer.builtins around) 0 none ps span
  ((∅ : Document).append nodes).setContainer (countAll ps) {}

section page
variable {around : Surroundings} {ps : List Part} {span : Span}

theorem size_ofPage : (ofPage around ps span).size = countAll ps + 1 := by
  rw [ofPage, setContainer, size_update, size_append, length_fragment]
  exact Nat.zero_add _

theorem node_ofPage_root (around : Surroundings) (ps : List Part) (span : Span) :
    (ofPage around ps span).node (countAll ps) =
      { (Node.root (numbers 0 ps) span).prepared Preparer.builtins around none with
        container := some {} } := by
  have hroot := (∅ : Document).node_fragment_root (Node.prepared Preparer.builtins around) none ps
    span
  have hsize : (∅ : Document).size = 0 := rfl
  rw [hsize, Nat.zero_add] at hroot
  rw [ofPage, setContainer, node_update, if_pos rfl, hroot]
  rw [size_append, length_fragment, hsize, Nat.zero_add]
  exact Nat.lt_succ_self _

theorem sound_ofPage : (ofPage around ps span).Sound := by
  have hlocal : ∀ p ∈ Preparer.builtins, p.IsLocal := fun _ => Preparer.isLocal_of_mem_builtins
  have hg := Node.grounded_prepared hlocal around
  have hsize : (∅ : Document).size = 0 := rfl
  have hsound := sound_empty.append (strand_fragment hg 0 none ps span) fun p hp => by cases hp
  have hroot := (∅ : Document).node_fragment_root (Node.prepared Preparer.builtins around) none ps
    span
  rw [hsize, Nat.zero_add] at hroot
  have hlast : ((∅ : Document).append (fragment (Node.prepared Preparer.builtins around) 0 none ps
      span)).size = countAll ps + 1 := by
    rw [size_append, length_fragment, hsize, Nat.zero_add]
  refine hsound.setContainer (hlast ▸ Nat.lt_succ_self _) (hsound.unheld_last hlast) ?_ _
  · rw [hroot]
    exact or_self_iff.mp (hg.parent none (.root (numbers 0 ps) span) |>.imp id And.right)

theorem holds_ofPage (around : Surroundings) (ps : List Part) (span : Span) :
    (ofPage around ps span).Holds 0
      (runAll (Node.prepared Preparer.builtins around) 0 (some (countAll ps)) ps) := by
  have hholds := (holds_append ∅ (fragment (Node.prepared Preparer.builtins around) 0 none ps span))
  have hleft := hholds.left
  intro i x hx
  obtain ⟨hi, _⟩ := List.getElem?_eq_some_iff.mp hx
  rw [length_runAll] at hi
  have hget := hleft i x (by rwa [Nat.zero_add])
  have hsize : (∅ : Document).size = 0 := rfl
  rw [hsize] at hget
  rw [ofPage, setContainer, get?_update, if_neg (by omega)]
  exact hget

end page

variable {around : Surroundings} {ps qs : List Part} {span span' : Span} {xs ys : List Entry}

theorem fit_chunks (hxs : xs.Sublist (entries 0 ps)) (hys : ys.Sublist (entries 0 qs))
    (h : xs.map Entry.piece = ys.map Entry.piece) :
    Chunk.Fit (Entry.chunks xs ys) (countAll ps) (countAll qs) := by
  refine ⟨Entry.sorted_chunks h ((Entry.sorted_entries 0 ps).sublist hxs)
    ((Entry.sorted_entries 0 qs).sublist hys), fun {k} hk => ?_⟩
  obtain ⟨p, q, hp, hq, hpq, hcount⟩ := Entry.mem_chunks h hk
  have hp' := (Entry.bounds_of_mem (hxs.subset hp)).2
  have hq' := (Entry.bounds_of_mem (hys.subset hq)).2
  have hcount' := count_eq_of_placeless hpq
  omega

theorem exists_node_of_holds {d : Document} {n j : Nat} {ns : List Node} (h : d.Holds n ns)
    (hj : j < ns.length) : ∃ x, ns[j]? = some x ∧ d.node (n + j) = x := by
  have hx : ns[j]? = some ns[j] := List.getElem?_eq_getElem hj
  refine ⟨_, hx, ?_⟩
  rw [node, h j _ hx, Option.getD_some]

theorem coupled_ofPage (hxs : xs.Sublist (entries 0 ps)) (hys : ys.Sublist (entries 0 qs))
    (h : xs.map Entry.piece = ys.map Entry.piece) :
    (ofPage around ps span).Coupled (.ofChunks (fit_chunks hxs hys h) none none)
      (ofPage around qs span') := by
  have hfit := fit_chunks hxs hys h
  let c := Coupling.ofChunks hfit none none
  have hroots {i : Nat} (hi : countAll ps ≤ i) : c.partner i = countAll qs + (i - countAll ps) :=
    Chunk.partner_of_le (fun k hk => (hfit.le hk).1) hi
  have htop : (some (countAll ps)).map c.partner = some (countAll qs) := by
    rw [Option.map_some, hroots (Nat.le_refl _), Nat.sub_self, Nat.add_zero]
  have hf := c.carries_prepared around around.parent
  refine ⟨Nat.le_of_eq size_ofPage.symm, ?_, sound_ofPage, sound_ofPage, fun {i} hi => ?_⟩
  · rw [size_ofPage, size_ofPage]
    exact Nat.add_comm _ _
  · show Node.Coupled c _ i _ (node _ (c.partner i))
    rcases hi with ⟨k, hk, hki⟩ | hi
    · obtain ⟨p, q, hp, hq, hpq, hcount⟩ := Entry.mem_chunks h hk
      have hshifts : c.Shifts k.start k.start' p.count := by
        refine ⟨fun {j} hj => ?_, fun {j} hj => .inl ⟨k, hk, ?_⟩⟩
        · have hcovers : k.Covers (k.start + j) := ⟨Nat.le_add_right _ _, by omega⟩
          exact (Chunk.partner_of_covers hfit.sorted hk hcovers).trans (by omega)
        · exact ⟨Nat.le_add_right _ _, by omega⟩
      obtain ⟨j, rfl⟩ := Nat.exists_eq_add_of_le hki.1
      have hj : j < p.count := by
        have := hki.2
        omega
      obtain ⟨x, hx, hnode⟩ := exists_node_of_holds
        (Entry.holds_of_mem (holds_ofPage around ps span) (hxs.subset hp))
        (by rwa [length_run])
      obtain ⟨y, hy, hnode'⟩ := exists_node_of_holds (j := j)
        (Entry.holds_of_mem (holds_ofPage around qs span') (hys.subset hq))
        (by rwa [length_run, count_eq_of_placeless hpq])
      rw [hshifts.partner hj, hnode, hnode']
      rw [← htop] at hy
      refine coupled_run hf hpq hshifts (fun r hr => ?_) (fun _ _ => trivial) hx hy
      cases hr
      exact .inr (Nat.le_refl _)
    · rcases Nat.lt_or_eq_of_le hi with hlt | rfl
      · rw [hroots hi, node_of_size_le (by rw [size_ofPage]; omega),
          node_of_size_le (by rw [size_ofPage]; omega)]
        exact .default c _ i
      · rw [hroots hi, Nat.sub_self, Nat.add_zero, node_ofPage_root, node_ofPage_root]
        refine (coupled_root hf (q := none) (fun _ hr => by cases hr) fun hw => ?_).setContainer
          ⟨rfl, rfl, fun _ => ⟨rfl, rfl⟩⟩
        rcases hw with ⟨k, hk, hki⟩ | hw
        · have := (hfit.le hk).1
          have := hki.2
          omega
        · exact absurd hw (Nat.lt_irrefl _)

end Document

end TagTemplate
