import Mathlib.Data.List.Basic
import TagTemplate.Proofs.Document.Rift
import TagTemplate.Proofs.Render.Steps

/-! # Coupled documents

Two documents can hold nodes that correspond although the nodes have other numbers, stand at other
places of their texts and ask for other layouts.  A coupling says which nodes correspond and how far
they may differ; behind its base all nodes do, one by one, so that what is appended to both
documents corresponds again.

* `Node.Coupled`: two nodes that rendering cannot tell apart, up to the layouts asked for.
* `Coupled.append_fragment`: the same text read into coupled documents keeps them coupled.
* `Coupled.lookup?`, `Coupled.nearestContainer?`: what is seen from corresponding nodes. -/

namespace TagTemplate

/-! ### Nodes without their links -/

/-- What a node holds, without the numbers of nodes. -/
def Content.bare : Content → Content
  | .text s => .text s
  | .children _ => .children []

namespace Node

/-- The node without its links, its span and its container. -/
def bare (n : Node) : Node :=
  { n with content := n.content.bare, span := ⟨0, 0⟩, parent := none, container := none }

theorem bare_text? (n : Node) : n.bare.text? = n.text? := by
  obtain ⟨_, _, _, _, _, content, _⟩ := n
  cases content <;> rfl

end Node

/-! ### Couplings -/

/-- The second document has all nodes of the first one, with their kinds. -/
structure Document.Grows (d e : Document) : Prop where
  size_le : d.size ≤ e.size
  kind {j : Nat} (h : j < d.size) : (e.node j).kind = (d.node j).kind

namespace Document.Grows

variable {d e f : Document}

theorem refl (d : Document) : d.Grows d :=
  ⟨Nat.le_refl _, fun _ => rfl⟩

theorem trans (h : d.Grows e) (h' : e.Grows f) : d.Grows f :=
  ⟨Nat.le_trans h.size_le h'.size_le,
    fun hj => (h'.kind (Nat.lt_of_lt_of_le hj h.size_le)).trans (h.kind hj)⟩

theorem of_stays (h : d.Stays e) : d.Grows e :=
  ⟨h.size_le, fun hj => (h.node hj).kind⟩

theorem update {id : Nat} {f : Node → Node} (h : (f (d.node id)).kind = (d.node id).kind) :
    d.Grows (d.update id f) := by
  refine ⟨Nat.le_of_eq (size_update d id f).symm, fun {j} hj => ?_⟩
  rw [node_update _ _ _ _ hj]
  split
  · next heq => rwa [← heq]
  · rfl

end Document.Grows

/-- Which nodes of two documents correspond, and what is asked of them.  The nodes behind the base
correspond in their order.  A node is linked if it has a counterpart, and whole if the nodes it
holds correspond to those that its counterpart holds.  `layouts` relates the layouts that
corresponding containers ask for; it may depend on the first document, but holds on while that
grows, and where a whole node is a layout the same layout can be asked for.  `known` are the texts
that macros may have. -/
structure Coupling where
  base : Nat
  base' : Nat
  partner : Nat → Nat
  linked : Nat → Prop
  whole : Nat → Prop
  layouts : Document → Nat → Option String → Option String → Prop
  known : String → Prop
  partner_add (k : Nat) : partner (base + k) = base' + k
  partner_lt {i : Nat} (h : linked i) (hi : i < base) : partner i < base'
  partner_inj {i j : Nat} (hi : linked i) (hj : linked j) (h : partner i = partner j) : i = j
  whole_add (k : Nat) : whole (base + k)
  linked_of_whole {i : Nat} (h : whole i) : linked i
  layouts_mono {d e : Document} {i : Nat} {a b : Option String} (h : d.Grows e) :
    layouts d i a b → layouts e i a b
  layouts_self {d : Document} {i j : Nat} (h : whole i) (hk : (d.node i).kind = .layout)
    {a b : Option String} (hab : layouts d j a b) (new : Option String) : layouts d j new new

namespace Coupling

variable (c : Coupling) {i j : Nat}

/-- Two containers with the same slots, and layouts that the coupling admits. -/
structure Containers (d : Document) (i : Nat) (a b : Container) : Prop where
  slots : b.slots = a.slots
  layouts : c.layouts d i a.layout b.layout

theorem partner_of_le (h : c.base ≤ i) : c.partner i = c.base' + (i - c.base) := by
  rw [← c.partner_add, Nat.add_sub_cancel' h]

theorem whole_of_le (h : c.base ≤ i) : c.whole i := by
  have := c.whole_add (i - c.base)
  rwa [Nat.add_sub_cancel' h] at this

theorem linked_of_le (h : c.base ≤ i) : c.linked i :=
  c.linked_of_whole (c.whole_of_le h)

end Coupling

/-- The second node is the counterpart of the first one, which has the number `i` in the first
document. -/
structure Node.Coupled (c : Coupling) (d : Document) (i : Nat) (n m : Node) : Prop where
  bare : m.bare = n.bare
  parent : m.parent = n.parent.map c.partner
  linked {p : Nat} (h : n.parent = some p) : c.linked p
  children (h : c.whole i) : m.children = n.children.map c.partner
  whole (h : c.whole i) {k : Nat} (hk : k ∈ n.children) : c.whole k
  container : Option.Rel (c.Containers d i) n.container m.container
  known (h : n.kind = .definition) : c.known (n.text?.getD "")

namespace Node.Coupled

variable {c : Coupling} {d e : Document} {i : Nat} {n m : Node}

section same
variable (h : n.Coupled c d i m)
include h

theorem kind : m.kind = n.kind :=
  (congrArg Node.kind h.bare :)

theorem tag : m.tag = n.tag :=
  (congrArg Node.tag h.bare :)

theorem attributes : m.attributes = n.attributes :=
  (congrArg Node.attributes h.bare :)

theorem givenName : m.givenName = n.givenName :=
  (congrArg Node.givenName h.bare :)

theorem scope : m.scope = n.scope :=
  (congrArg Node.scope h.bare :)

theorem paths : m.paths = n.paths :=
  (congrArg Node.paths h.bare :)

theorem text? : m.text? = n.text? := by
  rw [← bare_text?, h.bare, bare_text?]

theorem isSome_container : m.container.isSome = n.container.isSome := by
  have hc := h.container
  generalize n.container = a, m.container = b at hc
  cases hc <;> rfl

end same

theorem mono (hd : d.Grows e) (h : n.Coupled c d i m) : n.Coupled c e i m := by
  refine ⟨h.bare, h.parent, h.linked, h.children, h.whole, ?_, h.known⟩
  have hc := h.container
  generalize n.container = a, m.container = b at hc ⊢
  cases hc with
  | none => exact .none
  | some hc => exact .some ⟨hc.slots, c.layouts_mono hd hc.layouts⟩

theorem updateScope (h : n.Coupled c d i m) (f : Scope → Scope) :
    Node.Coupled c d i { n with scope := f n.scope } { m with scope := f m.scope } :=
  ⟨congrArg (fun n : Node => { n with scope := f n.scope }) h.bare, h.parent, h.linked, h.children,
    h.whole, h.container, h.known⟩

theorem setContainer (h : n.Coupled c d i m) {a b : Container} (hab : c.Containers d i a b) :
    Node.Coupled c d i { n with container := some a } { m with container := some b } :=
  ⟨h.bare, h.parent, h.linked, h.children, h.whole, .some hab, h.known⟩

theorem default (c : Coupling) (d : Document) (i : Nat) :
    Node.Coupled c d i (.root [] ⟨0, 0⟩) (.root [] ⟨0, 0⟩) :=
  ⟨rfl, rfl, nofun, fun _ => rfl, fun _ _ h => absurd h List.not_mem_nil, .none, nofun⟩

end Node.Coupled

/-! ### Documents -/

/-- The second document holds a counterpart of every linked node of the first one. -/
structure Document.Coupled (c : Coupling) (d e : Document) : Prop where
  base_le : c.base ≤ d.size
  size : e.size + c.base = d.size + c.base'
  sound : d.Sound
  sound' : e.Sound
  node {i : Nat} (h : c.linked i) : (d.node i).Coupled c d i (e.node (c.partner i))

namespace Document.Coupled

variable {c : Coupling} {d e : Document} (h : d.Coupled c e)
include h

theorem partner_size (k : Nat) : c.partner (d.size + k) = e.size + k := by
  have := h.base_le
  have := h.size
  rw [c.partner_of_le (by omega)]
  omega

theorem partner_lt {i : Nat} (hl : c.linked i) (hi : i < d.size) : c.partner i < e.size := by
  have := h.base_le
  have := h.size
  rcases Nat.lt_or_ge i c.base with hb | hb
  · have := c.partner_lt hl hb
    omega
  · rw [c.partner_of_le hb]
    omega

theorem le_partner {i : Nat} (hi : d.size ≤ i) : e.size ≤ c.partner i := by
  obtain ⟨k, rfl⟩ := Nat.exists_eq_add_of_le hi
  rw [h.partner_size]
  omega

/-- A change of two corresponding nodes to nodes that correspond again. -/
theorem update {id : Nat} (hid : c.linked id) {f f' : Node → Node}
    (hd : (d.update id f).Sound) (he : (e.update (c.partner id) f').Sound)
    (hkind : (f (d.node id)).kind = (d.node id).kind)
    (hf : (f (d.node id)).Coupled c d id (f' (e.node (c.partner id)))) :
    (d.update id f).Coupled c (e.update (c.partner id) f') := by
  have hgrows : d.Grows (d.update id f) := .update hkind
  refine ⟨by rw [size_update]; exact h.base_le, by rw [size_update, size_update]; exact h.size,
    hd, he, fun {i} hi => ?_⟩
  rcases Nat.lt_or_ge i d.size with hlt | hge
  · rw [node_update _ _ _ _ hlt, node_update _ _ _ _ (h.partner_lt hi hlt)]
    by_cases heq : id = i
    · cases heq
      rw [if_pos rfl, if_pos rfl]
      exact hf.mono hgrows
    · rw [if_neg heq, if_neg (mt (c.partner_inj hid hi) heq)]
      exact (h.node hi).mono hgrows
  · have hge' := h.le_partner hge
    rw [node_of_size_le (d := d.update id f) (by rw [size_update]; exact hge),
      node_of_size_le (by rw [size_update]; exact hge')]
    have hn := (h.node hi).mono hgrows
    rwa [node_of_size_le hge, node_of_size_le hge'] at hn

theorem update_stays {id : Nat} (hid : c.linked id) {f f' : Node → Node}
    (hs : (d.node id).Stays (f (d.node id)))
    (hs' : (e.node (c.partner id)).Stays (f' (e.node (c.partner id))))
    (hf : (f (d.node id)).Coupled c d id (f' (e.node (c.partner id)))) :
    (d.update id f).Coupled c (e.update (c.partner id) f') :=
  h.update hid ((Stays.update hs).sound (size_update d id f) h.sound)
    ((Stays.update hs').sound (size_update e (c.partner id) f') h.sound') hs.kind hf

/-- Nodes that correspond one by one at the ends of both documents. -/
theorem append {ns ms : List Node} (hlen : ms.length = ns.length) (hd : (d.append ns).Sound)
    (he : (e.append ms).Sound)
    (hnode : ∀ (k : Nat) (n m : Node), ns[k]? = some n → ms[k]? = some m →
      n.Coupled c (d.append ns) (d.size + k) m) : (d.append ns).Coupled c (e.append ms) := by
  have hbase := h.base_le
  have hsize := h.size
  refine ⟨by rw [size_append]; omega, by simp only [size_append]; omega, hd, he, fun {i} hi => ?_⟩
  rcases Nat.lt_or_ge i d.size with hlt | hge
  · rw [node_append_left hlt, node_append_left (h.partner_lt hi hlt)]
    exact (h.node hi).mono (.of_stays (.append d ns))
  · obtain ⟨k, rfl⟩ := Nat.exists_eq_add_of_le hge
    rw [h.partner_size]
    cases hx : ns[k]? with
    | some n =>
        obtain ⟨hk, _⟩ := List.getElem?_eq_some_iff.mp hx
        have hm : ms[k]? = some (ms.get ⟨k, by omega⟩) := List.getElem?_eq_getElem _
        rw [node_append_right hx, node_append_right hm]
        exact hnode k n _ hx hm
    | none =>
        have hk := List.getElem?_eq_none_iff.mp hx
        have hn := (h.node hi).mono (.of_stays (.append d ns))
        rw [h.partner_size, node_of_size_le hge, node_of_size_le (Nat.le_add_right _ _)] at hn
        rwa [node_of_size_le (by rw [size_append]; omega),
          node_of_size_le (by rw [size_append]; omega)]

/-! What is seen from a node. -/

section seen
variable {id : Nat} (hl : c.linked id) (hid : id < d.size)
include hl hid

theorem linked_ancestors : ∀ a ∈ d.ancestors id, c.linked a := by
  revert hl
  refine h.sound.parent_induction (P := fun id => c.linked id → ∀ a ∈ d.ancestors id, c.linked a)
    ?_ id hid
  intro id hid ih hl a ha
  rw [h.sound.ancestors_eq_cons hid, List.mem_cons] at ha
  rcases ha with rfl | ha
  · exact hl
  · cases hp : (d.node id).parent with
    | none => rw [hp] at ha; exact absurd ha List.not_mem_nil
    | some p =>
        rw [hp] at ha
        exact ih p hp ((h.node hl).linked hp) a ha

theorem ancestors : e.ancestors (c.partner id) = (d.ancestors id).map c.partner := by
  revert hl
  refine h.sound.parent_induction
    (P := fun id => c.linked id → e.ancestors (c.partner id) = (d.ancestors id).map c.partner)
    ?_ id hid
  intro id hid ih hl
  rw [h.sound'.ancestors_eq_cons (h.partner_lt hl hid), h.sound.ancestors_eq_cons hid,
    (h.node hl).parent, List.map_cons]
  congr 1
  cases hp : (d.node id).parent with
  | none => rfl
  | some p => exact ih p hp ((h.node hl).linked hp)

theorem lookup? (name : String) : e.lookup? (c.partner id) name = d.lookup? id name := by
  unfold Document.lookup?
  rw [h.ancestors hl hid, List.findSome?_map, ← List.head?_filterMap, ← List.head?_filterMap]
  refine congrArg List.head? (List.filterMap_congr fun a ha => ?_)
  rw [Function.comp_apply, (h.node (h.linked_ancestors hl hid a ha)).scope]

theorem nearestContainer? :
    e.nearestContainer? (c.partner id) = (d.nearestContainer? id).map c.partner := by
  unfold Document.nearestContainer?
  rw [h.ancestors hl hid, List.find?_map]
  refine congrArg (Option.map c.partner) (List.find?_congr fun a ha => ?_)
  rw [Function.comp_apply, (h.node (h.linked_ancestors hl hid a ha)).isSome_container]

end seen

end Document.Coupled

/-! ### Preparation -/

namespace Node

/-- What preparation makes of a node, up to its links, depends on no numbers of nodes. -/
theorem bare_preparedBy {preparers : List Preparer} (h : ∀ p ∈ preparers, p ∈ Preparer.builtins)
    (around : Surroundings) (parent q q' : Option Nat) {n m : Node} (hb : m.bare = n.bare) :
    (m.preparedBy preparers { around with parent } q').bare
      = (n.preparedBy preparers around q).bare := by
  induction preparers generalizing n m with
  | nil => exact hb
  | cons p rest ih =>
      have hsupports : p.supports m = p.supports n :=
        (congrArg (fun k : Node => p.supports k) hb :)
      have hp := h p List.mem_cons_self
      refine ih (fun p hp => h p (List.mem_cons_of_mem _ hp)) ?_
      dsimp only
      rw [hsupports]
      split
      · simp only [Preparer.builtins, List.mem_cons, List.not_mem_nil, or_false] at hp
        rcases hp with rfl | rfl | rfl | rfl
        · exact congrArg (fun k : Node => { k with scope := k.scope.extend around.inherited }) hb
        · have hpaths : m.paths = n.paths := (congrArg Node.paths hb :)
          simp only [Preparer.paths, hpaths]
          split
          · exact congrArg (fun k : Node => { k with paths := around.paths }) hb
          · exact hb
        · exact hb
        · exact congrArg (fun k : Node => { k with subscribed := around.bubble }) hb
      · exact hb

theorem bare_prepared (around : Surroundings) (parent q q' : Option Nat) {n m : Node}
    (hb : m.bare = n.bare) :
    (m.prepared Preparer.builtins { around with parent } q').bare
      = (n.prepared Preparer.builtins around q).bare := by
  have hclosed : m.closed = n.closed := (congrArg Node.closed hb :)
  unfold prepared
  rw [hclosed]
  split
  · exact hb
  · exact congrArg (fun k : Node => { k with closed := true })
      (bare_preparedBy (fun _ hp => hp) around parent q q' hb)

theorem parent_prepared (around : Surroundings) (q : Option Nat) {n : Node} (hp : n.parent = none)
    (hc : n.closed = false) : (n.prepared Preparer.builtins around q).parent = q := by
  let m := n.preparedBy [Preparer.scopes, Preparer.paths] around q
  have hm : (n.prepared Preparer.builtins around q).parent = (m.parent <|> q) := by
    rw [prepared, hc]
    rfl
  have hlocal : ∀ p ∈ [Preparer.scopes, Preparer.paths], p.IsLocal := fun p h =>
    Preparer.isLocal_of_mem_builtins (List.mem_append_left [Preparer.hierarchy, Preparer.events] h)
  rw [hm]
  have hparent : m.parent = n.parent ∨ n.parent = none ∧ m.parent = q :=
    (grounded_preparedBy hlocal around).parent q n
  rcases hparent with h | ⟨_, h⟩
  · rw [h, hp]
    rfl
  · rw [h]
    cases q <;> rfl

end Node

/-! ### Fragments -/

namespace Part

mutual

/-- The texts that the definitions in a part give to macros. -/
def definitions : Part → List String
  | .literal _ _ => []
  | .leaf tag _ matched _ => if tag.kind = .definition then [matched] else []
  | .raw tag _ inside _ => if tag.kind = .definition then [inside] else []
  | .block tag _ _ parts _ =>
    if tag.kind = .definition then "" :: definitionsAll parts else definitionsAll parts

/-- The texts that the definitions in a list of parts give to macros. -/
def definitionsAll : List Part → List String
  | [] => []
  | p :: rest => p.definitions ++ definitionsAll rest

end

section definitions
variable {g : Option Nat → Node → Node} (hg : Grounded g) {x : Node}
include hg

theorem mem_definitions_own {n : Nat} {q : Option Nat} {p : Part} (hx : x = g q (own n p))
    (hk : x.kind = .definition) : x.text?.getD "" ∈ p.definitions := by
  subst hx
  rw [hg.kind] at hk
  have htext : (g q (own n p)).text? = (own n p).text? := by
    rw [Node.text?, hg.content, Node.text?]
  rw [htext]
  cases p with
  | literal => cases hk
  | leaf tag body matched span =>
      have hkind : tag.kind = .definition := hk
      rw [definitions, if_pos hkind]
      exact List.mem_singleton_self _
  | raw tag body inside span =>
      have hkind : tag.kind = .definition := hk
      rw [definitions, if_pos hkind]
      exact List.mem_singleton_self _
  | block tag body inside parts span =>
      have hkind : tag.kind = .definition := hk
      rw [definitions, if_pos hkind]
      exact List.mem_cons_self

omit hg in
mutual

theorem mem_definitions (hg : Grounded g) {n : Nat} {q : Option Nat} {p : Part}
    (hx : x ∈ run g n q p) (hk : x.kind = .definition) : x.text?.getD "" ∈ p.definitions := by
  cases p with
  | block tag body inside parts span =>
      rw [run, List.mem_append, List.mem_singleton] at hx
      rcases hx with hx | hx
      · have hmem := mem_definitionsAll hg hx hk
        rw [definitions]
        split
        · exact List.mem_cons_of_mem _ hmem
        · exact hmem
      · exact mem_definitions_own hg hx hk
  | literal text span => exact mem_definitions_own hg (List.mem_singleton.mp hx) hk
  | leaf tag body matched span => exact mem_definitions_own hg (List.mem_singleton.mp hx) hk
  | raw tag body inside span => exact mem_definitions_own hg (List.mem_singleton.mp hx) hk

theorem mem_definitionsAll (hg : Grounded g) {n : Nat} {q : Option Nat} {ps : List Part}
    (hx : x ∈ runAll g n q ps) (hk : x.kind = .definition) :
    x.text?.getD "" ∈ definitionsAll ps := by
  cases ps with
  | nil => exact absurd hx List.not_mem_nil
  | cons p rest =>
      rw [runAll, List.mem_append] at hx
      rw [definitionsAll, List.mem_append]
      rcases hx with hx | hx
      · exact .inl (mem_definitions hg hx hk)
      · exact .inr (mem_definitionsAll hg hx hk)

end

end definitions

mutual

/-- The part without its places in the text. -/
def placeless : Part → Part
  | .literal text _ => .literal text ⟨0, 0⟩
  | .leaf tag body matched _ => .leaf tag body matched ⟨0, 0⟩
  | .raw tag body inside _ => .raw tag body inside ⟨0, 0⟩
  | .block tag body inside parts _ => .block tag body inside (placelessAll parts) ⟨0, 0⟩

/-- The parts of a list without their places in the text. -/
def placelessAll : List Part → List Part
  | [] => []
  | p :: rest => p.placeless :: placelessAll rest

end

mutual

theorem count_placeless (p : Part) : p.placeless.count = p.count := by
  cases p with
  | block tag body inside parts span => rw [placeless, count, countAll_placelessAll, count]
  | literal | leaf | raw => rfl

theorem countAll_placelessAll (ps : List Part) : countAll (placelessAll ps) = countAll ps := by
  cases ps with
  | nil => rfl
  | cons p rest => rw [placelessAll, countAll, count_placeless, countAll_placelessAll, countAll]

end

theorem numbers_placelessAll (n : Nat) (ps : List Part) :
    numbers n (placelessAll ps) = numbers n ps := by
  induction ps generalizing n with
  | nil => rfl
  | cons p rest ih => rw [placelessAll, numbers, count_placeless, ih, numbers]

theorem bare_own_placeless (n : Nat) (p : Part) : (own n p.placeless).bare = (own n p).bare := by
  cases p <;> rfl

theorem children_own_placeless (n : Nat) (p : Part) :
    (own n p.placeless).children = (own n p).children := by
  cases p with
  | block tag body inside parts span => exact numbers_placelessAll n parts
  | literal | leaf | raw => rfl

theorem bare_own (n n' : Nat) (p : Part) : (own n' p).bare = (own n p).bare := by
  cases p <;> rfl

end Part

namespace Coupling

/-- Two changes of fresh nodes, given their parents, lead to nodes that correspond. -/
structure Carries (c : Coupling) (f f' : Option Nat → Node → Node) : Prop where
  grounded : Grounded f
  grounded' : Grounded f'
  bare {q q' : Option Nat} {n m : Node} (h : m.bare = n.bare) : (f' q' m).bare = (f q n).bare
  parent {q : Option Nat} {n m : Node} (hn : n.parent = none ∧ n.closed = false)
    (hm : m.parent = none ∧ m.closed = false) :
    (f' (q.map c.partner) m).parent = (f q n).parent.map c.partner

theorem carries_untouched (c : Coupling) : c.Carries Document.untouched Document.untouched := by
  refine ⟨grounded_untouched, grounded_untouched, fun h => h, fun hn hm => ?_⟩
  rw [hn.1, hm.1]
  rfl

theorem carries_prepared (c : Coupling) (around : Surroundings) (parent : Option Nat) :
    c.Carries (Node.prepared Preparer.builtins around)
      (Node.prepared Preparer.builtins { around with parent }) := by
  have hlocal : ∀ p ∈ Preparer.builtins, p.IsLocal := fun _ => Preparer.isLocal_of_mem_builtins
  refine ⟨Node.grounded_prepared hlocal _, Node.grounded_prepared hlocal _,
    fun h => Node.bare_prepared around parent _ _ h, fun hn hm => ?_⟩
  rw [Node.parent_prepared _ _ hn.1 hn.2, Node.parent_prepared _ _ hm.1 hm.2]

/-- `count` numbers from `n` on have the counterparts from `n'` on, and are whole. -/
structure Shifts (c : Coupling) (n n' count : Nat) : Prop where
  partner {k : Nat} (h : k < count) : c.partner (n + k) = n' + k
  whole {k : Nat} (h : k < count) : c.whole (n + k)

theorem Shifts.mono {c : Coupling} {n n' count m : Nat} (h : c.Shifts n n' count) (start : Nat)
    (hm : start + m ≤ count) : c.Shifts (n + start) (n' + start) m := by
  refine ⟨fun {k} hk => ?_, fun {k} hk => ?_⟩
  · rw [Nat.add_assoc, h.partner (by omega), Nat.add_assoc]
  · rw [Nat.add_assoc]
    exact h.whole (by omega)

end Coupling

namespace Part

variable {c : Coupling} {f f' : Option Nat → Node → Node} {d : Document}

theorem numbers_shifted {n n' : Nat} {ps : List Part} (h : c.Shifts n n' (countAll ps)) :
    numbers n' ps = (numbers n ps).map c.partner ∧ ∀ i ∈ numbers n ps, c.whole i := by
  induction ps generalizing n n' with
  | nil => exact ⟨rfl, fun i hi => absurd hi List.not_mem_nil⟩
  | cons p rest ih =>
      have hpos := p.count_pos
      rw [countAll] at h
      obtain ⟨hrest, hwhole⟩ := ih (h.mono p.count (Nat.le_refl _))
      have hown : n + p.count - 1 = n + (p.count - 1) := by omega
      have hown' : n' + p.count - 1 = n' + (p.count - 1) := by omega
      rw [numbers, numbers, List.map_cons, hrest, hown, hown', h.partner (by omega)]
      refine ⟨rfl, fun i hi => ?_⟩
      rcases List.mem_cons.mp hi with rfl | hi
      · exact h.whole (by omega)
      · exact hwhole i hi

theorem coupled_own (hf : c.Carries f f') {n n' i : Nat} {p p' : Part}
    (hp : p'.placeless = p.placeless) {q : Option Nat} (hq : ∀ r, q = some r → c.linked r)
    (hkids : ∀ tag body inside parts span, p = .block tag body inside parts span →
      c.Shifts n n' (countAll parts))
    (hknown : ∀ text ∈ p.definitions, c.known text) :
    (f q (own n p)).Coupled c d i (f' (q.map c.partner) (own n' p')) := by
  have hfresh (n : Nat) (p : Part) : (own n p).parent = none ∧ (own n p).closed = false := by
    cases p <;> exact ⟨rfl, rfl⟩
  have hbare : (own n' p').bare = (own n p).bare := by
    rw [← bare_own_placeless, hp, bare_own_placeless, bare_own]
  have hchildren : (own n' p').children = (own n p).children.map c.partner ∧
      ∀ k ∈ (own n p).children, c.whole k := by
    rw [← children_own_placeless n' p', hp, children_own_placeless]
    cases p with
    | block tag body inside parts span => exact numbers_shifted (hkids _ _ _ _ _ rfl)
    | literal | leaf | raw => exact ⟨rfl, fun k hk => absurd hk List.not_mem_nil⟩
  refine ⟨hf.bare hbare, hf.parent (hfresh n p) (hfresh n' p'), fun {r} hr => ?_, fun _ => ?_,
    fun _ {k} hk => ?_, ?_, fun hk => hknown _ (mem_definitions_own hf.grounded rfl hk)⟩
  · rcases parent_own hf.grounded n q p with h | h
    · rw [h] at hr
      cases hr
    · exact hq r (h.symm.trans hr)
  · rw [children_own hf.grounded', children_own hf.grounded]
    exact hchildren.1
  · rw [children_own hf.grounded] at hk
    exact hchildren.2 k hk
  · rw [container_own hf.grounded, container_own hf.grounded']
    exact .none

theorem countAll_eq_of_placelessAll {ps ps' : List Part}
    (h : placelessAll ps' = placelessAll ps) : countAll ps' = countAll ps := by
  rw [← countAll_placelessAll, h, countAll_placelessAll]

theorem count_eq_of_placeless {p p' : Part} (h : p'.placeless = p.placeless) :
    p'.count = p.count := by
  rw [← count_placeless, h, count_placeless]

theorem run_of_no_block {p : Part}
    (h : ∀ tag body inside parts span, p ≠ .block tag body inside parts span)
    (g : Option Nat → Node → Node) (n : Nat) (q : Option Nat) : run g n q p = [g q (own n p)] := by
  cases p with
  | block tag body inside parts span => exact absurd rfl (h tag body inside parts span)
  | literal | leaf | raw => rfl

theorem exists_block_of_placeless {p' : Part} {tag : TagDefinition} {body inside : String}
    {parts : List Part} {span : Span}
    (h : p'.placeless = (Part.block tag body inside parts span).placeless) :
    ∃ parts' span', p' = .block tag body inside parts' span' ∧
      placelessAll parts' = placelessAll parts := by
  cases p' with
  | block tag' body' inside' parts' span' =>
      injection h with h₁ h₂ h₃ h₄
      subst h₁ h₂ h₃
      exact ⟨parts', span', rfl, h₄⟩
  | literal | leaf | raw => cases h

theorem coupled_single (hf : c.Carries f f') {n n' : Nat} {p p' : Part}
    (hp : p'.placeless = p.placeless) {q : Option Nat} (hq : ∀ r, q = some r → c.linked r)
    (hb : ∀ tag body inside parts span, p ≠ .block tag body inside parts span)
    (hknown : ∀ text ∈ p.definitions, c.known text) {k : Nat} {x y : Node}
    (hx : (run f n q p)[k]? = some x) (hy : (run f' n' (q.map c.partner) p')[k]? = some y) :
    x.Coupled c d (n + k) y := by
  have hb' : ∀ tag body inside parts span, p' ≠ .block tag body inside parts span := by
    rintro tag body inside parts span rfl
    obtain ⟨parts', span', rfl, _⟩ := exists_block_of_placeless hp.symm
    exact hb _ _ _ _ _ rfl
  rw [run_of_no_block hb, List.getElem?_singleton] at hx
  rw [run_of_no_block hb', List.getElem?_singleton] at hy
  split at hx
  · next hzero =>
    rw [if_pos hzero] at hy
    cases hx
    cases hy
    exact coupled_own hf hp hq (fun _ _ _ _ _ h => absurd h (hb _ _ _ _ _)) hknown
  · cases hx

mutual

/-- Two parts with one content, at corresponding numbers, give runs of nodes that correspond. -/
theorem coupled_run (hf : c.Carries f f') {n n' : Nat} {p p' : Part}
    (hp : p'.placeless = p.placeless) (h : c.Shifts n n' p.count) {q : Option Nat}
    (hq : ∀ r, q = some r → c.linked r) (hknown : ∀ text ∈ p.definitions, c.known text)
    {k : Nat} {x y : Node} (hx : (run f n q p)[k]? = some x)
    (hy : (run f' n' (q.map c.partner) p')[k]? = some y) : x.Coupled c d (n + k) y := by
  cases p with
  | block tag body inside parts span =>
      obtain ⟨parts', span', rfl, hparts⟩ := exists_block_of_placeless hp
      have hcount := countAll_eq_of_placelessAll hparts
      have hknown' : ∀ text ∈ definitionsAll parts, c.known text := by
        intro text ht
        refine hknown text ?_
        rw [definitions]
        split
        · exact List.mem_cons_of_mem _ ht
        · exact ht
      rw [count] at h
      have htop : some (n' + countAll parts') = (some (n + countAll parts)).map c.partner := by
        rw [Option.map_some, h.partner (Nat.lt_succ_self _), hcount]
      rw [run] at hx hy
      rcases Nat.lt_or_ge k (countAll parts) with hk | hk
      · rw [List.getElem?_append_left (by rwa [length_runAll])] at hx
        rw [List.getElem?_append_left (by rwa [length_runAll, hcount]), htop] at hy
        refine coupled_runAll hf hparts (h.mono 0 (by omega)) (fun r hr => ?_) hknown'
          hx hy
        cases hr
        exact c.linked_of_whole (h.whole (Nat.lt_succ_self _))
      · rw [List.getElem?_append_right (by rwa [length_runAll]), length_runAll,
          List.getElem?_singleton] at hx
        rw [List.getElem?_append_right (by rwa [length_runAll, hcount]), length_runAll, hcount,
          List.getElem?_singleton] at hy
        split at hx
        · next hzero =>
          rw [if_pos hzero] at hy
          cases hx
          cases hy
          refine coupled_own hf hp hq (fun _ _ _ _ _ heq => ?_) hknown
          cases heq
          exact h.mono 0 (by omega)
        · cases hx
  | literal text span => exact coupled_single hf hp hq (fun _ _ _ _ _ h => by cases h) hknown hx hy
  | leaf tag body matched span =>
      exact coupled_single hf hp hq (fun _ _ _ _ _ h => by cases h) hknown hx hy
  | raw tag body inside span =>
      exact coupled_single hf hp hq (fun _ _ _ _ _ h => by cases h) hknown hx hy

/-- Two lists of parts with one content, at corresponding numbers. -/
theorem coupled_runAll (hf : c.Carries f f') {n n' : Nat} {ps ps' : List Part}
    (hp : placelessAll ps' = placelessAll ps) (h : c.Shifts n n' (countAll ps)) {q : Option Nat}
    (hq : ∀ r, q = some r → c.linked r) (hknown : ∀ text ∈ definitionsAll ps, c.known text)
    {k : Nat} {x y : Node} (hx : (runAll f n q ps)[k]? = some x)
    (hy : (runAll f' n' (q.map c.partner) ps')[k]? = some y) : x.Coupled c d (n + k) y := by
  cases ps with
  | nil => cases hx
  | cons p rest =>
      cases ps' with
      | nil => cases hp
      | cons p' rest' =>
          injection hp with hhead hrest
          have hcount := count_eq_of_placeless hhead
          rw [definitionsAll] at hknown
          rw [countAll] at h
          rw [runAll] at hx hy
          rcases Nat.lt_or_ge k p.count with hk | hk
          · rw [List.getElem?_append_left (by rwa [length_run])] at hx
            rw [List.getElem?_append_left (by rwa [length_run, hcount])] at hy
            exact coupled_run hf hhead (h.mono 0 (by omega)) hq
              (fun text ht => hknown text (List.mem_append_left _ ht)) hx hy
          · obtain ⟨j, rfl⟩ := Nat.exists_eq_add_of_le hk
            rw [List.getElem?_append_right (by rwa [length_run]), length_run,
              Nat.add_sub_cancel_left] at hx
            rw [List.getElem?_append_right (by rwa [length_run, hcount]), length_run, hcount,
              Nat.add_sub_cancel_left] at hy
            rw [← Nat.add_assoc]
            exact coupled_runAll hf hrest (h.mono p.count (Nat.le_refl _)) hq
              (fun text ht => hknown text (List.mem_append_right _ ht)) hx hy

end

/-- Two roots correspond, and if they are to be whole, what they hold does too. -/
theorem coupled_root (hf : c.Carries f f') {n n' i : Nat} {ps ps' : List Part} {span span' : Span}
    {q : Option Nat} (hq : ∀ r, q = some r → c.linked r)
    (hkids : c.whole i →
      numbers n' ps' = (numbers n ps).map c.partner ∧ ∀ k ∈ numbers n ps, c.whole k) :
    (f q (.root (numbers n ps) span)).Coupled c d i
      (f' (q.map c.partner) (.root (numbers n' ps') span')) := by
  refine ⟨hf.bare rfl, hf.parent ⟨rfl, rfl⟩ ⟨rfl, rfl⟩, fun {r} hr => ?_, fun hw => ?_,
    fun hw {k} hk => ?_, ?_, fun hk => ?_⟩
  · rcases hf.grounded.parent q (.root (numbers n ps) span) with h | ⟨_, h⟩
    · rw [h] at hr
      cases hr
    · exact hq r (h.symm.trans hr)
  · rw [Node.children, Node.children, hf.grounded'.content, hf.grounded.content]
    exact (hkids hw).1
  · rw [Node.children, hf.grounded.content] at hk
    exact (hkids hw).2 k hk
  · rw [hf.grounded.container, hf.grounded'.container]
    exact .none
  · rw [hf.grounded.kind] at hk
    cases hk

end Part

namespace Document.Coupled

open TagTemplate.Part

variable {c : Coupling} {d e : Document}

theorem shifts (h : d.Coupled c e) (count : Nat) : c.Shifts d.size e.size count :=
  ⟨fun {k} _ => h.partner_size k,
    fun {k} _ => c.whole_of_le (Nat.le_trans h.base_le (Nat.le_add_right _ k))⟩

theorem append_untouched (h : d.Coupled c e) {ps : List Part}
    (hknown : ∀ text ∈ definitionsAll ps, c.known text)
    (hd : (d.append (runAll untouched d.size none ps)).Sound)
    (he : (e.append (runAll untouched e.size none ps)).Sound) :
    (d.append (runAll untouched d.size none ps)).Coupled c
      (e.append (runAll untouched e.size none ps)) :=
  h.append (by simp only [length_runAll]) hd he fun _ _ _ hn hm =>
    coupled_runAll c.carries_untouched rfl (h.shifts _) (q := none) (fun _ h => by cases h) hknown
      hn hm

theorem append_fragment (h : d.Coupled c e) {ps : List Part} {around : Surroundings} {span : Span}
    (hp : ∀ p, around.parent = some p → c.linked p)
    (hknown : ∀ text ∈ definitionsAll ps, c.known text)
    {ns ms : List Node}
    (hns : ns = fragment (Node.prepared Preparer.builtins around) d.size around.parent ps span)
    (hms : ms = fragment (Node.prepared Preparer.builtins
        { around with parent := around.parent.map c.partner })
      e.size (around.parent.map c.partner) ps span)
    (hd : (d.append ns).Sound) (he : (e.append ms).Sound) :
    (d.append ns).Coupled c (e.append ms) := by
  have hf := c.carries_prepared around (around.parent.map c.partner)
  have hshifts := h.shifts (countAll ps)
  refine h.append (by rw [hns, hms, length_fragment, length_fragment]) hd he
    fun k n m hn hm => ?_
  rw [hns, fragment] at hn
  rw [hms, fragment] at hm
  rcases Nat.lt_or_ge k (countAll ps) with hk | hk
  · rw [List.getElem?_append_left (by rwa [length_runAll])] at hn hm
    rw [← h.partner_size, ← Option.map_some] at hm
    refine coupled_runAll hf rfl hshifts (fun r hr => ?_) hknown hn hm
    cases hr
    exact c.linked_of_le (Nat.le_trans h.base_le (Nat.le_add_right _ _))
  · rw [List.getElem?_append_right (by rwa [length_runAll]), length_runAll,
      List.getElem?_singleton] at hn hm
    split at hn
    · next hzero =>
      rw [if_pos hzero] at hm
      cases hn
      cases hm
      exact coupled_root hf hp fun _ => numbers_shifted hshifts
    · cases hn

end Document.Coupled

end TagTemplate
