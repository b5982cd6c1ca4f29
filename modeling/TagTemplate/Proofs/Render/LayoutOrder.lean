import TagTemplate.Proofs.Render.Pages
import TagTemplate.Proofs.Render.TwinPages
import TagTemplate.Proofs.Render.Weaving
import TagTemplate.Proofs.Scanning.RoundTrip

/-! # Where a page asks for its layout

A page can ask for its layout anywhere among what its root holds.  No other node looks at the layout
asked for, so the two renderings run side by side: up to the place where the first of them asks,
from there with different layouts up to the place where the second one asks, and then alike again.

* `Document.Asks`: a node that stands directly in a container and asks for its layout.
* `Meets`: two lists of nodes that come to the same, and leave given layouts asked for.
* `render_layoutMoved`: the result of a template does not depend on where its page asks. -/

namespace TagTemplate

/-! ### Asking for a layout -/

namespace Document

/-- One node of the document at most is a layout. -/
def AsksOnce (d : Document) : Prop :=
  ∀ i j, (d.node i).kind = .layout → (d.node j).kind = .layout → i = j

theorem asksOnce_of_lt {d : Document} (h : ∀ i < d.size, ∀ j < d.size,
    (d.node i).kind = .layout → (d.node j).kind = .layout → i = j) : d.AsksOnce := by
  have hlt (i : Nat) (hk : (d.node i).kind = .layout) : i < d.size := by
    by_contra hge
    rw [node_of_size_le (Nat.le_of_not_lt hge)] at hk
    cases hk
  exact fun i j hi hj => h i (hlt i hi) j (hlt j hj) hi hj

/-- The node `j` is a layout without children directly below the container `root`; its name is the
layout that it asks for. -/
structure Asks (d : Document) (root j : Nat) (name? : Option String) : Prop where
  lt : j < d.size
  kind : (d.node j).kind = .layout
  children : (d.node j).children = []
  parent : (d.node j).parent = some root
  container : (d.node j).container = none
  name : (d.node j).attributes.text? "name" = name?
  root_lt : root < d.size
  isSome_root : (d.node root).container.isSome

variable {d e : Document} {root j : Nat} {name? : Option String}

theorem Asks.stays (h : d.Asks root j name?) (hs : d.Stays e) : e.Asks root j name? := by
  have hj := hs.node h.lt
  refine ⟨Nat.lt_of_lt_of_le h.lt hs.size_le, ?_, ?_, ?_, ?_, ?_,
    Nat.lt_of_lt_of_le h.root_lt hs.size_le, ?_⟩
  · rw [hj.kind, h.kind]
  · rw [hj.children, h.children]
  · rw [hj.parent, h.parent]
  · rw [← Option.isSome_eq_false_iff.trans Option.isNone_iff_eq_none, hj.container, h.container]
    rfl
  · rw [hj.attributes, h.name]
  · rw [(hs.node h.root_lt).container, h.isSome_root]

theorem setContainer_self {id : Nat} {c : Container} (h : (d.node id).container = some c) :
    d.setContainer id c = d := by
  obtain ⟨nodes⟩ := d
  refine congrArg Document.mk (Array.ext_getElem? fun i => ?_)
  rw [Array.getElem?_modify]
  split
  · next heq =>
    subst heq
    cases hn : nodes[id]? with
    | none => rfl
    | some n =>
        have hnode : (⟨nodes⟩ : Document).node id = n := by rw [node, get?, hn, Option.getD_some]
        rw [hnode] at h
        rw [Option.map_some, ← h]
  · rfl

end Document

namespace RenderState

variable {s : RenderState} {root j : Nat} {name? : Option String}

theorem container?_of_asks (h : s.document.Asks root j name?) (hs : s.document.Sound)
    {a : Container} (ha : (s.node root).container = some a) :
    s.container? j = some (root, a) := by
  have hown : ((s.document.node j).container.isSome) = false := by rw [h.container]; rfl
  have hnearest : s.document.nearestContainer? j = some root := by
    rw [hs.nearestContainer?_eq h.lt, hown, if_neg Bool.false_ne_true, h.parent, Option.bind_some,
      hs.nearestContainer?_eq h.root_lt, if_pos h.isSome_root]
  rw [container?, hnearest, Option.bind_some, ha]
  rfl

theorem container?_report (s : RenderState) (id : Nat) (kind : EventKind) (detail : String)
    (i : Nat) : (s.report id kind detail).container? i = s.container? i := by
  simp only [container?, report_document, node_report]

end RenderState

namespace Rendering

variable {env : Environment} {depth : Nat}

/-- A node that asks for a layout changes nothing but the layout of its container. -/
theorem renderNode_of_asks {s : RenderState} {root j : Nat} {name? : Option String}
    (h : s.document.Asks root j name?) (hs : s.document.Sound) {a : Container}
    (ha : (s.node root).container = some a) :
    ∃ t, renderNode env depth j s = (.ok "", t) ∧
      t.document = s.document.setContainer root { a with layout := name?.or a.layout } ∧
      t.globals = s.globals ∧ t.macros = s.macros := by
  have hk : (s.node j).kind = .layout := h.kind
  have hlife : hasLifecycle (s.node j).kind = true := by rw [hk]; rfl
  have hempty : (s.node j).children.isEmpty = true := by rw [RenderState.node, h.children]; rfl
  have hname : (s.node j).attributes.text? "name" = name? := h.name
  let body := held (renderNode env depth) j
  cases name? with
  | none =>
      have hlayout : layout j body (s.report j .started "") = (.ok "", s.report j .started "") := by
        rw [layout, bind_of_ok (node_apply j _), RenderState.node_report, hname]
        rfl
      refine ⟨s.through j fun t => t, renderNode_of_rule (f := fun t => t) hlife ?_, ?_, ?_, ?_⟩
      · rw [hk]
        exact hlayout
      · rw [RenderState.through, RenderState.report_document, RenderState.report_document]
        exact (Document.setContainer_self ha).symm
      · rw [RenderState.through, RenderState.report_globals, RenderState.report_globals]
      · rw [RenderState.through, RenderState.report_macros, RenderState.report_macros]
  | some name =>
      let ask (t : RenderState) : RenderState :=
        t.updateContainer j fun c => { layout := some name, slots := c.slots }
      have hlayout : layout j body (s.report j .started "") =
          (.ok "", ask (s.report j .started "")) := by
        rw [layout, bind_of_ok (node_apply j _), RenderState.node_report, hname, hempty]
        rfl
      have hask : ask (s.report j .started "") = { s.report j .started "" with
          document := s.document.setContainer root { a with layout := some name } } := by
        show RenderState.updateContainer _ _ _ = _
        rw [RenderState.updateContainer, RenderState.container?_report,
          RenderState.container?_of_asks h hs ha, RenderState.report_document]
      refine ⟨s.through j ask, renderNode_of_rule hlife ?_, ?_, ?_, ?_⟩
      · rw [hk]
        exact hlayout
      · rw [RenderState.through, RenderState.report_document, hask]
        rfl
      · rw [RenderState.through, RenderState.report_globals, hask]
        exact RenderState.report_globals s j .started ""
      · rw [RenderState.through, RenderState.report_macros, hask]
        exact RenderState.report_macros s j .started ""

/-! ### Two pages side by side -/

/-- Both renderings are under way: the documents they started with stay, the states are twins. -/
structure Along (d e : Document) (c : Coupling) (s t : RenderState) : Prop where
  stays : d.Stays s.document
  stays' : e.Stays t.document
  twin : s.Twin c t

/-- What two texts that are woven side by side come to: the same result with the same variables,
and if there is no error, states that can go on side by side. -/
structure Meeting (d e : Document) (c : Coupling)
    (a b : Except RenderError (List Char) × RenderState) : Prop where
  result : b.1 = a.1
  globals : b.2.globals = a.2.globals
  along {xs : List Char} (h : a.1 = .ok xs) : Along d e c a.2 b.2

/-- Two lists of nodes and characters are woven to the same text, and lead from the first coupling
to the second one. -/
def Meets (env : Environment) (d e : Document) (c c' : Coupling) (l m : List (Char ⊕ Nat)) : Prop :=
  ∀ s t, Along d e c s t →
    Meeting d e c' (weave (renderNode env 0) l s) (weave (renderNode env 0) m t)

namespace Meets

variable {d e : Document} {c c' c'' : Coupling} {l m l' m' : List (Char ⊕ Nat)}

theorem append (h : Meets env d e c c' l m) (h' : Meets env d e c' c'' l' m') :
    Meets env d e c c'' (l ++ l') (m ++ m') := by
  intro s t hst
  have hfirst := h s t hst
  rw [weave_append, weave_append, bind_apply, bind_apply]
  cases hl : weave (renderNode env 0) l s with
  | mk r s' =>
      cases hm : weave (renderNode env 0) m t with
      | mk r' t' =>
          rw [hl, hm] at hfirst
          obtain ⟨hr, hglobals, halong⟩ := hfirst
          cases hr
          cases r with
          | error err => exact ⟨rfl, hglobals, fun h => by cases h⟩
          | ok xs =>
              have hnext := h' s' t' (halong rfl)
              dsimp only
              rw [bind_apply, bind_apply]
              cases hl' : weave (renderNode env 0) l' s' with
              | mk r s'' =>
                  cases hm' : weave (renderNode env 0) m' t' with
                  | mk r' t'' =>
                      rw [hl', hm'] at hnext
                      obtain ⟨hr, hglobals, halong⟩ := hnext
                      cases hr
                      cases r with
                      | error err => exact ⟨rfl, hglobals, fun h => by cases h⟩
                      | ok ys => exact ⟨rfl, hglobals, fun _ => halong rfl⟩

/-- Corresponding nodes are woven alike. -/
theorem shared (henv : env.toolkit = .builtin) (hclosed : c.Closed env)
    (h : ∀ i, .inr i ∈ l → c.whole i ∧ i < d.size ∧ c.partner i < e.size) :
    Meets env d e c c l (l.map (Sum.map id c.partner)) := by
  intro s t hst
  let kinds (x : Char ⊕ Nat) : List (Nat × NodeKind) :=
    x.elim (fun _ => []) fun i => [(i, (s.node i).kind)]
  have hhas : s.document.Has (l.flatMap kinds) := by
    intro p hp
    obtain ⟨x, hx, hp⟩ := List.mem_flatMap.mp hp
    cases x with
    | inl ch => exact absurd hp List.not_mem_nil
    | inr i =>
        rw [List.mem_singleton.mp hp]
        exact ⟨Nat.lt_of_lt_of_le (h i hx).2.1 hst.stays.size_le, rfl⟩
  have htwins : Twins env c (l.flatMap kinds) (weave (renderNode env 0) l)
      (weave (renderNode env 0) (l.map (Sum.map id c.partner))) :=
    twins_weave henv hclosed fun i hi =>
      ⟨(h i hi).1, (s.node i).kind, List.mem_flatMap.mpr ⟨_, hi, List.mem_singleton_self _⟩⟩
  have hpaired := htwins s t hst.twin hhas
  refine ⟨hpaired.result, hpaired.twin.globals, fun _ => ⟨?_, ?_, hpaired.twin⟩⟩
  · exact hst.stays.trans (weave_stays l s fun i hi =>
      Nat.lt_of_lt_of_le (h i hi).2.1 hst.stays.size_le)
  · refine hst.stays'.trans (weave_stays _ t fun i hi => ?_)
    obtain ⟨x, hx, heq⟩ := List.mem_map.mp hi
    cases x with
    | inl ch => cases heq
    | inr k =>
        cases heq
        exact Nat.lt_of_lt_of_le (h k hx).2.2 hst.stays'.size_le

end Meets

end Rendering

/-! ### Asking on one side -/

section chunks
variable {chunks : List Chunk} {root root' : Nat} {fit : Chunk.Fit chunks root root'}
  {x y x' y' : Option String} {d e : Document}

theorem Coupling.closed_ofChunks (env : Environment) : (ofChunks fit x y).Closed env :=
  ⟨fun _ => trivial, fun _ _ _ => trivial⟩

theorem Coupling.partner_root : (ofChunks fit x y).partner root = root' :=
  (Chunk.partner_of_le (fun k hk => (fit.le hk).1) (Nat.le_refl _)).trans (by omega)

/-- The containers of both pages can be changed together with the layouts that are asked for. -/
theorem Document.Coupled.setContainers (h : d.Coupled (.ofChunks fit x y) e) {a b a' b' : Container}
    (ha : (d.node root).container = some a) (hb : (e.node root').container = some b)
    (hslots : b.slots = a.slots → b'.slots = a'.slots)
    (hlayouts : a.layout = x → b.layout = y → a'.layout = x' ∧ b'.layout = y') :
    (d.setContainer root a').Coupled (.ofChunks fit x' y') (e.setContainer root' b') := by
  let c := Coupling.ofChunks fit x y
  have hpartner : c.partner root = root' := Coupling.partner_root
  have hlinked : c.linked root := .inr (Nat.le_refl _)
  have hroot : root < d.size := h.base_le
  have hroot' : root' < e.size := by
    have := h.partner_lt hlinked hroot
    rwa [hpartner] at this
  have hstays : d.Stays (d.setContainer root a') := .setContainer (by rw [ha]; rfl) a'
  have hstays' : e.Stays (e.setContainer root' b') := .setContainer (by rw [hb]; rfl) b'
  refine ⟨?_, ?_, hstays.sound (size_update _ _ _) h.sound,
    hstays'.sound (size_update _ _ _) h.sound', fun {i} hi => ?_⟩
  · rw [setContainer, size_update]
    exact h.base_le
  · rw [setContainer, setContainer, size_update, size_update]
    exact h.size
  · have hn := h.node hi
    show Node.Coupled _ _ i _ ((e.setContainer root' b').node (c.partner i))
    by_cases heq : i = root
    · subst heq
      have hroots := h.node hlinked
      have hc := hroots.container
      rw [hpartner] at hroots hc ⊢
      rw [ha, hb] at hc
      cases hc with
      | some hab =>
          rw [setContainer, setContainer, node_update _ _ _ _ hroot, node_update _ _ _ _ hroot',
            if_pos rfl, if_pos rfl]
          refine ⟨hroots.bare, hroots.parent, hroots.linked, hroots.children, hroots.whole,
            .some ⟨hslots hab.slots, rfl, fun hno => ?_⟩, hroots.known⟩
          obtain ⟨hx, hy⟩ := (c.layouts_mono (.of_stays hstays) hab.layouts).2 hno
          exact hlayouts hx hy
    · have hne : c.partner i ≠ root' :=
        fun h => heq (c.partner_inj hi hlinked (h.trans hpartner.symm))
      rw [setContainer, setContainer, node_update_of_ne _ _ (Ne.symm heq),
        node_update_of_ne _ _ (Ne.symm hne)]
      refine ⟨hn.bare, hn.parent, hn.linked, hn.children, hn.whole, ?_, hn.known⟩
      have hc := hn.container
      change Option.Rel _ _ (e.node (c.partner i)).container at hc
      generalize (d.node i).container = o, (e.node (c.partner i)).container = o' at hc ⊢
      cases hc with
      | none => exact .none
      | some hab => exact absurd hab.layouts.1 heq

namespace Rendering

variable {env : Environment} {s t : RenderState} {j : Nat} {name? : Option String}

theorem Along.containers (h : Along d e (.ofChunks fit x y) s t) (hroot : root < d.size)
    (hsome : (d.node root).container.isSome) :
    ∃ a b, (s.node root).container = some a ∧ (t.node root').container = some b := by
  let c := Coupling.ofChunks fit x y
  have hlinked : c.linked root := .inr (Nat.le_refl _)
  have hs : (s.node root).container.isSome := by
    rw [RenderState.node, (h.stays.node hroot).container, hsome]
  have ht : (t.node root').container.isSome := by
    have hboth := (h.twin.node hlinked).isSome_container
    rw [Coupling.partner_root] at hboth
    rw [hboth, hs]
  obtain ⟨a, ha⟩ := Option.isSome_iff_exists.mp hs
  obtain ⟨b, hb⟩ := Option.isSome_iff_exists.mp ht
  exact ⟨a, b, ha, hb⟩

theorem Meets.ask_left (hd : d.Asks root j name?) :
    Meets env d e (.ofChunks fit none y) (.ofChunks fit name? y) [.inr j] [] := by
  intro s t hst
  obtain ⟨a, b, ha, hb⟩ := hst.containers hd.root_lt hd.isSome_root
  obtain ⟨u, hu, hdocument, hglobals, hmacros⟩ :=
    renderNode_of_asks (hd.stays hst.stays) hst.twin.document.sound ha
  have hcoupled : (s.document.setContainer root { a with layout := name?.or a.layout }).Coupled
      (.ofChunks fit name? y) (t.document.setContainer root' b) :=
    hst.twin.document.setContainers ha hb id fun hx hy => ⟨by rw [hx, Option.or_none], hy⟩
  rw [Document.setContainer_self hb, ← hdocument] at hcoupled
  rw [weave_singleton, map_apply, hu]
  refine ⟨rfl, hst.twin.globals.trans hglobals.symm,
    fun _ => ⟨?_, hst.stays', hcoupled, ?_, ?_, ?_⟩⟩
  · rw [hdocument]
    exact hst.stays.trans (.setContainer (by rw [← RenderState.node, ha]; rfl) _)
  · exact hst.twin.globals.trans hglobals.symm
  · exact hst.twin.macros.trans hmacros.symm
  · exact fun _ => trivial

theorem Meets.ask_right (hroot : root < d.size) (hsome : (d.node root).container.isSome)
    (he : e.Asks root' j name?) :
    Meets env d e (.ofChunks fit x none) (.ofChunks fit x name?) [] [.inr j] := by
  intro s t hst
  obtain ⟨a, b, ha, hb⟩ := hst.containers hroot hsome
  obtain ⟨u, hu, hdocument, hglobals, hmacros⟩ :=
    renderNode_of_asks (he.stays hst.stays') hst.twin.document.sound' hb
  have hcoupled : (s.document.setContainer root a).Coupled (.ofChunks fit x name?)
      (t.document.setContainer root' { b with layout := name?.or b.layout }) :=
    hst.twin.document.setContainers ha hb id fun hx hy => ⟨hx, by rw [hy, Option.or_none]⟩
  rw [Document.setContainer_self ha, ← hdocument] at hcoupled
  rw [weave_singleton, map_apply, hu]
  refine ⟨rfl, hglobals.trans hst.twin.globals, fun _ => ⟨hst.stays, ?_, hcoupled, ?_, ?_, ?_⟩⟩
  · rw [hdocument]
    exact hst.stays'.trans (.setContainer (by rw [← RenderState.node, hb]; rfl) _)
  · exact hglobals.trans hst.twin.globals
  · exact hmacros.trans hst.twin.macros
  · exact fun _ => trivial

end Rendering

end chunks

/-! ### Pages with one part moved -/

/-- The entries of two pages are the same but for one part, which has been moved.  Its nodes begin
at `m` in the first page and at `m'` in the second one. -/
structure Entry.Moved (ps qs : List Part) (xs ys xs' ys' : List Entry) (m m' : Nat) (p q : Part) :
    Prop where
  entries : Part.entries 0 ps = xs ++ .inr (m, p) :: ys
  entries' : Part.entries 0 qs = xs' ++ .inr (m', q) :: ys'
  same : (xs ++ ys).map Entry.piece = (xs' ++ ys').map Entry.piece

namespace Entry.Moved

open TagTemplate.Part

variable {ps qs : List Part} {xs ys xs' ys' : List Entry} {m m' : Nat} {p q : Part}
  (h : Moved ps qs xs ys xs' ys' m m' p q)
include h

theorem sublist : (xs ++ ys).Sublist (Part.entries 0 ps) := by
  rw [h.entries]
  exact List.Sublist.append (.refl _) (List.sublist_cons_self _ _)

theorem sublist' : (xs' ++ ys').Sublist (Part.entries 0 qs) := by
  rw [h.entries']
  exact List.Sublist.append (.refl _) (List.sublist_cons_self _ _)

theorem fit : Chunk.Fit (chunks (xs ++ ys) (xs' ++ ys')) (countAll ps) (countAll qs) :=
  Document.fit_chunks h.sublist h.sublist' h.same

/-- The nodes of the other parts correspond. -/
theorem coupled {around : Surroundings} {span span' : Span} :
    (Document.ofPage around ps span).Coupled (.ofChunks h.fit none none)
      (Document.ofPage around qs span') :=
  Document.coupled_ofPage h.sublist h.sublist' h.same

theorem exists_chunk {i : Nat} (hi : .inr i ∈ (xs ++ ys).map top) :
    ∃ k ∈ chunks (xs ++ ys) (xs' ++ ys'), k.Covers i := by
  obtain ⟨x, hx, heq⟩ := List.mem_map.mp hi
  cases x with
  | inl ch => cases heq
  | inr e =>
      obtain ⟨k, hk, hstart, hcount⟩ := Entry.exists_chunk h.same hx
      have hpos := e.2.count_pos
      have hi : e.1 + e.2.count - 1 = i := Sum.inr.inj heq
      exact ⟨k, hk, by omega, by omega⟩

/-- The nodes of the part that has been moved belong to no chunk. -/
theorem not_covers {i : Nat} (hi : m ≤ i ∧ i < m + p.count) {k : Chunk}
    (hk : k ∈ chunks (xs ++ ys) (xs' ++ ys')) : ¬ k.Covers i := by
  rintro ⟨hle, hlt⟩
  obtain ⟨r, _, hr, _, _, hcount⟩ := mem_chunks h.same hk
  have hsorted := sorted_entries 0 ps
  rw [h.entries] at hsorted
  obtain ⟨_, hright, hbetween⟩ := List.pairwise_append.mp hsorted
  rcases List.mem_append.mp hr with hr | hr
  · have := hbetween _ hr _ List.mem_cons_self _ _ _ _ rfl rfl
    omega
  · have := (List.pairwise_cons.mp hright).1 _ hr _ _ _ _ rfl rfl
    omega

theorem top_entries : (Part.entries 0 ps).map top =
    xs.map top ++ ([.inr (m + p.count - 1)] ++ ys.map top) := by
  rw [h.entries, List.map_append, List.map_cons]
  rfl

theorem top_entries' : (Part.entries 0 qs).map top =
    xs'.map top ++ ([.inr (m' + q.count - 1)] ++ ys'.map top) := by
  rw [h.entries', List.map_append, List.map_cons]
  rfl

/-- The other parts of the second page are the partners of those of the first. -/
theorem top_others (x y : Option String) : xs'.map top ++ ys'.map top =
    (xs.map top).map (Sum.map id (Coupling.ofChunks h.fit x y).partner) ++
      (ys.map top).map (Sum.map id (Coupling.ofChunks h.fit x y).partner) := by
  rw [← List.map_append, ← List.map_append, ← List.map_append]
  exact Entry.map_top h.same fun k hk i hi => Chunk.partner_of_covers h.fit.sorted hk hi

end Entry.Moved

namespace Rendering

open TagTemplate.Part Entry

variable {env : Environment} {around : Surroundings} {ps qs : List Part} {span span' : Span}
  {xs ys xs' ys' : List Entry} {m m' : Nat} {p q : Part} {name? : Option String}

/-- Nodes of other parts than the one that has been moved give the same texts, whatever layouts are
asked for. -/
theorem meets_shared_of_moved (henv : env.toolkit = .builtin)
    (h : Moved ps qs xs ys xs' ys' m m' p q) (around : Surroundings) (span span' : Span)
    (x y : Option String) {l : List (Char ⊕ Nat)}
    (hl : ∀ i, .inr i ∈ l → .inr i ∈ (xs ++ ys).map top) :
    Meets env (Document.ofPage around ps span) (Document.ofPage around qs span')
      (.ofChunks h.fit x y) (.ofChunks h.fit x y) l
      (l.map (Sum.map id (Coupling.ofChunks h.fit none none).partner)) := by
  refine .shared henv (Coupling.closed_ofChunks env) fun i hi => ?_
  obtain ⟨k, hk, hki⟩ := h.exists_chunk (hl i hi)
  have hlt : i < (Document.ofPage around ps span).size := by
    rw [Document.size_ofPage]
    have := (h.fit.le hk).1
    have := hki.2
    omega
  exact ⟨.inl ⟨k, hk, hki⟩, hlt, h.coupled.partner_lt (.inl ⟨k, hk, hki⟩) hlt⟩

/-- The texts of two pages are woven alike if both ask for the same layout, each at its place. -/
theorem meets_of_moved (henv : env.toolkit = .builtin)
    (h : Moved ps qs xs ys xs' ys' m m' p q)
    (hd : (Document.ofPage around ps span).Asks (countAll ps) (m + p.count - 1) name?)
    (he : (Document.ofPage around qs span').Asks (countAll qs) (m' + q.count - 1) name?) :
    Meets env (Document.ofPage around ps span) (Document.ofPage around qs span')
      (.ofChunks h.fit none none) (.ofChunks h.fit name? name?)
      ((Part.entries 0 ps).map top) ((Part.entries 0 qs).map top) := by
  have hshared := meets_shared_of_moved henv h around span span'
  have hleft (y : Option String) :
      Meets env (Document.ofPage around ps span) (Document.ofPage around qs span')
        (.ofChunks h.fit none y) (.ofChunks h.fit name? y) [.inr (m + p.count - 1)] [] :=
    .ask_left hd
  have hright (x : Option String) :
      Meets env (Document.ofPage around ps span) (Document.ofPage around qs span')
        (.ofChunks h.fit x none) (.ofChunks h.fit x name?) [] [.inr (m' + q.count - 1)] :=
    .ask_right hd.root_lt hd.isSome_root he
  rw [h.top_entries, h.top_entries']
  rw [List.map_append] at hshared
  rcases List.append_eq_append_iff.mp (h.top_others none none) with ⟨l, hl, hl'⟩ | ⟨l, hl, hl'⟩
  · -- the second page asks first
    obtain ⟨l₁, l₂, hsplit, hl₁, rfl⟩ := List.map_eq_append_iff.mp hl
    rw [hsplit] at hshared ⊢
    rw [hl', ← hl₁]
    have hall := (hshared none none (l := l₁) fun i hi => by simp [hi]).append <|
      (hright none).append <| (hshared none name? (l := l₂) fun i hi => by simp [hi]).append <|
      (hleft name?).append <| hshared name? name? (l := ys.map top) fun i hi =>
        List.mem_append_right _ hi
    simpa only [List.append_assoc, List.nil_append] using hall
  · -- the first page asks first
    obtain ⟨l₁, l₂, hsplit, rfl, hl₂⟩ := List.map_eq_append_iff.mp hl'
    rw [hsplit] at hshared ⊢
    rw [hl, ← hl₂]
    have hall := (hshared none none (l := xs.map top) fun i hi =>
        List.mem_append_left _ hi).append <|
      (hleft none).append <| (hshared name? none (l := l₁) fun i hi => by simp [hi]).append <|
      (hright name?).append <| hshared name? name? (l := l₂) fun i hi => by simp [hi]
    simpa only [List.append_assoc, List.nil_append] using hall

/-! ### Containers -/

/-- The layout that a tag without an inside asks for, if it is one that does. -/
def layoutName (around : Surroundings) (tag : TagDefinition) (body matched : String) :
    Option String :=
  let n := Node.ofTag tag body (.text matched) none ⟨0, 0⟩
  (n.prepared Preparer.builtins around none).attributes.text? "name"

theorem asks_ofPage {tag : TagDefinition} {body matched : String} {place : Span}
    (hp : .inr (m, .leaf tag body matched place) ∈ Part.entries 0 ps) (hk : tag.kind = .layout) :
    (Document.ofPage around ps span).Asks (countAll ps) m (layoutName around tag body matched) := by
  have hlocal : ∀ p ∈ Preparer.builtins, p.IsLocal := fun _ => Preparer.isLocal_of_mem_builtins
  have hg := Node.grounded_prepared hlocal around
  obtain ⟨n, hn, hnode⟩ := Document.exists_node_of_holds (j := 0)
    (holds_of_mem (Document.holds_ofPage around ps span) hp) Nat.one_pos
  have hn : (Node.ofTag tag body (.text matched) none place).prepared Preparer.builtins around
      (some (countAll ps)) = n := Option.some.inj hn
  rw [Nat.add_zero] at hnode
  have hroot := Document.node_ofPage_root around ps span
  have hcount : (Part.leaf tag body matched place).count = 1 := rfl
  have hlt := (bounds_of_mem hp).2
  refine ⟨?_, ?_, ?_, ?_, ?_, ?_, ?_, ?_⟩
  · rw [Document.size_ofPage]
    omega
  · rw [hnode, ← hn, hg.kind]
    exact hk
  · rw [hnode, ← hn, Node.children, hg.content]
    rfl
  · rw [hnode, ← hn, Node.parent_prepared around _ rfl rfl]
  · rw [hnode, ← hn, hg.container]
    rfl
  · rw [hnode, ← hn, layoutName]
    have hbare := Node.bare_prepared around around.parent none (some (countAll ps))
      (n := .ofTag tag body (.text matched) none ⟨0, 0⟩)
      (m := .ofTag tag body (.text matched) none place) rfl
    exact (congrArg (fun n : Node => n.attributes.text? "name") hbare :)
  · rw [Document.size_ofPage]
    exact Nat.lt_succ_self _
  · rw [hroot]
    rfl

theorem bind_congr_left {α β : Type} {x y : Rendering α} {s : RenderState} (h : x s = y s)
    (f : α → Rendering β) : (x >>= f) s = (y >>= f) s := by
  rw [bind_apply, bind_apply, h]

def pageSurroundings (env : Environment) : Surroundings where
  parent := none
  inherited := ∅
  paths := env.settings.paths
  bubble := env.settings.bubble

/-- A page is rendered piece by piece. -/
theorem renderContainer_eq_weave (henv : env.toolkit = .builtin) {source : String}
    (hread : env.scanner.read source = { parts := ps }) (globals : Scope) :
    renderContainer env source ∅ { globals } =
      (do
        let text ← String.ofList <$> weave (renderNode env 0) ((Part.entries 0 ps).map top)
        return (text, ((← node (countAll ps)).container).getD {}))
      { globals, document := .ofPage (pageSurroundings env) ps ⟨0, source.utf8ByteSize⟩ } := by
  let d := Document.ofPage (pageSurroundings env) ps ⟨0, source.utf8ByteSize⟩
  let start : RenderState := { globals, document := d }
  have hlocal : ∀ p ∈ Preparer.builtins, p.IsLocal := fun _ => Preparer.isLocal_of_mem_builtins
  have hg := Node.grounded_prepared hlocal (pageSurroundings env)
  have hbuild := build_eq env source none ∅ env.settings.paths { globals }
  have hsize : ({ globals } : RenderState).document.size + countAll ps = countAll ps :=
    Nat.zero_add _
  rw [hread, if_pos rfl, hsize, henv] at hbuild
  have hroot : d.node (countAll ps) = _ := Document.node_ofPage_root _ _ _
  have hkind : (start.node (countAll ps)).kind = .root := by
    rw [RenderState.node, hroot]
    exact hg.kind _ _
  have hchildren : (start.node (countAll ps)).children = numbers 0 ps := by
    rw [RenderState.node, hroot, Node.children]
    dsimp only
    rw [hg.content]
    rfl
  have hlt : ∀ i ∈ numbers 0 ps, i < countAll ps := fun i hi => by
    rw [← hchildren] at hi
    exact Document.sound_ofPage.child_lt hi
  have hweave : sequence (renderNode env 0) (numbers 0 ps) start =
      (String.ofList <$> weave (renderNode env 0) ((Part.entries 0 ps).map top)) start :=
    sequence_eq_weave hg (Document.holds_ofPage _ ps _) (.refl d)
  rw [renderContainer]
  refine (bind_of_ok hbuild).trans ((bind_of_ok (modify_apply _ _)).trans ?_)
  exact bind_congr_left ((renderNode_of_root hkind hchildren hlt).trans hweave) _

/-- The containers of two pages that have asked for the same layout are the same, unless another
node asks for one. -/
theorem Along.getD_container {d e : Document} {s t : RenderState}
    (h : Moved ps qs xs ys xs' ys' m m' p q)
    (hst : Along d e (.ofChunks h.fit name? name?) s t)
    (hd : d.Asks (countAll ps) m name?) (hp : p.count = 1) (hlt : m < countAll ps)
    (hasks : s.document.AsksOnce) :
    ((t.node (countAll qs)).container).getD {} = ((s.node (countAll ps)).container).getD {} := by
  let c := Coupling.ofChunks h.fit name? name?
  have hlinked : c.linked (countAll ps) := .inr (Nat.le_refl _)
  obtain ⟨a, b, ha, hb⟩ := hst.containers hd.root_lt hd.isSome_root
  have hc := (hst.twin.node hlinked).container
  rw [Coupling.partner_root, ha, hb] at hc
  rw [ha, hb]
  -- the only layout is the part that has been moved, and that has no counterpart
  have hno : ∀ i, c.whole i → (s.document.node i).kind ≠ .layout := by
    intro i hi hk
    obtain rfl := hasks i m hk (hd.stays hst.stays).kind
    rcases hi with ⟨k, hk, hki⟩ | hi
    · exact h.not_covers ⟨Nat.le_refl _, by omega⟩ hk hki
    · omega
  cases hc with
  | some hab =>
      obtain ⟨slots, layout⟩ := a
      obtain ⟨slots', layout'⟩ := b
      obtain ⟨rfl, hlayouts⟩ := hab
      obtain ⟨rfl, rfl⟩ := hlayouts.2 hno
      rfl

/-- Two renderings with the same result, after which the states do not differ in what other sources
can see. -/
structure Alike {α : Type} (a b : Except RenderError α × RenderState) : Prop where
  result : b.1 = a.1
  globals : b.2.globals = a.2.globals
  macros {r : α} (h : a.1 = .ok r) : b.2.macros = a.2.macros
  sound {r : α} (h : a.1 = .ok r) : a.2.document.Sound
  sound' {r : α} (h : a.1 = .ok r) : b.2.document.Sound

/-- Two sources that differ in the place of the layout are rendered alike as containers. -/
theorem alike_renderContainer (henv : env.toolkit = .builtin) {source source' : String}
    (hread : env.scanner.read source = { parts := ps })
    (hread' : env.scanner.read source' = { parts := qs }) {tag : TagDefinition}
    {body matched : String} {place place' : Span} (hk : tag.kind = .layout)
    (h : Moved ps qs xs ys xs' ys' m m' (.leaf tag body matched place)
      (.leaf tag body matched place')) (globals : Scope)
    (hasks : ∀ r s, renderContainer env source ∅ { globals } = (.ok r, s) →
      s.document.AsksOnce) :
    Alike (renderContainer env source ∅ { globals })
      (renderContainer env source' ∅ { globals }) := by
  let around := pageSurroundings env
  have hd : (Document.ofPage around ps ⟨0, source.utf8ByteSize⟩).Asks (countAll ps) m
      (layoutName around tag body matched) :=
    asks_ofPage (h.entries ▸ List.mem_append_right _ List.mem_cons_self) hk
  have he : (Document.ofPage around qs ⟨0, source'.utf8ByteSize⟩).Asks (countAll qs) m'
      (layoutName around tag body matched) :=
    asks_ofPage (h.entries' ▸ List.mem_append_right _ List.mem_cons_self) hk
  have hlt : m < countAll ps := by
    have hmem : .inr (m, .leaf tag body matched place) ∈ Part.entries 0 ps :=
      h.entries ▸ List.mem_append_right _ List.mem_cons_self
    have hcount : (Part.leaf tag body matched place).count = 1 := rfl
    have := (bounds_of_mem hmem).2
    omega
  have hmeeting := meets_of_moved henv h hd he { globals, document := .ofPage around ps _ }
    { globals, document := .ofPage around qs _ }
    ⟨.refl _, .refl _, h.coupled, rfl, rfl, fun _ => trivial⟩
  rw [renderContainer_eq_weave henv hread, bind_apply, map_apply] at hasks ⊢
  rw [renderContainer_eq_weave henv hread', bind_apply, map_apply]
  revert hmeeting hasks
  cases weave (renderNode env 0) ((Part.entries 0 ps).map top)
      { globals, document := .ofPage around ps ⟨0, source.utf8ByteSize⟩ } with
  | mk r s =>
      cases weave (renderNode env 0) ((Part.entries 0 qs).map top)
          { globals, document := .ofPage around qs ⟨0, source'.utf8ByteSize⟩ } with
      | mk r' t =>
          intro hasks hmeeting
          obtain ⟨hr, hglobals, halong⟩ := hmeeting
          cases hr
          cases r with
          | error err => exact ⟨rfl, hglobals, nofun, nofun, nofun⟩
          | ok xs =>
              have hst := halong rfl
              have hcontainer := hst.getD_container h hd rfl hlt (hasks _ _ rfl)
              refine ⟨?_, hglobals, fun _ => hst.twin.macros, fun _ => hst.twin.document.sound,
                fun _ => hst.twin.document.sound'⟩
              exact congrArg (fun c => Except.ok (String.ofList xs, c)) hcontainer

theorem Alike.page (henv : env.toolkit = .builtin) {source source' : String} {globals : Scope}
    (h : Alike (renderContainer env source ∅ { globals })
      (renderContainer env source' ∅ { globals })) :
    (page env source' { globals }).1 = (page env source { globals }).1 ∧
      (page env source' { globals }).2.globals = (page env source { globals }).2.globals := by
  rw [Rendering.page, Rendering.page, bind_apply, bind_apply]
  revert h
  cases renderContainer env source ∅ { globals } with
  | mk r s =>
      cases renderContainer env source' ∅ { globals } with
      | mk r' t =>
          rintro ⟨hr, hglobals, hmacros, hs, ht⟩
          cases hr
          cases r with
          | error err => exact ⟨rfl, hglobals⟩
          | ok p =>
              have hwrap := twins_wrap henv (Coupling.closed_behind _ _ env)
                (Coupling.isExact_behind _ _ _) [] p.1 p.2 env.settings.maxDepth s t
                (RenderState.twin_behind (hs rfl) (ht rfl) hglobals (hmacros rfl)
                  fun _ _ _ => trivial) (.nil _)
              exact ⟨hwrap.result, hwrap.twin.globals⟩

end Rendering

/-! ### Where a page asks for its layout -/

/-- The second list is the first one with a tag that asks for a layout, and holds nothing, moved
elsewhere.  Places in the text do not count, nor how literal text is cut into parts. -/
def Part.LayoutMoved (ps qs : List Part) : Prop :=
  ∃ (tag : TagDefinition) (body matched : String) (xs ys xs' ys' : List (Char ⊕ Part)),
    tag.kind = .layout ∧
    ps.flatMap pieces = xs ++ .inr (.leaf tag body matched ⟨0, 0⟩) :: ys ∧
    qs.flatMap pieces = xs' ++ .inr (.leaf tag body matched ⟨0, 0⟩) :: ys' ∧
    xs ++ ys = xs' ++ ys'

namespace Part

theorem exists_entries {ps : List Part} {xs ys : List (Char ⊕ Part)} {r : Part}
    (h : ps.flatMap pieces = xs ++ .inr r :: ys) :
    ∃ l l' n p, entries 0 ps = l ++ .inr (n, p) :: l' ∧ p.placeless = r ∧
      l.map Entry.piece = xs ∧ l'.map Entry.piece = ys := by
  rw [← Entry.map_piece_entries 0] at h
  obtain ⟨l, l', hsplit, hl, hl'⟩ := List.map_eq_append_iff.mp h
  obtain ⟨x, l'', rfl, hx, hl''⟩ := List.map_eq_cons_iff.mp hl'
  cases x with
  | inl ch => cases hx
  | inr e => exact ⟨l, l'', e.1, e.2, hsplit, Sum.inr.inj hx, hl, hl''⟩

/-- A part that holds nothing has the constructor that its content shows. -/
theorem exists_leaf_of_placeless {p : Part} {tag : TagDefinition} {body matched : String}
    {span : Span} (h : p.placeless = .leaf tag body matched span) :
    ∃ place, p = .leaf tag body matched place := by
  cases p with
  | leaf tag' body' matched' place =>
      injection h with h₁ h₂ h₃
      subst h₁ h₂ h₃
      exact ⟨place, rfl⟩
  | literal | raw | block => cases h

end Part

namespace Template

open TagTemplate.Part

/-- With the tags known from the start, a page that asks for its layout once has the same result,
the same slots and the same variables of the template wherever among the parts of its root it asks,
whatever its other parts do, and whatever the loader, the variables and the settings are. -/
theorem render_layoutMoved {t : Template} (htoolkit : t.toolkit = .builtin) {scanner : TagScanner}
    (hscanner : TagScanner.ofTags t.toolkit.tags t.settings.delimiters = .ok scanner)
    {source source' : String} {ps qs : List Part} (hread : scanner.read source = { parts := ps })
    (hread' : scanner.read source' = { parts := qs }) (h : LayoutMoved ps qs)
    (hasks : ∀ r s, Rendering.renderContainer ⟨t.toolkit, scanner, t.settings, t.loader⟩ source ∅
      { globals := t.globals } = (.ok r, s) → s.document.AsksOnce) :
    (t.render source').result = (t.render source).result ∧
      (t.render source').template = (t.render source).template := by
  obtain ⟨tag, body, matched, xs, ys, xs', ys', hk, hps, hqs, hsame⟩ := h
  obtain ⟨l, r, m, p, hentries, hp, rfl, rfl⟩ := exists_entries hps
  obtain ⟨l', r', m', q, hentries', hq, rfl, rfl⟩ := exists_entries hqs
  obtain ⟨place, rfl⟩ := exists_leaf_of_placeless hp
  obtain ⟨place', rfl⟩ := exists_leaf_of_placeless hq
  rw [← List.map_append, ← List.map_append] at hsame
  let env : Environment := ⟨t.toolkit, scanner, t.settings, t.loader⟩
  have halike : Rendering.Alike (Rendering.renderContainer env source ∅ { globals := t.globals })
      (Rendering.renderContainer env source' ∅ { globals := t.globals }) :=
    Rendering.alike_renderContainer htoolkit hread hread' hk ⟨hentries, hentries', hsame⟩ t.globals
      hasks
  have hpage := halike.page htoolkit
  unfold render
  rw [hscanner]
  dsimp only
  revert hpage
  cases Rendering.page env source { globals := t.globals } with
  | mk r s =>
      cases Rendering.page env source' { globals := t.globals } with
      | mk r' u =>
          rintro ⟨hr, hglobals⟩
          cases hr
          cases r with
          | error err => exact ⟨rfl, congrArg (fun g => { t with globals := g }) hglobals⟩
          | ok p =>
              exact ⟨rfl, congrArg (fun g => { t with globals := g, slots := p.2.slots }) hglobals⟩

/-- The text `@template(frame)`. -/
def frameDirective : List Char :=
  BuiltinTag.layout.text ['f', 'r', 'a', 'm', 'e']

/-- The part that this text is read as. -/
def frameLeaf (start stop : Nat) : Part :=
  .leaf BuiltinTag.layout.spec (.ofList ['f', 'r', 'a', 'm', 'e']) (.ofList frameDirective)
    ⟨start, stop⟩

/-- A page that asks for its layout at the end, and the same page asking at the beginning. -/
theorem render_layoutMoved_frameDirective :
    let t : Template := { loader := fun _ _ => .ok "[@output(content)]" }
    let hi : List Char := ['H', 'i']
    TagScanner.ofTags t.toolkit.tags t.settings.delimiters = .ok .builtin ∧
      (t.render (.ofList (frameDirective ++ hi))).result =
        (t.render (.ofList (hi ++ frameDirective))).result ∧
      (t.render (.ofList (frameDirective ++ hi))).template =
        (t.render (.ofList (hi ++ frameDirective))).template := by
  intro t hi
  let none : Gap := ⟨[], bland_nil⟩
  let word : Gap := ⟨hi, by simp [hi]⟩
  let ps : List Part := [.literal (.ofList hi) ⟨0, 2⟩, frameLeaf 2 18]
  let env : Environment := ⟨t.toolkit, .builtin, t.settings, t.loader⟩
  have haccepts : BuiltinTag.layout.Accepts ['f', 'r', 'a', 'm', 'e'] := by
    show isArguments _ = true
    decide
  have hread : TagScanner.builtin.read (.ofList (hi ++ frameDirective)) = { parts := ps } :=
    (TagScanner.read_between word none haccepts rfl).trans rfl
  have hread' : TagScanner.builtin.read (.ofList (frameDirective ++ hi)) =
      { parts := [frameLeaf 0 16, .literal (.ofList hi) ⟨16, 18⟩] } :=
    (TagScanner.read_between none word haccepts rfl).trans rfl
  have hscanner : TagScanner.ofTags t.toolkit.tags t.settings.delimiters = .ok .builtin :=
    TagScanner.ofTags_builtin
  have hmoved : LayoutMoved ps [frameLeaf 0 16, .literal (.ofList hi) ⟨16, 18⟩] :=
    ⟨BuiltinTag.layout.spec, .ofList ['f', 'r', 'a', 'm', 'e'], .ofList frameDirective,
      [.inl 'H', .inl 'i'], [], [], [.inl 'H', .inl 'i'], rfl,
      by simp [ps, hi, frameLeaf, pieces, placeless], by simp [hi, frameLeaf, pieces, placeless],
      rfl⟩
  refine ⟨hscanner, render_layoutMoved rfl hscanner hread hread' hmoved fun r s hrun => ?_⟩
  have hentries : (entries 0 ps).map Entry.top = [.inl 'H', .inl 'i', .inr 1] := by
    simp [ps, hi, frameLeaf, entries, entry, Entry.top, count]
  have hweave : Rendering.weave (Rendering.renderNode env 0) [.inl 'H', .inl 'i', .inr 1] =
      Rendering.weave (Rendering.renderBefore env 0 2) [.inl 'H', .inl 'i', .inr 1] := by
    simp only [Rendering.weave, Rendering.renderNode_eq_before env 0 (Nat.lt_succ_self 1)]
  rw [Rendering.renderContainer_eq_weave rfl hread, hentries, hweave] at hrun
  obtain rfl := congrArg Prod.snd hrun
  refine Document.asksOnce_of_lt ?_
  decide +kernel

end Template

end TagTemplate
