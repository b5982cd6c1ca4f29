import TagTemplate.Proofs.Render.Heard
import TagTemplate.Proofs.Render.LayoutOrder

/-! # The layers of a page

A page is the innermost of its layers.  The others are the layouts, each of them asked for by the
layer inside it; it starts with the slots that this layer has left, and with its text.  The layers
are given here one after the other, whatever the limits are, and whether a name comes again or not.
A page ends at one of them.

* `layers`: the layers of a page.
* `Admits`: the first layouts that are asked for can be put around a page.
* `EndsAt`: what becomes of a page whose last layer is known.
* `Noting`: steps that take down the layouts that they load.
* `page_layers`: which layers of a page are rendered, and what becomes of it. -/

namespace TagTemplate

namespace Rendering

/-- A container that has been rendered: its root, the state in which the root was rendered, its
text, and the state after that. -/
structure Layer where
  root : Nat
  opened : RenderState
  text : String
  closed : RenderState

/-- The container as its rendering has left it. -/
def Layer.left (layer : Layer) : Container :=
  ((layer.closed.node layer.root).container).getD {}

variable (env : Environment)

/-- A source rendered as a container that starts with the slots, unless this fails. -/
def layer? (source : String) (slots : NameMap String) (s : RenderState) : Option Layer :=
  match build env source none ∅ env.settings.paths s with
  | (.error _, _) => none
  | (.ok root, t) =>
    let opened := { t with document := t.document.setContainer root { slots } }
    match renderNode env 0 root opened with
    | (.error _, _) => none
    | (.ok text, closed) => some { root, opened, text, closed }

def layoutSource (name : String) : Except LoadError String :=
  env.loader name (env.settings.paths.directories Loader.templates)

section layers
variable (source : String) (s : RenderState)

/-- The layers of a page from the inside: the page, and then the layout that each layer asks for.
There are no more layers after one that asks for none, or if the next one cannot be loaded or
rendered. -/
def layers : Nat → Option Layer
  | 0 => layer? env source ∅ s
  | i + 1 => do
    let inner ← layers i
    let name ← inner.left.layout
    let text ← (layoutSource env name).toOption
    layer? env text (inner.left.slots.insert contentSlot inner.text) inner.closed

/-- The name of the layout that a layer asks for. -/
def request? (i : Nat) : Option String :=
  (layers env source s i).bind (·.left.layout)

/-- The first `k` layouts that are asked for can be put around a page: their number is within the
limit, they can be loaded, and no name comes twice. -/
structure Admits (k : Nat) : Prop where
  depth : k ≤ env.settings.maxDepth
  loads : ∀ i < k, ∃ name text, request? env source s i = some name ∧
    layoutSource env name = .ok text
  distinct : ∀ i j, i < j → j < k → request? env source s i ≠ request? env source s j

/-- The layout asked for after the first `k` cannot be loaded, though its number is within the limit
and its name is not one of theirs. -/
structure Misses (k : Nat) (e : LoadError) : Prop where
  depth : k < env.settings.maxDepth
  missing : ∃ name, request? env source s k = some name ∧ layoutSource env name = .error e
  fresh : ∀ i < k, request? env source s i ≠ request? env source s k

/-- The outcome is the text of the layer and its container.  The state is the one that the layer has
left, with an event of the template at most. -/
def Shows (layer : Layer) (r : Except RenderError (String × Container) × RenderState) : Prop :=
  r.1 = .ok (layer.text, layer.left) ∧ (r.2 = layer.closed ∨
    ∃ detail, r.2 = layer.closed.tell env.settings.bubble ⟨.error, "template", detail⟩)

/-- The outcome of a page whose last layer is the layer `k`, around which no more layouts can be
put.  It is an error if the settings are strict and the next layout is missing. -/
structure EndsAt (k : Nat) (layer : Layer)
    (r : Except RenderError (String × Container) × RenderState) : Prop where
  rendered : layers env source s k = some layer
  admits : Admits env source s k
  greatest {i : Nat} (h : Admits env source s i) : i ≤ k
  fails {e : LoadError} (hstrict : env.settings.strict = true) (h : Misses env source s k e) :
    r = (.error (.load e), layer.closed)
  shows (h : env.settings.strict = true → ∀ e, ¬ Misses env source s k e) : Shows env layer r

end layers

/-! ### Layers -/

section layer
variable {env} {source : String} {slots : NameMap String} {s : RenderState} {layer : Layer}

theorem exists_build_of_layer? (h : layer? env source slots s = some layer) :
    ∃ t, build env source none ∅ env.settings.paths s = (.ok layer.root, t) ∧
      layer.opened = { t with document := t.document.setContainer layer.root { slots } } ∧
      renderNode env 0 layer.root layer.opened = (.ok layer.text, layer.closed) := by
  unfold layer? at h
  split at h
  · cases h
  · next root t hbuild =>
    dsimp only at h
    split at h
    · cases h
    · next text closed hrender =>
      cases h
      exact ⟨t, hbuild, rfl, hrender⟩

theorem renderContainer_of_layer? (h : layer? env source slots s = some layer) :
    renderContainer env source slots s = (.ok (layer.text, layer.left), layer.closed) := by
  obtain ⟨t, hbuild, hopened, hrender⟩ := exists_build_of_layer? h
  rw [renderContainer, bind_of_ok hbuild, bind_of_ok (modify_apply _ t), ← hopened,
    bind_of_ok hrender]
  exact bind_of_ok (node_apply _ _)

/-- A layer starts with its slots, and asks for no layout. -/
theorem container_opened (h : layer? env source slots s = some layer) :
    (layer.opened.node layer.root).container = some { slots, layout := none } := by
  obtain ⟨t, hbuild, hopened, -⟩ := exists_build_of_layer? h
  have hlt : layer.root < t.document.size := by
    obtain ⟨-, hroot, rfl⟩ := build_ok hbuild
    rw [hroot, RenderState.grow, Document.size_append, Part.length_fragment]
    exact Nat.lt_succ_self _
  rw [hopened, RenderState.node]
  dsimp only
  rw [Document.setContainer, Document.node_update _ _ _ _ hlt, if_pos rfl]

/-- The layer of a source that has been read, in a form that can be computed. -/
def readLayer? (env : Environment) (parts : List Part) (length : Nat) (slots : NameMap String)
    (s : RenderState) : Option Layer :=
  let root := s.document.size + Part.countAll parts
  let t := s.grow (Part.fragment (Node.prepared env.toolkit.preparers
    ⟨none, ∅, env.settings.paths, env.settings.bubble⟩) s.document.size none parts ⟨0, length⟩)
  let opened := { t with document := t.document.setContainer root { slots } }
  match renderBefore env 0 (root + 1) root opened with
  | (.error _, _) => none
  | (.ok text, closed) => some { root, opened, text, closed }

theorem layer?_eq_readLayer? {parts : List Part} (hread : env.scanner.read source = { parts })
    (slots : NameMap String) (s : RenderState) :
    layer? env source slots s = readLayer? env parts source.utf8ByteSize slots s := by
  have hbuild := build_eq env source none ∅ env.settings.paths s
  rw [hread, if_pos rfl] at hbuild
  unfold layer? readLayer?
  rw [hbuild]
  dsimp only
  rw [renderNode_eq_before env 0 (Nat.lt_succ_self _)]

end layer

/-! ### One layout -/

section layout
variable {env} {name source : String} {used : List String} {text : String} {c : Container}
  {remaining : Nat} {s : RenderState} {e : LoadError}

theorem loadLayout_of_ok (h : layoutSource env name = .ok source) :
    loadLayout env name s = (.ok (some source), s) := by
  unfold layoutSource at h
  rw [loadLayout, h]
  rfl

theorem loadLayout_of_error (h : layoutSource env name = .error e) :
    loadLayout env name s =
      if env.settings.strict then (.error (.load e), s)
      else (.ok none, s.tell env.settings.bubble ⟨.error, "template", e.display⟩) := by
  unfold layoutSource at h
  rw [loadLayout, h]
  dsimp only
  split
  · rfl
  · exact bind_of_ok (reportTemplate_apply env .error e.display s)

/-- No layout comes after the last one that the limit allows, nor one that comes again. -/
theorem wrap_of_stop (hname : c.layout = some name) (hstop : remaining = 0 ∨ name ∈ used) :
    ∃ detail, wrap env used text c remaining s =
      (.ok (text, c), s.tell env.settings.bubble ⟨.error, "template", detail⟩) := by
  cases remaining with
  | zero =>
      refine ⟨if name ∈ used then cycleMessage name else "layout chain too deep", ?_⟩
      rw [wrap, hname]
      exact bind_of_ok (reportTemplate_apply _ _ _ s)
  | succ remaining =>
      have hused : name ∈ used := hstop.resolve_left (Nat.succ_ne_zero remaining)
      refine ⟨cycleMessage name, ?_⟩
      rw [wrap, hname]
      dsimp only
      rw [if_pos hused]
      exact bind_of_ok (reportTemplate_apply _ _ _ s)

/-- Another layout is loaded. -/
theorem wrap_of_fresh (hname : c.layout = some name) (hused : name ∉ used) :
    wrap env used text c (remaining + 1) s =
      (do
        match ← loadLayout env name with
        | none => return (text, c)
        | some source =>
          let (text, c) ← renderContainer env source (c.slots.insert contentSlot text)
          wrap env (name :: used) text c remaining) s := by
  rw [wrap, hname]
  exact congrFun (if_neg hused) s

theorem wrap_of_loaded {layer : Layer} (hname : c.layout = some name) (hused : name ∉ used)
    (hsource : layoutSource env name = .ok source)
    (hlayer : layer? env source (c.slots.insert contentSlot text) s = some layer) :
    wrap env used text c (remaining + 1) s =
      wrap env (name :: used) layer.text layer.left remaining layer.closed := by
  rw [wrap_of_fresh hname hused, bind_of_ok (loadLayout_of_ok hsource)]
  exact bind_of_ok (renderContainer_of_layer? hlayer)

theorem wrap_of_missing (hname : c.layout = some name) (hused : name ∉ used)
    (he : layoutSource env name = .error e) :
    wrap env used text c (remaining + 1) s =
      if env.settings.strict then (.error (.load e), s)
      else (.ok (text, c), s.tell env.settings.bubble ⟨.error, "template", e.display⟩) := by
  have hload := loadLayout_of_error (s := s) he
  rw [wrap_of_fresh hname hused]
  by_cases hstrict : env.settings.strict = true
  · rw [if_pos hstrict] at hload ⊢
    exact bind_of_error hload
  · rw [if_neg hstrict] at hload ⊢
    exact bind_of_ok hload

end layout

/-! ### All layouts -/

section layers
variable {env} {source : String} {s : RenderState} {i k : Nat} {layer : Layer} {name text : String}
  {e : LoadError}

theorem request?_of_layer (h : layers env source s i = some layer) :
    request? env source s i = layer.left.layout := by
  rw [request?, h, Option.bind_some]

theorem layers_succ (h : layers env source s i = some layer) (hname : layer.left.layout = some name)
    (htext : layoutSource env name = .ok text) :
    layers env source s (i + 1) =
      layer? env text (layer.left.slots.insert contentSlot layer.text) layer.closed := by
  rw [layers, h, Option.bind_eq_bind, Option.bind_some, hname, Option.bind_eq_bind,
    Option.bind_some, htext]
  rfl

/-- The slots that a layer starts with. -/
theorem exists_layer?_of_layers_succ {inner outer : Layer}
    (h : layers env source s i = some inner) (h' : layers env source s (i + 1) = some outer) :
    ∃ text, layer? env text (inner.left.slots.insert contentSlot inner.text) inner.closed =
      some outer := by
  rw [layers, h, Option.bind_eq_bind, Option.bind_some] at h'
  obtain ⟨name, -, hname⟩ := Option.bind_eq_some_iff.mp h'
  obtain ⟨text, -, htext⟩ := Option.bind_eq_some_iff.mp hname
  exact ⟨text, htext⟩

namespace Admits

theorem zero : Admits env source s 0 :=
  ⟨Nat.zero_le _, fun _ h => absurd h (Nat.not_lt_zero _),
    fun _ _ _ h => absurd h (Nat.not_lt_zero _)⟩

theorem mono (h : Admits env source s k) (hik : i ≤ k) : Admits env source s i :=
  ⟨hik.trans h.depth, fun j hj => h.loads j (hj.trans_le hik),
    fun j j' hj hj' => h.distinct j j' hj (hj'.trans_le hik)⟩

/-- One more layout that can be loaded, of a name of its own. -/
theorem succ (h : Admits env source s k) (hdepth : k < env.settings.maxDepth)
    (hname : request? env source s k = some name) (htext : layoutSource env name = .ok text)
    (hfresh : ∀ i < k, request? env source s i ≠ request? env source s k) :
    Admits env source s (k + 1) := by
  refine ⟨hdepth, fun i hi => ?_, fun i j hij hj => ?_⟩
  · rcases Nat.lt_succ_iff_lt_or_eq.mp hi with hi | rfl
    · exact h.loads i hi
    · exact ⟨name, text, hname, htext⟩
  · rcases Nat.lt_succ_iff_lt_or_eq.mp hj with hj | rfl
    · exact h.distinct i j hij hj
    · exact hfresh i hij

theorem not_succ_of_none (h : request? env source s k = none) : ¬ Admits env source s (k + 1) := by
  intro hsucc
  obtain ⟨name, _, hname, _⟩ := hsucc.loads k (Nat.lt_succ_self k)
  cases h.symm.trans hname

theorem le_of_not_succ (h : ¬ Admits env source s (k + 1)) (hi : Admits env source s i) :
    i ≤ k := by
  by_contra hlt
  exact h (hi.mono (Nat.lt_of_not_le hlt))

end Admits

theorem mem_cons_requests {used : List String} (hname : request? env source s i = some name)
    (hused : ∀ n, n ∈ used ↔ ∃ j < i, request? env source s j = some n) (n : String) :
    n ∈ name :: used ↔ ∃ j < i + 1, request? env source s j = some n := by
  rw [List.mem_cons, hused]
  constructor
  · rintro (rfl | ⟨j, hj, hn⟩)
    · exact ⟨i, Nat.lt_succ_self i, hname⟩
    · exact ⟨j, Nat.lt_succ_of_lt hj, hn⟩
  · rintro ⟨j, hj, hn⟩
    rcases Nat.lt_succ_iff_lt_or_eq.mp hj with hj | rfl
    · exact .inr ⟨j, hj, hn⟩
    · exact .inl (Option.some.inj (hn.symm.trans hname))

/-! ### Where a page ends -/

namespace EndsAt

/-- A layer that asks for no layout is the last one. -/
theorem of_none (hlayer : layers env source s k = some layer) (h : Admits env source s k)
    (hnone : layer.left.layout = none) :
    EndsAt env source s k layer (.ok (layer.text, layer.left), layer.closed) := by
  have hrequest : request? env source s k = none := (request?_of_layer hlayer).trans hnone
  refine ⟨hlayer, h, Admits.le_of_not_succ (Admits.not_succ_of_none hrequest),
    fun _ hmisses => ?_, fun _ => ⟨rfl, .inl rfl⟩⟩
  obtain ⟨name, hname, _⟩ := hmisses.missing
  cases hrequest.symm.trans hname

/-- A layer is the last one, with an event, if the layout that it asks for is neither admitted nor
missing. -/
theorem of_stop (hlayer : layers env source s k = some layer) (h : Admits env source s k)
    (hlast : ¬ Admits env source s (k + 1)) (hmisses : ∀ e, ¬ Misses env source s k e)
    (detail : String) :
    EndsAt env source s k layer (.ok (layer.text, layer.left),
      layer.closed.tell env.settings.bubble ⟨.error, "template", detail⟩) :=
  ⟨hlayer, h, Admits.le_of_not_succ hlast, fun _ hm => absurd hm (hmisses _),
    fun _ => ⟨rfl, .inr ⟨detail, rfl⟩⟩⟩

/-- A layer is the last one if the layout that it asks for is missing. -/
theorem of_misses (hlayer : layers env source s k = some layer) (h : Admits env source s k)
    (hmisses : Misses env source s k e) :
    EndsAt env source s k layer (if env.settings.strict then (.error (.load e), layer.closed)
      else (.ok (layer.text, layer.left),
        layer.closed.tell env.settings.bubble ⟨.error, "template", e.display⟩)) := by
  obtain ⟨name, hname, he⟩ := hmisses.missing
  refine ⟨hlayer, h, Admits.le_of_not_succ fun hsucc => ?_, fun hstrict hm => ?_, fun hshown => ?_⟩
  · obtain ⟨name', text, hname', htext⟩ := hsucc.loads k (Nat.lt_succ_self k)
    cases hname.symm.trans hname'
    cases he.symm.trans htext
  · obtain ⟨name', hname', he'⟩ := hm.missing
    cases hname.symm.trans hname'
    cases he.symm.trans he'
    rw [if_pos hstrict]
  · have hstrict : ¬ env.settings.strict = true := fun hstrict => hshown hstrict e hmisses
    rw [if_neg hstrict]
    exact ⟨rfl, .inr ⟨e.display, rfl⟩⟩

end EndsAt

section rendered
variable (h : ∀ k, Admits env source s k → (layers env source s k).isSome)
include h

/-- From a layer on, layouts are put around a page as long as they are admitted.  Those in use are
the ones asked for so far. -/
theorem wrap_endsAt : ∀ {remaining i : Nat} {used : List String} {layer : Layer},
    i + remaining = env.settings.maxDepth →
    (∀ name, name ∈ used ↔ ∃ j < i, request? env source s j = some name) →
    Admits env source s i → layers env source s i = some layer →
      ∃ k last, EndsAt env source s k last
        (wrap env used layer.text layer.left remaining layer.closed)
  | remaining, i, used, layer, hcount, hused, hadmits, hlayer => by
      cases hname : layer.left.layout with
      | none =>
          rw [wrap_of_no_layout env used hname]
          exact ⟨i, layer, .of_none hlayer hadmits hname⟩
      | some name =>
          have hrequest : request? env source s i = some name :=
            (request?_of_layer hlayer).trans hname
          by_cases hmem : name ∈ used
          · -- the name has been asked for before
            obtain ⟨j, hj, hsame⟩ := (hused name).mp hmem
            obtain ⟨detail, hwrap⟩ := wrap_of_stop hname (.inr hmem)
            rw [hwrap]
            refine ⟨i, layer, .of_stop hlayer hadmits (fun hsucc => ?_) (fun e hmisses => ?_)
              detail⟩
            · exact hsucc.distinct j i hj (Nat.lt_succ_self i) (hsame.trans hrequest.symm)
            · exact hmisses.fresh j hj (hsame.trans hrequest.symm)
          · have hfresh : ∀ j < i, request? env source s j ≠ request? env source s i :=
              fun j hj hsame => hmem ((hused name).mpr ⟨j, hj, hsame.trans hrequest⟩)
            cases remaining with
            | zero =>
                obtain ⟨detail, hwrap⟩ := wrap_of_stop hname (.inl rfl)
                rw [hwrap]
                refine ⟨i, layer, .of_stop hlayer hadmits (fun hsucc => ?_) (fun e hmisses => ?_)
                  detail⟩
                · have := hsucc.depth
                  omega
                · have := hmisses.depth
                  omega
            | succ remaining =>
                have hdepth : i < env.settings.maxDepth := by omega
                cases htext : layoutSource env name with
                | error e =>
                    rw [wrap_of_missing hname hmem htext]
                    exact ⟨i, layer,
                      .of_misses hlayer hadmits ⟨hdepth, ⟨name, hrequest, htext⟩, hfresh⟩⟩
                | ok text =>
                    have hsucc := hadmits.succ hdepth hrequest htext hfresh
                    obtain ⟨outer, houter⟩ := Option.isSome_iff_exists.mp (h (i + 1) hsucc)
                    rw [wrap_of_loaded hname hmem htext
                      ((layers_succ hlayer hname htext).symm.trans houter)]
                    exact wrap_endsAt (by omega) (mem_cons_requests hrequest hused) hsucc houter

/-- A page ends with the last layout that is admitted. -/
theorem page_endsAt : ∃ k last, EndsAt env source s k last (page env source s) := by
  obtain ⟨layer, hlayer⟩ := Option.isSome_iff_exists.mp (h 0 .zero)
  have hused : ∀ name, name ∈ [] ↔ ∃ j < 0, request? env source s j = some name := by
    intro name
    simp
  obtain ⟨k, last, hend⟩ := wrap_endsAt h (Nat.zero_add _) hused .zero hlayer
  refine ⟨k, last, ?_⟩
  rw [page, bind_of_ok (renderContainer_of_layer? hlayer)]
  exact hend

end rendered

end layers

/-! ### The layouts that are loaded -/

/-- A step that takes down names, the last one first. -/
abbrev Noting := ExceptT RenderError (StateM (RenderState × List String))

namespace Noting

variable {α β : Type}

/-- Takes down a name. -/
def note (name : String) : Noting Unit :=
  modify fun p => (p.1, name :: p.2)

/-- A step that takes down nothing. -/
def quietly (x : Rendering α) : Noting α := fun p =>
  ((x p.1).1, ((x p.1).2, p.2))

/-- The step without what it takes down. -/
def forget (x : Noting α) : Rendering α := fun s =>
  ((x (s, [])).1, (x (s, [])).2.1)

/-- What the step takes down. -/
def noted (x : Noting α) (s : RenderState) : List String :=
  (x (s, [])).2.2

end Noting

section noting
open Noting

/-- Loads a layout, and takes down its name. -/
def loadLayoutNoting (name : String) : Noting (Option String) := do
  note name
  quietly (loadLayout env name)

/-- Puts layouts around a text, and takes down those that are loaded. -/
def wrapNoting (used : List String) (text : String) (c : Container) :
    Nat → Noting (String × Container)
  | 0 => do
    if let some name := c.layout then
      quietly (reportTemplate env .error
        (if name ∈ used then cycleMessage name else "layout chain too deep"))
    return (text, c)
  | remaining + 1 =>
    match c.layout with
    | none => return (text, c)
    | some name =>
      if name ∈ used then do
        quietly (reportTemplate env .error (cycleMessage name))
        return (text, c)
      else do
        match ← loadLayoutNoting env name with
        | none => return (text, c)
        | some source =>
          let (text, c) ← quietly (renderContainer env source (c.slots.insert contentSlot text))
          wrapNoting (name :: used) text c remaining

/-- Renders a page with all its layouts, and takes down those that are loaded. -/
def pageNoting (source : String) : Noting (String × Container) := do
  let (text, c) ← quietly (renderContainer env source ∅)
  wrapNoting env [] text c env.settings.maxDepth

end noting

namespace Noting

section rules
variable {α β : Type} {used : List String}

theorem bind_apply (x : Noting α) (f : α → Noting β) (p : RenderState × List String) :
    (x >>= f) p = match x p with
      | (.ok a, q) => f a q
      | (.error e, q) => (.error e, q) := by
  simp only [bind, ExceptT.bind, ExceptT.mk, StateT.bind]
  cases x p with
  | mk r q => cases r <;> rfl

/-- The first step does what the second one does, whatever has been taken down before. -/
def Notes (x : Noting α) (y : Rendering α) : Prop :=
  ∀ s names, ((x (s, names)).1, (x (s, names)).2.1) = y s

namespace Notes

theorem quietly (x : Rendering α) : Notes (quietly x) x :=
  fun _ _ => rfl

theorem pure (a : α) : Notes (Pure.pure a) (Pure.pure a) :=
  fun _ _ => rfl

theorem bind {x : Noting α} {y : Rendering α} {f : α → Noting β} {g : α → Rendering β}
    (h : Notes x y) (hf : ∀ a, Notes (f a) (g a)) : Notes (x >>= f) (y >>= g) := by
  intro s names
  rw [bind_apply, Rendering.bind_apply, ← h s names]
  cases x (s, names) with
  | mk r q =>
      cases r with
      | ok a => exact hf a q.1 q.2
      | error e => rfl

theorem note (name : String) {x : Noting α} {y : Rendering α} (h : Notes x y) :
    Notes (do Noting.note name; x) y :=
  fun s names => h s (name :: names)

end Notes

/-- The step takes down no name twice, nor one of those in use. -/
def NotesOnce (used : List String) (x : Noting α) : Prop :=
  ∀ s, (x (s, used)).2.2.Nodup

namespace NotesOnce

theorem pure (h : used.Nodup) (a : α) : NotesOnce used (Pure.pure a) :=
  fun _ => h

theorem quietly (h : used.Nodup) (x : Rendering α) {f : α → Noting β}
    (hf : ∀ a, NotesOnce used (f a)) : NotesOnce used (Noting.quietly x >>= f) := by
  intro s
  rw [bind_apply, Noting.quietly]
  cases x s with
  | mk r t =>
      cases r with
      | ok a => exact hf a t
      | error e => exact h

theorem note {name : String} {x : Noting α} (h : NotesOnce (name :: used) x) :
    NotesOnce used (do Noting.note name; x) :=
  h

end NotesOnce

end rules

end Noting

section noting
open Noting

variable {env}

theorem notes_wrapNoting : ∀ (remaining : Nat) (used : List String) (text : String)
    (c : Container), Notes (wrapNoting env used text c remaining) (wrap env used text c remaining)
  | 0, used, text, c => by
      rw [wrapNoting, wrap]
      cases c.layout with
      | none => exact .pure _
      | some name => exact .bind (.quietly _) fun _ => .pure _
  | remaining + 1, used, text, c => by
      rw [wrapNoting, wrap]
      cases c.layout with
      | none => exact .pure _
      | some name =>
          dsimp only
          split
          · exact .bind (.quietly _) fun _ => .pure _
          · refine .bind (.note name (.quietly _)) fun r => ?_
            cases r with
            | none => exact .pure _
            | some source =>
                exact .bind (.quietly _) fun _ => notes_wrapNoting remaining _ _ _

/-- A layout is loaded only if its name is not in use, and its name is in use from then on. -/
theorem notesOnce_wrapNoting : ∀ (remaining : Nat) {used : List String} (_ : used.Nodup)
    (text : String) (c : Container), NotesOnce used (wrapNoting env used text c remaining)
  | 0, used, hused, text, c => by
      rw [wrapNoting]
      cases c.layout with
      | none => exact .pure hused _
      | some name => exact .quietly hused _ fun _ => .pure hused _
  | remaining + 1, used, hused, text, c => by
      rw [wrapNoting]
      cases c.layout with
      | none => exact .pure hused _
      | some name =>
          dsimp only
          split
          · exact .quietly hused _ fun _ => .pure hused _
          · next hname =>
            have hcons : (name :: used).Nodup := List.nodup_cons.mpr ⟨hname, hused⟩
            rw [loadLayoutNoting, bind_assoc]
            refine .note (.quietly hcons _ fun r => ?_)
            cases r with
            | none => exact .pure hcons _
            | some source =>
                exact .quietly hcons _ fun _ => notesOnce_wrapNoting remaining hcons _ _

theorem notes_pageNoting (source : String) : Notes (pageNoting env source) (page env source) :=
  .bind (.quietly _) fun _ => notes_wrapNoting _ _ _ _

theorem notesOnce_pageNoting (source : String) : NotesOnce [] (pageNoting env source) :=
  .quietly List.nodup_nil _ fun _ => notesOnce_wrapNoting _ List.nodup_nil _ _

end noting

/-! ### A page in a frame -/

/-- The text `[@output(content)]`. -/
def frameSource : String :=
  .ofList (['['] ++ (BuiltinTag.output.text ['c', 'o', 'n', 't', 'e', 'n', 't'] ++ [']']))

/-- The text `@template(frame)Hi`. -/
def framedPage : String :=
  .ofList (Template.frameDirective ++ ['H', 'i'])

/-- Everything known from the start, and the frame. -/
def framing : Environment :=
  .usual (.ofSources (.ofList [("frame", frameSource)]))

theorem layers_framedPage : ∃ inner outer, layers framing framedPage {} 0 = some inner ∧
    inner.left.layout = some "frame" ∧ layers framing framedPage {} 1 = some outer ∧
    outer.left.layout = none ∧ outer.text = "[Hi]" := by
  let empty : Gap := ⟨[], bland_nil⟩
  let hi : Gap := ⟨['H', 'i'], by simp⟩
  let opening : Gap := ⟨['['], by simp⟩
  let closing : Gap := ⟨[']'], by simp⟩
  let inside : List Part := [Template.frameLeaf 0 16, .literal (.ofList hi.1) ⟨16, 18⟩]
  let around : List Part := [.literal (.ofList opening.1) ⟨0, 1⟩,
    .leaf BuiltinTag.output.spec "content"
      (.ofList (BuiltinTag.output.text ['c', 'o', 'n', 't', 'e', 'n', 't'])) ⟨1, 17⟩,
    .literal (.ofList closing.1) ⟨17, 18⟩]
  have haccepts : BuiltinTag.layout.Accepts ['f', 'r', 'a', 'm', 'e'] :=
    show isArguments _ = true by decide
  have haccepts' : BuiltinTag.output.Accepts ['c', 'o', 'n', 't', 'e', 'n', 't'] :=
    show isArguments _ = true by decide
  have hpage : framing.scanner.read framedPage = { parts := inside } :=
    (TagScanner.read_between empty hi haccepts rfl).trans rfl
  have hframe : framing.scanner.read frameSource = { parts := around } :=
    (TagScanner.read_between opening closing haccepts' rfl).trans rfl
  have hasks : (readLayer? framing inside 18 ∅ {}).map (·.left.layout) = some (some "frame") := by
    decide +kernel
  have hshows : ((readLayer? framing inside 18 ∅ {}).bind fun layer => readLayer? framing around 18
      (layer.left.slots.insert contentSlot layer.text) layer.closed).map
        (fun layer => (layer.left.layout, layer.text)) = some (none, "[Hi]") := by
    decide +kernel
  obtain ⟨inner, hinner, hname⟩ := Option.map_eq_some_iff.mp hasks
  rw [hinner, Option.bind_some] at hshows
  obtain ⟨outer, houter, hlast⟩ := Option.map_eq_some_iff.mp hshows
  obtain ⟨hnone, htext⟩ := Prod.mk.inj hlast
  have hfirst : layers framing framedPage {} 0 = some inner :=
    (layer?_eq_readLayer? hpage ∅ {}).trans hinner
  have hsecond : layers framing framedPage {} 1 = some outer :=
    (layers_succ hfirst hname rfl).trans ((layer?_eq_readLayer? hframe _ _).trans houter)
  exact ⟨inner, outer, hfirst, hname, hsecond, hnone, htext⟩

/-! ### Pages and their layouts -/

/-- Provided that the page and the layouts that are admitted can be rendered, a page ends with the
last layout that is admitted: its text and its slots are those of this layer, unless the settings
are strict and the next layout, whose name is new and whose number is within the limit, cannot be
loaded; the error is that of the loader then.  Each layer starts with the slots that the layer
inside it has left, with its text as content, and asks for no layout at first.  No layout is loaded
twice in any case. -/
theorem page_layers (env : Environment) (source : String) (s : RenderState) :
    ((∀ k, Admits env source s k → (layers env source s k).isSome) →
      ∃ k layer, EndsAt env source s k layer (page env source s)) ∧
    (∀ layer, layers env source s 0 = some layer →
      (layer.opened.node layer.root).container = some {}) ∧
    (∀ i inner outer, layers env source s i = some inner →
      layers env source s (i + 1) = some outer →
        (outer.opened.node outer.root).container =
          some { slots := inner.left.slots.insert contentSlot inner.text, layout := none }) ∧
    (pageNoting env source).forget s = page env source s ∧
      ((pageNoting env source).noted s).Nodup := by
  refine ⟨page_endsAt, fun layer h => container_opened h, fun i inner outer h h' => ?_,
    notes_pageNoting source s [], notesOnce_pageNoting source s⟩
  obtain ⟨text, houter⟩ := exists_layer?_of_layers_succ h h'
  exact container_opened houter

/-- A page in a frame that asks for no layout itself ends with the frame. -/
theorem page_layers_framedPage :
    (∀ k, Admits framing framedPage {} k → (layers framing framedPage {} k).isSome) ∧
      ∃ layer, EndsAt framing framedPage {} 1 layer (page framing framedPage {}) ∧
        layer.text = "[Hi]" := by
  obtain ⟨inner, outer, hfirst, hname, hsecond, hlast, htext⟩ := layers_framedPage
  have hno : ¬ Admits framing framedPage {} 2 :=
    Admits.not_succ_of_none ((request?_of_layer hsecond).trans hlast)
  have hrendered (k : Nat) (hk : Admits framing framedPage {} k) :
      (layers framing framedPage {} k).isSome := by
    rcases Nat.le_one_iff_eq_zero_or_eq_one.mp (Admits.le_of_not_succ hno hk) with rfl | rfl
    · exact Option.isSome_of_eq_some hfirst
    · exact Option.isSome_of_eq_some hsecond
  have hone : Admits framing framedPage {} 1 :=
    Admits.zero.succ (by decide) ((request?_of_layer hfirst).trans hname) rfl
      fun _ h => absurd h (Nat.not_lt_zero _)
  obtain ⟨k, layer, hend⟩ := (page_layers framing framedPage {}).1 hrendered
  obtain rfl : k = 1 :=
    Nat.le_antisymm (Admits.le_of_not_succ hno hend.admits) (hend.greatest hone)
  have hsame : layer = outer := Option.some.inj (hend.rendered.symm.trans hsecond)
  exact ⟨hrendered, layer, hend, hsame ▸ htext⟩

end Rendering

end TagTemplate
