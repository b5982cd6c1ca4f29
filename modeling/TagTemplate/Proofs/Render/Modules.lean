import TagTemplate.Proofs.Render.Fragments
import TagTemplate.Proofs.Render.Pages
import TagTemplate.Proofs.Render.TwinPages
import TagTemplate.Proofs.Scanning.RoundTrip

/-! # Modules stand alone

A module is rendered as a fragment without a parent.  So it sees no variables but those of the
template, and no container, wherever the node stands that uses it; only its variables come out, and
go to the parent of that node.

* `Adopts`: what using a module changes in the nodes that were there before.
* `moduleUse_hermetic`: the same module, used by two nodes that stand anywhere, has the same result
  and the same variables. -/

namespace TagTemplate

/-- Bindings are put over the variables of the node that takes the assignments of `id`, and nothing
else has changed in the variables of older nodes. -/
def Adopts (id : Nat) (s t : RenderState) (bindings : Scope) : Prop :=
  ∀ i < s.document.size, (t.node i).scope =
    if i = s.target id then (s.node i).scope.extend bindings else (s.node i).scope

/-- The containers of older nodes, with their slots and layouts, have not changed. -/
def SameContainers (s t : RenderState) : Prop :=
  ∀ i < s.document.size, (t.node i).container = (s.node i).container

theorem Scope.extend_empty (scope : Scope) : scope.extend ∅ = scope :=
  rfl

section unchanged
variable {s t : RenderState}

theorem adopts_of_document_eq (id : Nat) (h : t.document = s.document) : Adopts id s t ∅ := by
  intro i _
  rw [RenderState.node, h, Scope.extend_empty, ite_self, RenderState.node]

theorem sameContainers_of_document_eq (h : t.document = s.document) : SameContainers s t :=
  fun i _ => by rw [RenderState.node, h, RenderState.node]

end unchanged

namespace Rendering

variable {env : Environment}

/-- A node loads the source that it names, fails, or goes on with an event. -/
theorem loadFor_apply (id : Nat) (root : String) (s : RenderState) :
    loadFor env id root s =
      match env.loader (s.node id).givenName ((s.node id).paths.directories root) with
      | .ok source => (.ok (some source), s)
      | .error e =>
        if env.settings.strict then (.error (.load e), s)
        else (.ok none, s.report id .error e.display) := by
  rw [loadFor, bind_of_ok (node_apply id s)]
  cases env.loader (s.node id).givenName ((s.node id).paths.directories root) with
  | ok source => rfl
  | error e =>
      dsimp only
      split <;> rfl

/-- The step that builds a module, renders it, and takes its variables over. -/
def adopt (env : Environment) (id : Nat) (render : Nat → Rendering String) (source : String)
    (paths : SearchPaths) : Rendering Value := do
  let root ← build env source none ∅ paths
  let _ ← render root
  modify fun s =>
    let target := s.target id
    s.setScope target ((s.node target).scope.extend (s.node root).scope)
  return .null

theorem moduleUse_of_load {id : Nat} {s : RenderState} {source : String}
    (h : env.loader (s.node id).givenName ((s.node id).paths.directories Loader.modules) =
      .ok source) (render : Nat → Rendering String) :
    moduleUse env id (some render) s = adopt env id render source (s.node id).paths s := by
  have hload := @loadFor_apply env id Loader.modules s
  rw [h] at hload
  rw [moduleUse, bind_of_ok hload]
  exact bind_of_ok (node_apply id s)

end Rendering

/-! ### Rendering a module -/

section module
variable {env : Environment} (hlocal : ∀ p ∈ env.toolkit.preparers, p.IsLocal)
  {s u v : RenderState} {id root : Nat}
include hlocal

/-- The variables of a module are taken over where the node assigns. -/
theorem Built.adopts (hb : Built s none root u) (h : Acts env root u v)
    (hid : id < s.document.size) :
    Adopts id s (v.setScope (v.target id) ((v.node (v.target id)).scope.extend (v.node root).scope))
      (v.node root).scope := by
  have hstays : s.document.Stays v.document := hb.stays.trans h.stays
  have htarget : v.target id = s.target id := by
    rw [RenderState.target, RenderState.node, (hstays.node hid).parent, RenderState.target]
    rfl
  intro i hi
  have hv : i < v.document.size := Nat.lt_of_lt_of_le hi hstays.size_le
  rw [htarget, RenderState.setScope, RenderState.node, Document.setScope,
    Document.node_update _ _ _ _ hv]
  by_cases heq : s.target id = i
  · rw [if_pos heq, if_pos heq.symm, heq, hb.scope_eq hlocal h hi]
  · rw [if_neg heq, if_neg (Ne.symm heq)]
    exact hb.scope_eq hlocal h hi

/-- A use changes no container, in whatever scope variables are put afterwards. -/
theorem Built.sameContainers (hb : Built s none root u) (h : Acts env root u v) (target : Nat)
    (scope : Scope) : SameContainers s (v.setScope target scope) := by
  intro i hi
  have hv : i < v.document.size :=
    Nat.lt_of_lt_of_le hi (Nat.le_trans hb.stays.size_le h.stays.size_le)
  rw [RenderState.setScope, RenderState.node, Document.setScope, Document.node_update _ _ _ _ hv,
    ← hb.container_eq hlocal h hi]
  split <;> rfl

end module

namespace Rendering

/-- What two uses of a module from the states `s` and `t` come to: the same result, the same
variables of the template and the same macros, no change of a container, and if they succeed, the
value null and the same bindings. -/
structure UsedAlike (id id' : Nat) (s t : RenderState)
    (p q : Except RenderError Value × RenderState) : Prop where
  result : q.1 = p.1
  globals : q.2.globals = p.2.globals
  macros : q.2.macros = p.2.macros
  containers : SameContainers s p.2
  containers' : SameContainers t q.2
  adopts {v : Value} (h : p.1 = .ok v) :
    v = .null ∧ ∃ bindings, Adopts id s p.2 bindings ∧ Adopts id' t q.2 bindings

section used
variable {s t : RenderState} {id id' : Nat}

theorem UsedAlike.error (hglobals : t.globals = s.globals) (hmacros : t.macros = s.macros)
    (e : RenderError) : UsedAlike id id' s t (.error e, s) (.error e, t) :=
  ⟨rfl, hglobals, hmacros, fun _ _ => rfl, fun _ _ => rfl, fun h => by cases h⟩

theorem UsedAlike.report (hglobals : t.globals = s.globals) (hmacros : t.macros = s.macros)
    (detail : String) : UsedAlike id id' s t (.ok .null, s.report id .error detail)
      (.ok .null, t.report id' .error detail) where
  result := rfl
  globals := by simpa only [RenderState.report_globals] using hglobals
  macros := by simpa only [RenderState.report_macros] using hmacros
  containers := sameContainers_of_document_eq (s.report_document id .error detail)
  containers' := sameContainers_of_document_eq (t.report_document id' .error detail)
  adopts h := by
    cases h
    exact ⟨rfl, ∅, adopts_of_document_eq id (s.report_document id .error detail),
      adopts_of_document_eq id' (t.report_document id' .error detail)⟩

/-- Both uses build a module, render it one level deeper and take its variables over. -/
theorem usedAlike_adopt {env : Environment} (henv : env.toolkit = .builtin)
    (hs : s.document.Sound) (ht : t.document.Sound) (hglobals : t.globals = s.globals)
    (hmacros : t.macros = s.macros) (hid : id < s.document.size) (hid' : id' < t.document.size)
    (source : String) (paths : SearchPaths) (depth : Nat) :
    UsedAlike id id' s t (adopt env id (renderNode env depth) source paths s)
      (adopt env id' (renderNode env depth) source paths t) := by
  have hlocal := isLocal_of_builtin henv
  let c : Coupling := .behind s.document.size t.document.size fun _ => True
  have hclosed : c.Closed env := Coupling.closed_behind _ _ env
  have htwin : s.Twin c t :=
    RenderState.twin_behind hs ht hglobals hmacros fun _ _ _ => trivial
  have hbuild := build_twin henv hclosed htwin none nofun (show c.known source from trivial) ∅ paths
  rw [Option.map_none] at hbuild
  rcases hbuild with
    ⟨root, u, v, hu, hv, hroot, huv, hbuilt, hbuilt'⟩ | ⟨u, v, hu, hv, _, huv, _⟩
  · have hacts := renderNode_acts env depth root u hbuilt.root_lt
    have hacts' := renderNode_acts env depth (c.partner root) v hbuilt'.root_lt
    obtain ⟨hresult, hafter, _, _⟩ := renderNode_twins henv hclosed depth root .root
      (c.whole_of_le hroot) u v huv ((Document.Has.nil _).cons hbuilt.root_lt hbuilt.kind)
    cases hx : renderNode env depth root u with
    | mk r w =>
        cases hy : renderNode env depth (c.partner root) v with
        | mk r' w' =>
            rw [hx] at hacts hresult hafter
            rw [hy] at hacts' hresult hafter
            cases hresult
            rw [adopt, bind_of_ok hu, adopt, bind_of_ok hv]
            cases r with
            | error e =>
                rw [bind_of_error hx, bind_of_error hy]
                exact ⟨rfl, hafter.globals, hafter.macros,
                  fun _ => hbuilt.container_eq hlocal hacts,
                  fun _ => hbuilt'.container_eq hlocal hacts', fun h => by cases h⟩
            | ok text =>
                rw [bind_of_ok hx, bind_of_ok hy]
                refine ⟨rfl, hafter.globals, hafter.macros, hbuilt.sameContainers hlocal hacts _ _,
                  hbuilt'.sameContainers hlocal hacts' _ _, fun hvalue => ?_⟩
                have hscope : (w'.node (c.partner root)).scope = (w.node root).scope :=
                  (hafter.node (c.linked_of_le hroot)).scope
                refine ⟨(Except.ok.inj hvalue).symm, (w.node root).scope,
                  hbuilt.adopts hlocal hacts hid, ?_⟩
                rw [← hscope]
                exact hbuilt'.adopts hlocal hacts' hid'
  · have hgrown {s u : RenderState}
        (h : build env source none ∅ paths s =
          (.error (.parse (env.scanner.read source).errors), u)) : SameContainers s u := by
      obtain ⟨_, _, rfl⟩ := build_error h
      intro i hi
      rw [RenderState.node, RenderState.grow, Document.node_append_left hi]
      rfl
    rw [adopt, bind_of_error hu, adopt, bind_of_error hv]
    exact ⟨rfl, huv.globals, huv.macros, hgrown hu, hgrown hv, fun h => by cases h⟩

/-- Both uses load the same source, or fail to in the same way. -/
theorem usedAlike_moduleUse {env : Environment} (henv : env.toolkit = .builtin)
    (hs : Reachable env s) (ht : Reachable env t) (hglobals : t.globals = s.globals)
    (hmacros : t.macros = s.macros) (hid : id < s.document.size) (hid' : id' < t.document.size)
    (hattributes : (t.node id').attributes = (s.node id).attributes)
    (hpaths : (t.node id').paths = (s.node id).paths) (depth : Nat) :
    UsedAlike id id' s t (moduleUse env id (deeper env depth) s)
      (moduleUse env id' (deeper env depth) t) := by
  have hlocal := isLocal_of_builtin henv
  have hname : (t.node id').givenName = (s.node id).givenName := by
    rw [Node.givenName, hattributes, Node.givenName]
  have hload := @loadFor_apply env id Loader.modules s
  have hload' := @loadFor_apply env id' Loader.modules t
  rw [hname, hpaths] at hload'
  cases hloader : env.loader (s.node id).givenName
      ((s.node id).paths.directories Loader.modules) with
  | error e =>
      rw [hloader] at hload hload'
      dsimp only at hload hload'
      by_cases hstrict : env.settings.strict = true
      · rw [if_pos hstrict] at hload hload'
        rw [moduleUse, bind_of_error hload, moduleUse, bind_of_error hload']
        exact .error hglobals hmacros _
      · rw [if_neg hstrict] at hload hload'
        rw [moduleUse, bind_of_ok hload, moduleUse, bind_of_ok hload']
        exact .report hglobals hmacros _
  | ok source =>
      unfold deeper
      split
      · rw [moduleUse_of_load hloader, moduleUse_of_load (by rw [hname, hpaths]; exact hloader),
          hpaths]
        exact usedAlike_adopt henv (hs.sound hlocal) (ht.sound hlocal) hglobals hmacros hid hid'
          source _ _
      · rw [hloader] at hload hload'
        rw [moduleUse, bind_of_ok hload, moduleUse, bind_of_ok hload']
        exact .report hglobals hmacros _

end used

/-- In two states with the same variables of the template and the same macros, two nodes with the
same attributes and search paths use a module: both fail with the same error, or both have the value
null and put the same bindings over the variables where they assign.  In both the containers stay
what they were. -/
theorem moduleUse_hermetic (env : Environment) (henv : env.toolkit = .builtin) {s t : RenderState}
    (hs : Reachable env s) (ht : Reachable env t) (hglobals : t.globals = s.globals)
    (hmacros : t.macros = s.macros) {id id' : Nat} (hid : id < s.document.size)
    (hid' : id' < t.document.size) (hattributes : (t.node id').attributes = (s.node id).attributes)
    (hpaths : (t.node id').paths = (s.node id).paths) (depth : Nat) :
    ∃ (result : Except RenderError Value) (s' t' : RenderState),
      moduleUse env id (deeper env depth) s = (result, s') ∧
      moduleUse env id' (deeper env depth) t = (result, t') ∧
      t'.globals = s'.globals ∧ t'.macros = s'.macros ∧
      SameContainers s s' ∧ SameContainers t t' ∧
      ((∃ e, result = .error e) ∨
        result = .ok .null ∧ ∃ bindings, Adopts id s s' bindings ∧ Adopts id' t t' bindings) := by
  have hused := usedAlike_moduleUse henv hs ht hglobals hmacros hid hid' hattributes hpaths depth
  cases hp : moduleUse env id (deeper env depth) s with
  | mk r s' =>
      cases hq : moduleUse env id' (deeper env depth) t with
      | mk r' t' =>
          rw [hp, hq] at hused
          obtain ⟨hr, hg, hm, hc, hc', hadopts⟩ := hused
          cases hr
          refine ⟨r, s', t', rfl, rfl, hg, hm, hc, hc', ?_⟩
          cases r with
          | error e => exact .inl ⟨e, rfl⟩
          | ok v =>
              obtain ⟨rfl, hbindings⟩ := hadopts rfl
              exact .inr ⟨rfl, hbindings⟩

/-! ### The same module on two pages -/

/-- The source `{#let tone=calm}@section(main){$tone}@endsection`, under every name. -/
def toneLoader : Loader :=
  fun _ _ => .ok "\x7b#let tone=calm\x7d@section(main)\x7b$tone\x7d@endsection"

/-- The text of a page that uses the module `tone` between two gaps. -/
def tonePage (before after : Gap) : List Char :=
  before.1 ++ (BuiltinTag.moduleUse.text ['t', 'o', 'n', 'e'] ++ after.1)

def toneParts (before after : Gap) : List Part :=
  let start := Text.byteLength before.1
  let stop := start + Text.byteLength (BuiltinTag.moduleUse.text ['t', 'o', 'n', 'e'])
  Script.gapParts 0 before ++
    .leaf BuiltinTag.moduleUse.spec (.ofList ['t', 'o', 'n', 'e'])
      (.ofList (BuiltinTag.moduleUse.text ['t', 'o', 'n', 'e'])) ⟨start, stop⟩ ::
        Script.gapParts stop after

/-- The state in which the root of that page is rendered. -/
def toneState (before after : Gap) : RenderState :=
  pageState ∅ (.ofList (tonePage before after)) (toneParts before after)

theorem reachable_toneState (before after : Gap) :
    Reachable (.usual toneLoader) (toneState before after) := by
  have haccepts : BuiltinTag.moduleUse.Accepts ['t', 'o', 'n', 'e'] := by
    show isArguments _ = true
    decide
  exact reachable_pageState (TagScanner.read_between before after haccepts rfl) ∅

/-- The module is used by the first node of one page, and behind other text on another. -/
theorem moduleUse_hermetic_tonePages :
    let env := Environment.usual toneLoader
    let none : Gap := ⟨[], bland_nil⟩
    let note : Gap := ⟨['N', 'B', ' '], BuiltinTag.bland_of_not_mem (by decide)⟩
    let s := toneState none none
    let t := toneState note note
    Reachable env s ∧ Reachable env t ∧ (s.node 0).kind = .moduleUse ∧
      (t.node 1).kind = .moduleUse ∧ (t.node 1).attributes = (s.node 0).attributes ∧
      ∃ (result : Except RenderError Value) (s' t' : RenderState),
        moduleUse env 0 (deeper env 0) s = (result, s') ∧
        moduleUse env 1 (deeper env 0) t = (result, t') ∧
        t'.globals = s'.globals ∧ t'.macros = s'.macros ∧
        SameContainers s s' ∧ SameContainers t t' ∧
        ((∃ e, result = .error e) ∨
          result = .ok .null ∧ ∃ bindings, Adopts 0 s s' bindings ∧ Adopts 1 t t' bindings) := by
  intro env none note s t
  have hs : Reachable env s := reachable_toneState none none
  have ht : Reachable env t := reachable_toneState note note
  have hid : 0 < s.document.size := by decide +kernel
  have hid' : 1 < t.document.size := by decide +kernel
  let attributes := (Attributes.ofBody BuiltinTag.moduleUse.spec.attributes
    (.ofList ['t', 'o', 'n', 'e'])).toOption.getD {}
  have hown : (s.node 0).attributes = attributes ∧ (s.node 0).paths = ∅ := ⟨rfl, rfl⟩
  have hown' : (t.node 1).attributes = attributes ∧ (t.node 1).paths = ∅ := ⟨rfl, rfl⟩
  have hattributes : (t.node 1).attributes = (s.node 0).attributes := hown'.1.trans hown.1.symm
  have hpaths : (t.node 1).paths = (s.node 0).paths := hown'.2.trans hown.2.symm
  exact ⟨hs, ht, by decide +kernel, by decide +kernel, hattributes,
    moduleUse_hermetic env rfl hs ht rfl rfl hid hid' hattributes
    hpaths 0⟩

end Rendering

end TagTemplate
