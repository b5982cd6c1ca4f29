import TagTemplate.Proofs.Render.Depth
import TagTemplate.Proofs.Render.Pages
import TagTemplate.Proofs.Render.Weaving
import TagTemplate.Proofs.Scanning.RoundTrip

/-! # Fragments in fragments

A node that brings in a source renders it as a fragment, one level deeper.  At the deepest level it
builds nothing and reports an error instead, so a source that brings in itself is rendered as often
as the settings allow.

* `BringsIn`: the source that a node brings in.
* `Rendering.renderNode_tooDeep`: at the deepest level a node that brings in a source shows nothing.
* `Rendering.renderNode_tower`: a source that is a text and then itself again, on any level.
* `nesting_discipline`: the counter of fragments is right, and its bound is met exactly. -/

namespace TagTemplate

/-! ### Preparation -/

/-- What preparation makes of a fresh node, but for its variables. -/
theorem Node.exists_prepared {n : Node} (hclosed : n.closed = false) (hpaths : n.paths = ∅)
    (around : Surroundings) (parent : Option Nat) : ∃ scope,
      n.prepared Preparer.builtins around parent =
        { n with
          scope, paths := around.paths, parent := n.parent <|> parent
          subscribed := around.bubble, closed := true } := by
  have hfirst : ∃ scope, (if Preparer.scopes.supports n = true then
      Preparer.scopes.prepare around parent n else n) = { n with scope } := by
    split
    · exact ⟨_, rfl⟩
    · exact ⟨n.scope, rfl⟩
  obtain ⟨scope, hscope⟩ := hfirst
  have hopen : ¬ n.closed = true := by
    rw [hclosed]
    exact Bool.false_ne_true
  refine ⟨scope, ?_⟩
  rw [prepared, if_neg hopen, preparedBy, Preparer.builtins, List.foldl_cons, hscope]
  cases n
  subst hpaths
  rfl

/-! ### Fragments -/

namespace RenderState

/-- The state in which a source, read as a list of parts, has become a fragment. -/
def withFragment (s : RenderState) (env : Environment) (around : Surroundings) (source : String)
    (parts : List Part) : RenderState :=
  s.grow (Part.fragment (Node.prepared env.toolkit.preparers around) s.document.size around.parent
    parts ⟨0, source.utf8ByteSize⟩)

theorem exists_node_withFragment (s : RenderState) {env : Environment}
    (hpreparers : env.toolkit.preparers = Preparer.builtins) (around : Surroundings)
    (source : String) (parts : List Part) (i : Nat) (n : Node) (parent : Option Nat)
    (hn : (Part.fragment (Node.prepared Preparer.builtins around) s.document.size around.parent
      parts ⟨0, source.utf8ByteSize⟩)[i]? = some (n.prepared Preparer.builtins around parent))
    (hclosed : n.closed = false) (hpaths : n.paths = ∅) : ∃ scope,
      (s.withFragment env around source parts).node (s.document.size + i) =
        { n with
          scope, paths := around.paths, parent := n.parent <|> parent
          subscribed := around.bubble, closed := true } := by
  obtain ⟨scope, hscope⟩ := Node.exists_prepared hclosed hpaths around parent
  refine ⟨scope, .trans ?_ hscope⟩
  rw [withFragment, hpreparers]
  exact Document.node_append_right hn

end RenderState

theorem Rendering.build_of_read {env : Environment} {source : String} {parts : List Part}
    (hread : env.scanner.read source = { parts }) (parent : Option Nat) (inherited : Scope)
    (paths : SearchPaths) (s : RenderState) :
    build env source parent inherited paths s = (.ok (s.document.size + Part.countAll parts),
      s.withFragment env ⟨parent, inherited, paths, env.settings.bubble⟩ source parts) := by
  rw [build_eq, hread]
  rfl

/-! ### Nodes that bring in a source -/

/-- The node brings in a source: one that the loader finds, or the body of a macro. -/
inductive BringsIn (env : Environment) (macros : NameMap MacroDefinition) (n : Node) : String → Prop
  | inclusion {source : String} (hk : n.kind = .inclusion)
      (h : env.loader n.givenName (n.paths.directories Loader.templates) = .ok source) :
      BringsIn env macros n source
  | moduleUse {source : String} (hk : n.kind = .moduleUse)
      (h : env.loader n.givenName (n.paths.directories Loader.modules) = .ok source) :
      BringsIn env macros n source
  | invocation {m : MacroDefinition} (hk : n.kind = .invocation)
      (h : macros.get? n.givenName = some m) : BringsIn env macros n m.body

/-- A node of the same kind that names the same thing brings in the same source. -/
theorem BringsIn.congr {env : Environment} {macros : NameMap MacroDefinition} {n m : Node}
    {source : String} (h : BringsIn env macros n source) (hk : m.kind = n.kind)
    (hname : m.givenName = n.givenName) (hpaths : m.paths = n.paths) :
    BringsIn env macros m source := by
  cases h with
  | inclusion hkind h =>
      rw [← hname, ← hpaths] at h
      exact .inclusion (hk.trans hkind) h
  | moduleUse hkind h =>
      rw [← hname, ← hpaths] at h
      exact .moduleUse (hk.trans hkind) h
  | invocation hkind h =>
      rw [← hname] at h
      exact .invocation (hk.trans hkind) h

namespace Rendering

section brings
variable {env : Environment} {depth id : Nat} {s u : RenderState} {source : String}

theorem loadFor_of_ok {root : String}
    (h : env.loader (s.node id).givenName ((s.node id).paths.directories root) = .ok source) :
    loadFor env id root s = (.ok (some source), s) := by
  rw [loadFor, bind_of_ok (node_apply id s), h]
  rfl

/-- At the deepest level a node that brings in a source builds nothing and shows nothing; between
its events it reports one error. -/
theorem renderNode_tooDeep (h : BringsIn env s.macros (s.node id) source)
    (hdepth : env.settings.maxDepth ≤ depth) : renderNode env depth id s =
      (.ok "", s.through id fun t => t.report id .error "maximum nesting depth exceeded") := by
  let start := s.report id .started ""
  have hnode : start.node id = s.node id := s.node_report id .started "" id
  have hnested : deeper env depth = none := if_neg (Nat.not_lt_of_le hdepth)
  have htoo (t : RenderState) : tooDeep id t =
      (.ok .null, t.report id .error "maximum nesting depth exceeded") := rfl
  cases h with
  | inclusion hk h =>
      have hload : loadFor env id Loader.templates start = (.ok (some source), start) :=
        loadFor_of_ok (by rwa [hnode])
      refine renderNode_of_rule (by rw [hk]; rfl) ?_
      rw [hk, hnested]
      refine rule_of_action (v := .null) ((bind_of_ok hload).trans ?_)
      exact (bind_of_ok (get_apply start)).trans (htoo start)
  | moduleUse hk h =>
      have hload : loadFor env id Loader.modules start = (.ok (some source), start) :=
        loadFor_of_ok (by rwa [hnode])
      refine renderNode_of_rule (by rw [hk]; rfl) ?_
      rw [hk, hnested]
      exact rule_of_action (v := .null) ((bind_of_ok hload).trans (htoo start))
  | invocation hk h =>
      refine renderNode_of_rule (by rw [hk]; rfl) ?_
      rw [hk, hnested]
      refine rule_of_action (v := .null) ?_
      show invocation env id none start = _
      rw [invocation, bind_of_ok (get_apply start), hnode, s.report_macros, h]
      exact htoo start

/-- The text of a node that renders a source as a fragment is the text of the fragment. -/
theorem renderNode_of_renderSource {r : ActionRule} {bindings : Scope} {parts : List Part}
    {x : String} (hlife : hasLifecycle (s.node id).kind = true)
    (hr : (s.node id).kind.dispatch = .execute r)
    (haction : actionRule env id (deeper env depth) r (s.report id .started "") =
      renderSource env id (deeper env depth) source bindings (s.node id).paths
        (s.report id .started ""))
    (hdepth : depth < env.settings.maxDepth) (hread : env.scanner.read source = { parts })
    (hfragment : renderNode env (depth + 1)
      ((s.report id .started "").document.size + Part.countAll parts)
      ((s.report id .started "").withFragment env
        ⟨some id, bindings, (s.node id).paths, env.settings.bubble⟩ source parts) = (.ok x, u)) :
    renderNode env depth id s = (.ok x, u.report id .complete "") := by
  have hbuild := build_of_read hread (some id) bindings (s.node id).paths (s.report id .started "")
  have hnested : deeper env depth = some (renderNode env (depth + 1)) := if_pos hdepth
  have hsource : renderSource env id (deeper env depth) source bindings (s.node id).paths
      (s.report id .started "") = (.ok (.text x), u) := by
    rw [hnested]
    exact (bind_of_ok hbuild).trans (bind_of_ok hfragment)
  refine renderNode_of_rule (f := fun _ => u) hlife ?_
  rw [hr]
  exact rule_of_action (haction.trans hsource)

/-- An inclusion and an invocation have the text of the fragment that they bring in. -/
theorem renderNode_of_bringsIn (h : BringsIn env s.macros (s.node id) source)
    (hk : (s.node id).kind ≠ .moduleUse) (hdepth : depth < env.settings.maxDepth)
    {parts : List Part} (hread : env.scanner.read source = { parts }) :
    ∃ bindings, ∀ x u, renderNode env (depth + 1)
        ((s.report id .started "").document.size + Part.countAll parts)
        ((s.report id .started "").withFragment env
          ⟨some id, bindings, (s.node id).paths, env.settings.bubble⟩ source parts) = (.ok x, u) →
      renderNode env depth id s = (.ok x, u.report id .complete "") := by
  let start := s.report id .started ""
  have hnode : start.node id = s.node id := s.node_report id .started "" id
  cases h with
  | inclusion hkind h =>
      refine ⟨start.arguments id, fun x u hfragment => renderNode_of_renderSource
        (by rw [hkind]; rfl) (by rw [hkind]; rfl) ?_ hdepth hread hfragment⟩
      show inclusion env id (deeper env depth) start = _
      rw [inclusion, bind_of_ok (loadFor_of_ok (hnode.symm ▸ h)), ← hnode]
      rfl
  | moduleUse hkind _ => exact absurd hkind hk
  | @invocation m hkind h =>
      refine ⟨m.parameters.extend (start.arguments id), fun x u hfragment =>
        renderNode_of_renderSource (by rw [hkind]; rfl) (by rw [hkind]; rfl) ?_ hdepth hread
          hfragment⟩
      show invocation env id (deeper env depth) start = _
      rw [invocation, bind_of_ok (get_apply start), hnode, s.report_macros, h]

end brings

end Rendering

/-! ### Sources that bring in themselves -/

/-- The part is a tag of the kind, with nothing in it, that names something. -/
def Part.Names (k : NodeKind) (name : String) (p : Part) : Prop :=
  ∃ tag body matched span, p = .leaf tag body matched span ∧ (p.own 0).kind = k ∧
    (p.own 0).givenName = name

/-- The part is a block that defines a macro by the text inside. -/
def Part.Defines (name body : String) (p : Part) : Prop :=
  ∃ tag heading span, p = .raw tag heading body span ∧ (p.own 0).kind = .definition ∧
    (p.own 0).attributes.name = some name

/-- The source is a literal text, and then a tag of the kind that names something. -/
def TagScanner.Climbs (t : TagScanner) (k : NodeKind) (name text source : String) : Prop :=
  ∃ span p, t.read source = { parts := [.literal text span, p] } ∧ p.Names k name

/-- The second state has more nodes at the end, and the same macros. -/
structure RenderState.Grows (s t : RenderState) : Prop where
  document : ∃ ns, t.document = s.document.append ns
  macros : t.macros = s.macros

namespace RenderState.Grows

variable {s t u : RenderState}

theorem grow (s : RenderState) (ns : List Node) : s.Grows (s.grow ns) :=
  ⟨⟨ns, rfl⟩, rfl⟩

theorem report (s : RenderState) (id : Nat) (kind : EventKind) (detail : String) :
    s.Grows (s.report id kind detail) := by
  refine ⟨⟨[], ?_⟩, s.report_macros id kind detail⟩
  rw [s.report_document, Document.append_nil]

theorem trans (h : s.Grows t) (h' : t.Grows u) : s.Grows u := by
  obtain ⟨ns, hns⟩ := h.document
  obtain ⟨ms, hms⟩ := h'.document
  exact ⟨⟨ns ++ ms, by rw [hms, hns, Document.append_append]⟩, h'.macros.trans h.macros⟩

end RenderState.Grows

namespace Rendering

theorem renderNode_of_pair {env : Environment} {depth id a b : Nat} {s t u : RenderState}
    {x y : String} (hk : (s.node id).kind = .root) (hc : (s.node id).children = [a, b])
    (ha : a < id) (hb : b < id) (hx : renderNode env depth a s = (.ok x, t))
    (hy : renderNode env depth b t = (.ok y, u)) :
    renderNode env depth id s = (.ok (x ++ y), u) := by
  rw [renderNode_of_root hk hc (by simp [ha, hb]),
    sequence_cons hx (sequence_cons hy (sequence_nil _ u)), String.append_empty]

/-- Above a node that brings in a source of a text and then itself, the text stands once for each
level that is left. -/
theorem renderNode_tower {env : Environment}
    (hpreparers : env.toolkit.preparers = Preparer.builtins) {k : NodeKind}
    (hk : k ≠ .moduleUse) {name x source : String}
    (hclimbs : env.scanner.Climbs k name x source) :
    ∀ (height depth id : Nat) (s : RenderState), depth + height = env.settings.maxDepth →
      BringsIn env s.macros (s.node id) source → (s.node id).kind = k →
      (s.node id).givenName = name →
      ∃ t, renderNode env depth id s = (.ok (String.join (List.replicate height x)), t) ∧
        s.Grows t
  | 0, depth, id, s, hheight, h, _, _ => by
      refine ⟨_, renderNode_tooDeep h (by omega), ?_⟩
      exact ((RenderState.Grows.report s id _ _).trans (.report _ id _ _)).trans (.report _ id _ _)
  | height + 1, depth, id, s, hheight, h, hkind, hname => by
      obtain ⟨span, p, hread, hp⟩ := hclimbs
      obtain ⟨tag, body, matched, inside, rfl, hpkind, hpname⟩ := hp
      have hdepth : depth < env.settings.maxDepth := by omega
      obtain ⟨bindings, hrender⟩ := renderNode_of_bringsIn h (hkind ▸ hk) hdepth hread
      let start := s.report id .started ""
      let base := start.document.size
      let around : Surroundings := ⟨some id, bindings, (s.node id).paths, env.settings.bubble⟩
      let parts : List Part := [.literal x span, .leaf tag body matched inside]
      let grown := start.withFragment env around source parts
      have hgrows : s.Grows grown := (RenderState.Grows.report s id _ _).trans (.grow start _)
      have hnodes := start.exists_node_withFragment hpreparers around source parts
      obtain ⟨_, hliteral⟩ := hnodes 0 (.literal x span) (some (base + 2)) rfl rfl rfl
      obtain ⟨_, hinner⟩ := hnodes 1 (.ofTag tag body (.text matched) none inside) (some (base + 2))
        rfl rfl rfl
      obtain ⟨_, hroot⟩ := hnodes 2 (.root [base, base + 1] ⟨0, source.utf8ByteSize⟩) (some id)
        rfl rfl rfl
      have hliteral : grown.node base = _ := hliteral
      have hbrings : BringsIn env grown.macros (grown.node (base + 1)) source := by
        rw [hgrows.macros]
        refine h.congr ?_ ?_ ?_
        · rw [hinner, hkind]
          exact hpkind
        · rw [hinner, hname]
          exact hpname
        · rw [hinner]
      obtain ⟨t, hrest, hgrown⟩ := renderNode_tower hpreparers hk ⟨span, _, hread, _, _, _, _, rfl,
        hpkind, hpname⟩ height (depth + 1) (base + 1) grown (by omega) hbrings
        (by rw [hinner]; exact hpkind) (by rw [hinner]; exact hpname)
      have htext : renderNode env (depth + 1) base grown = (.ok x, grown) :=
        renderNode_of_literal (by rw [hliteral]; rfl) (by rw [hliteral]; rfl)
      have hpair := renderNode_of_pair (by rw [hroot]; rfl) (by rw [hroot]; rfl)
        (Nat.lt_add_of_pos_right Nat.two_pos) (Nat.lt_succ_self (base + 1)) htext hrest
      rw [← String.join_cons, ← List.replicate_succ] at hpair
      exact ⟨_, hrender _ t hpair, (hgrows.trans hgrown).trans (.report t id _ _)⟩

/-! ### Pages that bring in such a source -/

/-- The state in which the root of a page is rendered, when the page has been read as a list of
parts. -/
def pageStart (env : Environment) (globals : Scope) (source : String) (parts : List Part) :
    RenderState :=
  let s := ({ globals } : RenderState).withFragment env
    ⟨none, ∅, env.settings.paths, env.settings.bubble⟩ source parts
  { s with document := s.document.setContainer (Part.countAll parts) {} }

section page
variable (env : Environment) (globals : Scope) (source : String) (parts : List Part)

theorem size_pageStart :
    (pageStart env globals source parts).document.size = Part.countAll parts + 1 := by
  have hempty : ({ globals } : RenderState).document.size = 0 := rfl
  rw [pageStart, Document.setContainer, Document.size_update, RenderState.withFragment,
    RenderState.grow, Document.size_append, Part.length_fragment, hempty, Nat.zero_add]

theorem container_pageStart :
    ((pageStart env globals source parts).node (Part.countAll parts)).container = some {} := by
  have hlt := Nat.lt_of_lt_of_eq (Part.countAll parts).lt_succ_self
    (size_pageStart env globals source parts).symm
  rw [pageStart, Document.setContainer, Document.size_update] at hlt
  rw [pageStart, RenderState.node, Document.setContainer, Document.node_update _ _ _ _ hlt,
    if_pos rfl]

/-- Below the root there is what preparation has made of the parts. -/
theorem exists_node_pageStart (hpreparers : env.toolkit.preparers = Preparer.builtins) (i : Nat)
    (n : Node) (parent : Option Nat)
    (hn : (Part.fragment (Node.prepared Preparer.builtins
      ⟨none, ∅, env.settings.paths, env.settings.bubble⟩) 0 none parts
      ⟨0, source.utf8ByteSize⟩)[i]? = some (n.prepared Preparer.builtins
        ⟨none, ∅, env.settings.paths, env.settings.bubble⟩ parent))
    (hclosed : n.closed = false) (hpaths : n.paths = ∅) (hi : Part.countAll parts ≠ i) :
    ∃ scope, (pageStart env globals source parts).node i =
      { n with
        scope, paths := env.settings.paths, parent := n.parent <|> parent
        subscribed := env.settings.bubble, closed := true } := by
  obtain ⟨scope, hscope⟩ := RenderState.exists_node_withFragment { globals } hpreparers
    ⟨none, ∅, env.settings.paths, env.settings.bubble⟩ source parts i n parent hn hclosed hpaths
  refine ⟨scope, .trans ?_ hscope⟩
  rw [pageStart, RenderState.node, Document.setContainer, Document.node_update_of_ne _ _ hi]
  exact congrArg _ (Nat.zero_add i).symm

end page

/-- A page that only adds to its document has the text of its root. -/
theorem page_of_grown {env : Environment} {globals : Scope} {source text : String}
    {parts : List Part} {t : RenderState} (hread : env.scanner.read source = { parts })
    (hrender : renderNode env 0 (Part.countAll parts) (pageStart env globals source parts) =
      (.ok text, t))
    (hgrown : ∃ ns, t.document = (pageStart env globals source parts).document.append ns) :
    (page env source { globals }).1.map (·.1) = .ok text := by
  have hbuild := build_of_read hread none ∅ env.settings.paths { globals }
  have hsize : ({ globals } : RenderState).document.size + Part.countAll parts =
      Part.countAll parts := Nat.zero_add _
  rw [hsize] at hbuild
  have hcontainer : (t.node (Part.countAll parts)).container = some {} := by
    obtain ⟨ns, hns⟩ := hgrown
    rw [RenderState.node, hns, Document.node_append_left]
    · exact container_pageStart env globals source parts
    · rw [size_pageStart]
      exact Nat.lt_succ_self _
  have hpage : renderContainer env source ∅ { globals } = (.ok (text, {}), t) := by
    rw [renderContainer]
    refine (bind_of_ok hbuild).trans ((bind_of_ok (modify_apply _ _)).trans ?_)
    refine (bind_of_ok hrender).trans ((bind_of_ok (node_apply _ t)).trans ?_)
    rw [hcontainer]
    rfl
  have hwrap : wrap env [] text {} env.settings.maxDepth t = (.ok (text, {}), t) :=
    wrap_of_no_layout env [] rfl env.settings.maxDepth
  rw [page, bind_of_ok hpage]
  exact congrArg (fun r => Except.map (·.1) r.1) hwrap

section towers
variable {settings : Settings} {loader : Loader} {scanner : TagScanner}
  {name x outer source : String} {p : Part}

/-- A page that only includes a source, which is a text and then includes itself. -/
theorem result_render_inclusion_tower (globals : Scope) (slots : NameMap String)
    (hscanner : TagScanner.ofTags .builtin settings.delimiters = .ok scanner)
    (hpage : scanner.read outer = { parts := [p] }) (hp : p.Names .inclusion name)
    (hload : loader name (settings.paths.directories Loader.templates) = .ok source)
    (hclimbs : scanner.Climbs .inclusion name x source) :
    (Template.render { settings, loader, globals, slots } outer).result =
      .ok (String.join (List.replicate settings.maxDepth x)) := by
  let env : Environment := ⟨.builtin, scanner, settings, loader⟩
  let start := pageStart env globals outer [p]
  obtain ⟨tag, body, matched, span, rfl, hkind, hname⟩ := hp
  have hpreparers : env.toolkit.preparers = Preparer.builtins := rfl
  let inner := Node.ofTag tag body (.text matched) none span
  let around : Surroundings := ⟨none, ∅, settings.paths, settings.bubble⟩
  obtain ⟨_, hnode⟩ := exists_node_pageStart env globals outer [.leaf tag body matched span]
    hpreparers 0 inner (some 1) rfl rfl rfl Nat.one_ne_zero
  obtain ⟨_, hroot⟩ := Node.exists_prepared (n := .root [0] ⟨0, outer.utf8ByteSize⟩) rfl rfl
    around none
  have htop : start.node 1 = { (Node.root [0] ⟨0, outer.utf8ByteSize⟩).prepared Preparer.builtins
      around none with container := some {} } := rfl
  have hbrings : BringsIn env start.macros (start.node 0) source := by
    rw [hnode]
    refine .inclusion hkind ?_
    show loader inner.givenName (settings.paths.directories Loader.templates) = .ok source
    rw [show inner.givenName = name from hname, hload]
  obtain ⟨t, hrender, hgrows⟩ := renderNode_tower hpreparers (by decide) hclimbs
    settings.maxDepth 0 0 start (Nat.zero_add _) hbrings (by rw [hnode]; exact hkind)
    (by rw [hnode]; exact hname)
  have hpair : renderNode env 0 1 start =
      (.ok (String.join (List.replicate settings.maxDepth x)), t) := by
    rw [renderNode_of_root (by rw [htop, hroot]; rfl) (by rw [htop, hroot]; rfl)
      (List.forall_mem_singleton.mpr Nat.zero_lt_one), sequence_cons hrender (sequence_nil _ t),
      String.append_empty]
  exact (result_render_eq hscanner).trans (page_of_grown hpage hpair hgrows.document)

/-- A page that only defines a macro, which is a text and then invokes itself, and invokes it. -/
theorem result_render_invocation_tower {d : Part} (globals : Scope) (slots : NameMap String)
    (hscanner : TagScanner.ofTags .builtin settings.delimiters = .ok scanner)
    (hpage : scanner.read outer = { parts := [d, p] }) (hd : d.Defines name source)
    (hp : p.Names .invocation name) (hclimbs : scanner.Climbs .invocation name x source) :
    (Template.render { settings, loader, globals, slots } outer).result =
      .ok (String.join (List.replicate settings.maxDepth x)) := by
  let env : Environment := ⟨.builtin, scanner, settings, loader⟩
  let start := pageStart env globals outer [d, p]
  obtain ⟨opener, heading, extent, rfl, hdkind, hdname⟩ := hd
  obtain ⟨tag, body, matched, span, rfl, hkind, hname⟩ := hp
  let definition := Node.ofTag opener heading (.text source) (some source) extent
  let inner := Node.ofTag tag body (.text matched) none span
  let around : Surroundings := ⟨none, ∅, settings.paths, settings.bubble⟩
  have hpreparers : env.toolkit.preparers = Preparer.builtins := rfl
  have hnodes := exists_node_pageStart env globals outer
    [.raw opener heading source extent, .leaf tag body matched span] hpreparers
  obtain ⟨_, hfirst⟩ := hnodes 0 definition (some 2) rfl rfl rfl (Nat.succ_ne_zero 1)
  obtain ⟨_, hsecond⟩ := hnodes 1 inner (some 2) rfl rfl rfl (Nat.succ_succ_ne_one 0)
  obtain ⟨_, hroot⟩ := Node.exists_prepared (n := .root [0, 1] ⟨0, outer.utf8ByteSize⟩) rfl rfl
    around none
  have htop : start.node 2 = { (Node.root [0, 1] ⟨0, outer.utf8ByteSize⟩).prepared
      Preparer.builtins around none with container := some {} } := rfl
  let defined := start.through 0 fun t => t.define name (start.node 0).toMacro
  have hdefine : renderNode env 0 0 start = (.ok "", defined) :=
    renderNode_of_definition (by rw [hfirst]; exact hdkind) (by rw [hfirst]; exact hdname)
  have hdocument : defined.document = start.document :=
    start.document_through_define 0 name (start.node 0).toMacro
  have hnode (i : Nat) : defined.node i = start.node i := by
    rw [RenderState.node, hdocument, RenderState.node]
  have hmacro : (start.node 0).toMacro.body = source := by
    rw [hfirst]
    rfl
  have hbrings : BringsIn env defined.macros (defined.node 1) source := by
    rw [← hmacro]
    refine .invocation (by rw [hnode, hsecond]; exact hkind) ?_
    have hgiven : (defined.node 1).givenName = name := by
      rw [hnode, hsecond]
      exact hname
    rw [hgiven]
    exact start.get?_macros_through_define 0 name (start.node 0).toMacro
  obtain ⟨t, hrender, hgrows⟩ := renderNode_tower hpreparers (by decide) hclimbs
    settings.maxDepth 0 1 defined (Nat.zero_add _) hbrings (by rw [hnode, hsecond]; exact hkind)
    (by rw [hnode, hsecond]; exact hname)
  have hpair := renderNode_of_pair (by rw [htop, hroot]; rfl) (by rw [htop, hroot]; rfl)
    Nat.zero_lt_two Nat.one_lt_two hdefine hrender
  rw [String.empty_append] at hpair
  refine (result_render_eq hscanner).trans (page_of_grown hpage hpair ?_)
  rw [← hdocument]
  exact hgrows.document

end towers

end Rendering

/-! ### The discipline of nesting -/

/-- The counter of fragments.  A page rendered with the counter is the page, the counter is zero
again at its end, and whenever a node was rendered on the way the counter was the number of
fragments being rendered, not more than allowed, and the same again afterwards.  Where the counter
has come to its bound, a node that brings in a source has no text, and does nothing but report one
error between its events.  So a source or a macro that is a text and then itself shows the text as
often as fragments may be nested. -/
theorem nesting_discipline :
    (∀ (env : Environment) (room : Nat) (source : String) (s : RenderState),
      env.settings.maxDepth ≤ room →
        ∃ calls : List Call, (∀ k ∈ calls, k.IsRight env.settings.maxDepth) ∧
          Counting.page env room source { state := s } =
            ((Rendering.page env source s).1,
              { state := (Rendering.page env source s).2, depth := 0, fragments := [], calls })) ∧
    (∀ (env : Environment) (room id : Nat) (c : CountedState) (source : String),
      c.depth = env.settings.maxDepth → c.fragments.length = env.settings.maxDepth →
      BringsIn env c.state.macros (c.state.node id) source →
        (Counting.node env room id c).1 = .ok "" ∧
        (Counting.node env room id c).2.state = (c.state.through id fun t =>
          t.report id .error "maximum nesting depth exceeded") ∧
        (Counting.node env room id c).2.state.document = c.state.document) ∧
    ∀ (settings : Settings) (loader : Loader) (globals : Scope) (slots : NameMap String)
      (scanner : TagScanner), TagScanner.ofTags .builtin settings.delimiters = .ok scanner →
      ∀ (name x outer source : String),
        (∀ p : Part, scanner.read outer = { parts := [p] } → p.Names .inclusion name →
          loader name (settings.paths.directories Loader.templates) = .ok source →
          scanner.Climbs .inclusion name x source →
            (Template.render { settings, loader, globals, slots } outer).result =
              .ok (String.join (List.replicate settings.maxDepth x))) ∧
        ∀ d p : Part, scanner.read outer = { parts := [d, p] } → d.Defines name source →
          p.Names .invocation name → scanner.Climbs .invocation name x source →
            (Template.render { settings, loader, globals, slots } outer).result =
              .ok (String.join (List.replicate settings.maxDepth x)) := by
  refine ⟨fun env room source s hroom => ?_, fun env room id c source hdepth hfragments h => ?_,
    fun settings loader globals slots scanner hscanner name x outer source => ⟨?_, ?_⟩⟩
  · exact Counting.counts_page hroom source { state := s } rfl rfl
  · obtain ⟨calls, _, hrun⟩ := Counting.counts_node env env.settings.maxDepth id room
      (Nat.le_refl _) (Nat.le_add_left _ room) c hdepth hfragments
    have hnode := Rendering.renderNode_tooDeep h (Nat.le_refl env.settings.maxDepth)
    rw [hrun, hnode]
    refine ⟨rfl, rfl, ?_⟩
    rw [RenderState.through, RenderState.report_document]
    exact (RenderState.report_document _ id _ _).trans (RenderState.report_document _ id _ _)
  · exact fun p hpage hp hload hclimbs =>
      Rendering.result_render_inclusion_tower globals slots hscanner hpage hp hload hclimbs
  · exact fun d p hpage hd hp hclimbs =>
      Rendering.result_render_invocation_tower globals slots hscanner hpage hd hp hclimbs

/-! ### A source and a macro that bring in themselves -/

/-- A tag that brings in what is called `loop`. -/
def loopTag (tag : TagArguments → Leaf) : Leaf :=
  tag ⟨.plain ⟨['l', 'o', 'o', 'p'], rfl⟩, []⟩

/-- The page `@include(loop)` or `@invoke(loop)`. -/
def loopPage (tag : TagArguments → Leaf) : Script :=
  .leaf ⟨[], bland_nil⟩ (loopTag tag) (.last ⟨[], bland_nil⟩)

/-- The source `x@include(loop)` or `x@invoke(loop)`. -/
def loopSource (tag : TagArguments → Leaf) : Script :=
  .leaf ⟨['x'], List.forall_mem_singleton.mpr (by decide)⟩ (loopTag tag) (.last ⟨[], bland_nil⟩)

/-- The page `@macro(loop)x@invoke(loop)@endmacro@invoke(loop)`. -/
def macroLoopPage : Script :=
  .raw ⟨[], bland_nil⟩
    { heading := .definition ⟨.plain ⟨['l', 'o', 'o', 'p'], rfl⟩, []⟩
      inside := (loopSource .invocation).print
      opens_not := by decide +kernel
      closes_not := by decide +kernel }
    (loopPage .invocation)

def loopLoader : Loader :=
  .ofSources (.ofList [("loop", .ofList (loopSource .inclusion).print)])

/-- All of it for these texts. -/
theorem nesting_discipline_loop :
    let env : Environment := .usual loopLoader
    let deepest : Environment := { env with settings := { maxDepth := 0 } }
    let page := String.ofList (loopPage .inclusion).print
    let start : CountedState :=
      { state := Rendering.pageStart deepest ∅ page ((loopPage .inclusion).parts 0) }
    (∃ calls : List Call, (∀ k ∈ calls, k.IsRight 32) ∧
      Counting.page env 32 page { state := {} } = ((Rendering.page env page {}).1,
        { state := (Rendering.page env page {}).2, depth := 0, fragments := [], calls })) ∧
    BringsIn deepest start.state.macros (start.state.node 0)
      (.ofList (loopSource .inclusion).print) ∧
    (Counting.node deepest 0 0 start).1 = .ok "" ∧
    (Template.render { settings := { maxDepth := 3 }, loader := loopLoader } page).result =
      .ok "xxx" ∧
    (Template.render { settings := { maxDepth := 3 }, loader := loopLoader }
      (.ofList macroLoopPage.print)).result = .ok "xxx" := by
  intro env deepest page start
  have hname (tag : TagArguments → Leaf) (htag : tag = .inclusion ∨ tag = .invocation)
      (k : NodeKind) (hk : (loopTag tag).tag.spec.kind = k) (matched : String) (span : Span) :
      (Part.leaf (loopTag tag).tag.spec (.ofList (loopTag tag).body) matched span).Names k
        "loop" := by
    refine ⟨_, _, _, _, rfl, hk, ?_⟩
    show (((Attributes.ofBody (loopTag tag).tag.spec.attributes
      (.ofList (loopTag tag).body)).toOption.getD {}).name).getD "" = "loop"
    rcases htag with rfl | rfl <;> decide +kernel
  have hload : ∀ dirs, loopLoader "loop" dirs = .ok (.ofList (loopSource .inclusion).print) :=
    fun _ => rfl
  have hbrings : BringsIn deepest start.state.macros (start.state.node 0)
      (.ofList (loopSource .inclusion).print) := by
    have hgiven : (start.state.node 0).givenName = "loop" := by
      show (((Attributes.ofBody (loopTag .inclusion).tag.spec.attributes
        (.ofList (loopTag .inclusion).body)).toOption.getD {}).name).getD "" = "loop"
      decide +kernel
    let dirs := (start.state.node 0).paths.directories Loader.templates
    refine .inclusion rfl (.trans ?_ (hload dirs))
    rw [← hgiven]
    rfl
  refine ⟨nesting_discipline.1 env 32 page {} (Nat.le_refl 32), hbrings,
    (nesting_discipline.2.1 deepest 0 0 start _ rfl rfl hbrings).1, ?_, ?_⟩
  · exact (nesting_discipline.2.2 { maxDepth := 3 } loopLoader ∅ ∅ .builtin
      TagScanner.ofTags_builtin "loop" "x" page _).1 _ (TagScanner.read_print _)
      (hname _ (.inl rfl) _ rfl _ _) (hload _)
      ⟨_, _, TagScanner.read_print (loopSource .inclusion), hname _ (.inl rfl) _ rfl _ _⟩
  · exact (nesting_discipline.2.2 { maxDepth := 3 } loopLoader ∅ ∅ .builtin
      TagScanner.ofTags_builtin "loop" "x" _ _).2 _ _ (TagScanner.read_print macroLoopPage)
      ⟨_, _, _, rfl, rfl, by decide +kernel⟩ (hname _ (.inr rfl) _ rfl _ _)
      ⟨_, _, TagScanner.read_print (loopSource .invocation), hname _ (.inr rfl) _ rfl _ _⟩

end TagTemplate
