import TagTemplate.Proofs.Render.Leaves
import TagTemplate.Proofs.Render.Pages
import TagTemplate.Proofs.Render.TwinPages
import TagTemplate.Proofs.Render.Weaving
import TagTemplate.Proofs.Scanning.Errors

/-! # Where the errors of a rendering come from

A rendering reads more than its page: what the loader gives, and the bodies of the macros defined
in the texts that it reads.  It fails with the errors of the first of them that has any, and their
places are places in that text, which need not be the page.

* `page_error`: the errors of a rendering are those of one readable text.
* `Template.render_parse`: each of them points to the opening tag of a block in that text.
* `Template.render_points_elsewhere`: it may point to no tag of the page. -/

namespace TagTemplate

/-- The texts that the rendering of a source can read. -/
inductive Readable (loader : Loader) (s : TagScanner) (source : String) : String → Prop
  | page : Readable loader s source source
  | loaded {name text : String} {directories : List String}
      (h : loader name directories = .ok text) : Readable loader s source text
  | defined {text body : String} (h : Readable loader s source text)
      (hbody : body ∈ Part.definitionsAll (s.read text).parts) : Readable loader s source body

namespace Rendering

variable {env : Environment} {source : String} {globals : Scope} {errors : List ParseError}

theorem closed_readable (size size' : Nat) :
    (Coupling.behind size size' (Readable env.loader env.scanner source)).Closed env :=
  ⟨.loaded, fun h _ hbody => .defined h hbody⟩

/-- The errors of a rendering are those of one of the texts that it can read. -/
theorem page_error (henv : env.toolkit = .builtin)
    (h : (page env source { globals }).1 = .error (.parse errors)) :
    ∃ text, Readable env.loader env.scanner source text ∧
      (env.scanner.read text).errors = errors ∧ errors ≠ [] := by
  let start : RenderState := { globals }
  -- a rendering is its own twin, under a coupling that knows the readable texts
  have htwin : start.Twin (.behind 0 0 (Readable env.loader env.scanner source)) start :=
    RenderState.twin_behind (s := start) Document.sound_empty Document.sound_empty rfl rfl
      fun _ _ hm => by cases hm
  have hpaired := twins_page henv (closed_readable 0 0) (Coupling.isExact_behind _ _ _) .page
    start start htwin (.nil _)
  exact hpaired.known h

theorem page_unread (h : (env.scanner.read source).errors ≠ []) :
    (page env source { globals }).1 = .error (.parse (env.scanner.read source).errors) := by
  have hbuild := build_eq env source none ∅ env.settings.paths { globals }
  rw [if_neg h] at hbuild
  rw [page, renderContainer, bind_of_error (bind_of_error hbuild)]

theorem renderNode_of_unread {depth id : Nat} {s : RenderState}
    (hk : (s.node id).kind = .invocation) {m : MacroDefinition}
    (hm : s.macros.get? (s.node id).givenName = some m) (hdepth : depth < env.settings.maxDepth)
    (h : (env.scanner.read m.body).errors ≠ []) :
    (renderNode env depth id s).1 = .error (.parse (env.scanner.read m.body).errors) := by
  have hlife : hasLifecycle (s.node id).kind = true := by rw [hk]; rfl
  have hbuild := build_eq env m.body (some id)
    (m.parameters.extend ((s.report id .started "").arguments id)) (s.node id).paths
    (s.report id .started "")
  rw [if_neg h] at hbuild
  have hinvocation : ∃ t, invocation env id (deeper env depth) (s.report id .started "") =
      (.error (.parse (env.scanner.read m.body).errors), t) := by
    rw [invocation, bind_of_ok (get_apply _), RenderState.node_report, RenderState.report_macros,
      hm, deeper, if_pos hdepth]
    exact ⟨_, bind_of_error hbuild⟩
  obtain ⟨t, hinvocation⟩ := hinvocation
  rw [renderNode_eq, nodeWith, bind_of_ok (node_apply id s), withLifecycle_apply _ hlife, hk]
  exact congrArg Prod.fst (bind_of_error (bind_of_error hinvocation))

end Rendering

namespace Template

/-- With the tags known from the start, a rendering that fails with parse errors gives the errors
of one text that it can read, all of them; it is the page if the page has any.  Each error names a
block and gives the place, in that text, of a tag that opens it. -/
theorem render_parse {t : Template} (htoolkit : t.toolkit = .builtin) {scanner : TagScanner}
    (hscanner : TagScanner.ofTags t.toolkit.tags t.settings.delimiters = .ok scanner)
    {source : String} {errors : List ParseError}
    (h : (t.render source).result = .error (.parse errors)) :
    ∃ text, Readable t.loader scanner source text ∧ (scanner.read text).errors = errors ∧
      errors ≠ [] ∧ ((scanner.read source).errors ≠ [] → text = source) ∧
      ∀ e ∈ errors, scanner.PointsInto text.toList e := by
  have htags : TagScanner.ofTags .builtin t.settings.delimiters = .ok scanner := by
    rw [← hscanner, htoolkit]
    rfl
  let env : Environment := ⟨t.toolkit, scanner, t.settings, t.loader⟩
  have hpage : (Rendering.page env source { globals := t.globals }).1 = .error (.parse errors) := by
    rw [Rendering.result_render_eq hscanner] at h
    cases hr : (Rendering.page env source { globals := t.globals }).1 with
    | ok r => rw [hr] at h; cases h
    | error e => rw [hr] at h; cases h; rfl
  by_cases hown : (scanner.read source).errors = []
  · obtain ⟨text, hreadable, herrors, hne⟩ := Rendering.page_error htoolkit hpage
    exact ⟨text, hreadable, herrors, hne, fun hnot => absurd hown hnot,
      herrors ▸ TagScanner.pointsInto_of_mem_errors htags⟩
  · have hunread : (Rendering.page env source { globals := t.globals }).1 =
        .error (.parse (scanner.read source).errors) := Rendering.page_unread hown
    cases hunread.symm.trans hpage
    exact ⟨source, .page, rfl, hown, fun _ => rfl, TagScanner.pointsInto_of_mem_errors htags⟩

/-! ### An error in the body of a macro -/

/-- The opening tag `{#if done}`. -/
def openTest : Heading :=
  .conditional ⟨.plain ⟨['d', 'o', 'n', 'e'], by decide⟩, []⟩

/-- A macro whose body opens a block and does not close it. -/
def brokenMacro : RawBlock where
  heading := .definition ⟨.plain ⟨['r', 'o', 'w'], by decide⟩, []⟩
  inside := openTest.print
  opens_not := by decide
  closes_not := by decide

/-- The text `@macro(row){#if done}@endmacro@invoke(row)`. -/
def brokenPage : Script :=
  let none : Gap := ⟨[], bland_nil⟩
  let call : Leaf := .invocation ⟨.plain ⟨['r', 'o', 'w'], by decide⟩, []⟩
  .raw none brokenMacro (.leaf none call (.last none))

/-- A template with the usual settings and nothing to load. -/
def alone : Template where
  loader := .ofSources ∅

/-- The state in which the root of that page is rendered. -/
def brokenStart : RenderState :=
  Rendering.pageState ∅ (.ofList brokenPage.print) (brokenPage.parts 0)

theorem brokenStart_facts :
    (brokenStart.node 2).kind = .root ∧ (brokenStart.node 2).children = [0, 1] ∧
      (brokenStart.node 0).kind = .definition ∧
      (brokenStart.node 0).attributes.name = some "row" ∧
      (brokenStart.node 0).toMacro.body = .ofList openTest.print ∧
      (brokenStart.node 1).kind = .invocation ∧ (brokenStart.node 1).givenName = "row" := by
  decide +kernel

theorem errors_openTest : (TagScanner.builtin.read (.ofList openTest.print)).errors =
    [.unclosedBlock "if" ⟨0, 10⟩] :=
  congrArg Reading.errors (TagScanner.read_open openTest)

theorem renderNode_brokenStart : (Rendering.renderNode (.usual alone.loader) 0 2 brokenStart).1 =
    .error (.parse [.unclosedBlock "if" ⟨0, 10⟩]) := by
  obtain ⟨hroot, hchildren, hdefinition, hname, hbody, hinvocation, hcall⟩ := brokenStart_facts
  generalize brokenStart = s at *
  let s' : RenderState := s.through 0 fun t => t.define "row" (s.node 0).toMacro
  have hfirst : Rendering.renderNode (.usual alone.loader) 0 0 s = (.ok "", s') :=
    Rendering.renderNode_of_definition hdefinition hname
  have hstill : s'.node 1 = s.node 1 := by
    rw [RenderState.node, RenderState.document_through_define, RenderState.node]
  have hmacro : s'.macros.get? (s'.node 1).givenName = some (s.node 0).toMacro := by
    rw [hstill, hcall]
    exact RenderState.get?_macros_through_define s 0 "row" _
  have herrors : ((Environment.usual alone.loader).scanner.read (s.node 0).toMacro.body).errors =
      [.unclosedBlock "if" ⟨0, 10⟩] := by
    rw [hbody]
    exact errors_openTest
  have hdepth : 0 < (Environment.usual alone.loader).settings.maxDepth := by decide
  have hsecond := Rendering.renderNode_of_unread (hstill ▸ hinvocation) hmacro hdepth
    (herrors ▸ List.cons_ne_nil _ _)
  rw [herrors] at hsecond
  rw [Rendering.renderNode_of_root hroot hchildren (by decide), Rendering.sequence_cons_eq,
    Rendering.bind_of_ok hfirst, Rendering.sequence_cons_eq]
  exact Rendering.fst_bind_of_error (Rendering.fst_bind_of_error hsecond)

/-- The error gives the place of the opening tag in the body of the macro. -/
theorem result_render_brokenPage : (alone.render (.ofList brokenPage.print)).result =
    .error (.parse [.unclosedBlock "if" ⟨0, 10⟩]) := by
  have hcount : Part.countAll (brokenPage.parts 0) = 2 := by decide +kernel
  have hroot := renderNode_brokenStart
  rw [← hcount] at hroot
  have hpage := Rendering.page_of_error (TagScanner.read_print brokenPage) hroot
  have hscanner : TagScanner.ofTags alone.toolkit.tags alone.settings.delimiters = .ok .builtin :=
    TagScanner.ofTags_builtin
  rw [Rendering.result_render_eq hscanner]
  exact congrArg (Except.map (·.1)) hpage

/-- A rendering that fails, and the text whose error it gives. -/
theorem render_parse_brokenPage :
    let source := String.ofList brokenPage.print
    let errors : List ParseError := [.unclosedBlock "if" ⟨0, 10⟩]
    TagScanner.ofTags alone.toolkit.tags alone.settings.delimiters = .ok .builtin ∧
      (alone.render source).result = .error (.parse errors) ∧
      ∃ text, Readable alone.loader .builtin source text ∧
        (TagScanner.builtin.read text).errors = errors ∧ errors ≠ [] ∧
        ((TagScanner.builtin.read source).errors ≠ [] → text = source) ∧
        ∀ e ∈ errors, TagScanner.builtin.PointsInto text.toList e := by
  have hscanner : TagScanner.ofTags alone.toolkit.tags alone.settings.delimiters = .ok .builtin :=
    TagScanner.ofTags_builtin
  have htoolkit : alone.toolkit = .builtin := rfl
  exact ⟨hscanner, result_render_brokenPage,
    render_parse htoolkit hscanner result_render_brokenPage⟩

/-- The page does not hold what its error gives the place of. -/
theorem render_points_elsewhere :
    (alone.render (.ofList brokenPage.print)).result =
        .error (.parse [.unclosedBlock "if" ⟨0, 10⟩]) ∧
      ¬ TagScanner.builtin.PointsInto brokenPage.print (.unclosedBlock "if" ⟨0, 10⟩) := by
  refine ⟨result_render_brokenPage, fun h => ?_⟩
  obtain ⟨t, ht, hlead⟩ := h.lead_prefix rfl
  have hnone : ∀ t ∈ BuiltinTag.all, t.spec.name = "if" → ¬ t.lead <+: brokenPage.print := by
    decide +kernel
  exact hnone t (BuiltinTag.mem_all t) (ParseError.unclosedBlock.inj ht).1.symm hlead

end Template

end TagTemplate
