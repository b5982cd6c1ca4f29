import TagTemplate.Proofs.Render.Acts
import TagTemplate.Proofs.Scanning.Builtin
import TagTemplate.Template

/-! # Pages without layouts

A template with everything known from the start and the usual settings reads a source, prepares its
nodes, makes its root the container of the page and renders it.  If no layout has been asked for,
that is all.

* `result_render`: the result of a template is that of the rendering of the page's root. -/

namespace TagTemplate

/-- The tags known from the start under the usual settings, and a loader. -/
def Environment.usual (loader : Loader) : Environment :=
  ⟨.builtin, .builtin, {}, loader⟩

namespace Rendering

open TagTemplate.Part

/-- The state in which the root of a page is rendered, when the page has been read as a list of
parts. -/
def pageState (globals : Scope) (source : String) (parts : List Part) : RenderState :=
  let nodes := fragment (Node.prepared Preparer.builtins ⟨none, ∅, ∅, true⟩) 0 none parts
    ⟨0, source.utf8ByteSize⟩
  { globals, document := ((∅ : Document).append nodes).setContainer (countAll parts) {} }

section page
variable {loader : Loader} {globals : Scope} {source text : String} {parts : List Part}
  {s : RenderState}

theorem wrap_of_no_layout (env : Environment) (used : List String) {c : Container}
    (h : c.layout = none) (remaining : Nat) :
    wrap env used text c remaining s = (.ok (text, c), s) := by
  cases remaining with
  | zero =>
      rw [wrap, h]
      rfl
  | succ remaining =>
      rw [wrap, h]
      rfl

/-- The container of a page is its root, once the page has been read. -/
theorem renderContainer_usual (hread : TagScanner.builtin.read source = { parts }) :
    renderContainer (.usual loader) source ∅ { globals } =
      (do
        let text ← renderNode (.usual loader) 0 (countAll parts)
        return (text, ((← node (countAll parts)).container).getD {}))
      (pageState globals source parts) := by
  have hbuild := build_eq (.usual loader) source none ∅ ∅ { globals }
  have hread' : (Environment.usual loader).scanner.read source = { parts } := hread
  have hsize : ({ globals } : RenderState).document.size + countAll parts = countAll parts :=
    Nat.zero_add _
  rw [hread', if_pos rfl, hsize] at hbuild
  rw [renderContainer]
  exact (bind_of_ok hbuild).trans (bind_of_ok (modify_apply _ _))

theorem page_of_no_layout (hread : TagScanner.builtin.read source = { parts })
    (hrender : renderNode (.usual loader) 0 (countAll parts) (pageState globals source parts) =
      (.ok text, s))
    (hlayout : ∀ c ∈ (s.node (countAll parts)).container, c.layout = none) :
    page (.usual loader) source { globals } =
      (.ok (text, (s.node (countAll parts)).container.getD {}), s) := by
  have hcontainer : renderContainer (.usual loader) source ∅ { globals } =
      (.ok (text, (s.node (countAll parts)).container.getD {}), s) := by
    rw [renderContainer_usual hread, bind_of_ok hrender]
    exact bind_of_ok (node_apply _ _)
  have hnone : ((s.node (countAll parts)).container.getD {}).layout = none := by
    cases hc : (s.node (countAll parts)).container with
    | none => rfl
    | some c => exact hlayout c hc
  rw [page, bind_of_ok hcontainer]
  exact wrap_of_no_layout _ _ hnone _

theorem page_of_error {e : RenderError} (hread : TagScanner.builtin.read source = { parts })
    (hrender : (renderNode (.usual loader) 0 (countAll parts)
      (pageState globals source parts)).1 = .error e) :
    (page (.usual loader) source { globals }).1 = .error e := by
  rw [page]
  refine fst_bind_of_error ?_
  rw [renderContainer_usual hread]
  exact fst_bind_of_error hrender

/-- The result of a template is that of the page, where the tags can be found. -/
theorem result_render_eq {t : Template} {scanner : TagScanner}
    (h : TagScanner.ofTags t.toolkit.tags t.settings.delimiters = .ok scanner) :
    (t.render source).result =
      (page ⟨t.toolkit, scanner, t.settings, t.loader⟩ source { globals := t.globals }).1.map
        (·.1) := by
  rw [Template.render, h]
  dsimp only
  generalize page ⟨t.toolkit, scanner, t.settings, t.loader⟩ source { globals := t.globals } = r
  obtain ⟨result, s⟩ := r
  cases result <;> rfl

/-- The result of a template that renders a page without a layout. -/
theorem result_render (slots : NameMap String)
    (hread : TagScanner.builtin.read source = { parts })
    (hrender : renderNode (.usual loader) 0 (countAll parts) (pageState globals source parts) =
      (.ok text, s))
    (hlayout : ∀ c ∈ (s.node (countAll parts)).container, c.layout = none) :
    (Template.render { loader, globals, slots } source).result = .ok text := by
  have hpage := page_of_no_layout hread hrender hlayout
  let template : Template := { loader, globals, slots }
  have h : (template.render source).result =
      (page (.usual loader) source { globals }).1.map (·.1) :=
    result_render_eq TagScanner.ofTags_builtin
  refine h.trans ?_
  refine (congrArg (fun r => Except.map (·.1) r.1) hpage).trans ?_
  rfl

end page

end Rendering

end TagTemplate
