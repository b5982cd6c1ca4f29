import TagTemplate.Template

/-! # References to other sources

Which sources a rendering can ask its loader for: every layout, inclusion and module that a node
of its document names. -/

namespace TagTemplate

/-- The name of the source that a node can ask for, and the directories that it is looked for in;
those of layouts belong to the page. -/
def Node.reference? (page : SearchPaths) (n : Node) : Option (String × List String) :=
  match n.kind.dispatch with
  | .render .layout =>
    (n.attributes.text? "name").map (·, page.directories Loader.templates)
  | .execute .inclusion => some (n.givenName, n.paths.directories Loader.templates)
  | .execute .moduleUse => some (n.givenName, n.paths.directories Loader.modules)
  | _ => none

/-- The sources that a rendering of `source` can ask for, as far as the loader answers. -/
def Template.references (t : Template) (source : String) : List (String × List String) :=
  match TagScanner.ofTags t.toolkit.tags t.settings.delimiters with
  | .error _ => []
  | .ok scanner =>
    let env : Environment := ⟨t.toolkit, scanner, t.settings, t.loader⟩
    let s := (Rendering.page env source { globals := t.globals }).2
    s.document.nodes.toList.filterMap (Node.reference? t.settings.paths)

end TagTemplate
