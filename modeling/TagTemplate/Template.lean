import TagTemplate.Render.Page

/-! # Templates

A template renders sources under its settings.  Variables of the template stay bound from one
rendering to the next. -/

namespace TagTemplate

/-- What renders sources. -/
structure Template where
  toolkit : Toolkit := .builtin
  settings : Settings := {}
  loader : Loader
  globals : Scope := ∅
  slots : NameMap String := ∅

/-- The result of a rendering: its text or an error, the template afterwards, and the events. -/
structure Rendered where
  result : Except RenderError String
  template : Template
  events : List Event := []

namespace Template

/-- The template with a variable bound. -/
def set (t : Template) (name : String) (value : Value) : Template :=
  { t with globals := t.globals.insert name value }

/-- Renders a source.  After an error the variables bound so far stay bound, and the slots are
those of the last success. -/
def render (t : Template) (source : String) : Rendered :=
  match TagScanner.ofTags t.toolkit.tags t.settings.delimiters with
  | .error e => { result := .error (.tags e), template := t }
  | .ok scanner =>
    let env : Environment := ⟨t.toolkit, scanner, t.settings, t.loader⟩
    let (result, s) := Rendering.page env source { globals := t.globals }
    let events := s.events.toList
    match result with
    | .ok (text, c) =>
      { result := .ok text, template := { t with globals := s.globals, slots := c.slots },
        events }
    | .error e => { result := .error e, template := { t with globals := s.globals }, events }

/-- Renders the source of a name. -/
def renderNamed (t : Template) (name : String) : Rendered :=
  match t.loader name (t.settings.paths.directories Loader.templates) with
  | .ok source => t.render source
  | .error e => { result := .error (.load e), template := t }

end Template

/-- The text of a source, rendered with everything known from the start. -/
def render (settings : Settings) (files : Files) (source : String) : Except RenderError String :=
  (Template.render { settings, loader := .ofFiles files } source).result

end TagTemplate
