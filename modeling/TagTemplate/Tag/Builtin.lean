import TagTemplate.Tag.Registry

/-! # The tags known from the start

References, expressions and bindings stand between the delimiters; blocks are closed by a slash
and their name; directives begin with an at sign and never use the delimiters. -/

namespace TagTemplate

namespace TagDefinition

/-- The body of a tag on one line, as short as possible.  Quoted runs may hold the closing
delimiter. -/
def bodyPattern : String :=
  "(?:\"(?:[^\"\\\\\\n]|\\\\.)*\"|'(?:[^'\\\\\\n]|\\\\.)*'|[^\\n])*?"

/-- The arguments of a directive.  Quoted runs may hold parentheses. -/
def argumentsPattern : String :=
  "(?:\"(?:[^\"\\\\\\n]|\\\\.)*\"|'(?:[^'\\\\\\n]|\\\\.)*'|[^()\\n])*"

/-- The tag `#name` with a body after a blank, closed by `/name`. -/
def block (name : String) (kind : NodeKind) (keys : List String) : TagDefinition where
  name := name
  pattern := "{open}#" ++ name ++ "[ \\t]" ++ bodyPattern ++ "{close}"
  kind := kind
  closing := some ("{open}/" ++ name ++ "{close}")
  lead := "#" ++ name
  attributes := { allowed := .only keys }

/-- The tag `@name(arguments)`. -/
def directive (name : String) (kind : NodeKind) (spec : AttributeSpec)
    (closing : Option String) (rawBody : Bool) : TagDefinition where
  name := name
  pattern := "@" ++ name ++ "\\(" ++ argumentsPattern ++ "\\)"
  kind := kind
  closing := closing
  lead := "@" ++ name
  attributes := spec
  rawBody := rawBody

/-- The keys of comparisons, after the variable compared. -/
def comparisonKeys : List String :=
  ["equals", "not_equals", "gt", "lt", "gte", "lte"]

/-- The definitions known from the start, in their order. -/
def builtins : List TagDefinition := [
  { name := "var"
    pattern := "{open}\\$[A-Za-z_][\\w.]*(?:[ \\t]" ++ bodyPattern ++ ")?{close}"
    kind := .reference
    lead := "$"
    attributes := { form := .name } },
  { name := "loop_var"
    pattern := "{open}@[A-Za-z_]\\w*{close}"
    kind := .reference
    attributes := { form := .name, allowed := .only [] } },
  { name := "expr"
    pattern := "{open}=" ++ bodyPattern ++ "{close}"
    kind := .expression
    lead := "="
    attributes := { form := .expression } },
  { name := "let"
    pattern := "{open}#let[ \\t]" ++ bodyPattern ++ "{close}"
    kind := .binding
    lead := "#let" },
  block "if" .conditional ("var" :: comparisonKeys),
  block "while" .whileLoop ("var" :: comparisonKeys),
  block "each" .eachLoop ["items", "glue"],
  block "until" .untilLoop ["validator", "attempts"],
  { name := "await"
    pattern := "{open}#await(?:[ \\t]" ++ bodyPattern ++ ")?{close}"
    kind := .await
    closing := some "{open}/await{close}"
    lead := "#await"
    attributes := { allowed := .only ["event"] } },
  { name := "comment"
    pattern := "{open}#comment{close}"
    kind := .comment
    closing := some "{open}/comment{close}"
    lead := "#comment"
    attributes := { allowed := .only [] }
    rawBody := true },
  directive "template" .layout { allowed := .only ["name"] } none false,
  directive "section" .slot { allowed := .only ["name"] } (some "@endsection") false,
  directive "output" .output { allowed := .only ["name"] } none false,
  directive "include" .inclusion { form := .name } none false,
  directive "import" .moduleUse { form := .name } none false,
  directive "macro" .definition { form := .name } (some "@endmacro") true,
  directive "invoke" .invocation { form := .name } none false]

end TagDefinition

def TagSet.builtin : TagSet :=
  ⟨TagDefinition.builtins⟩

end TagTemplate
