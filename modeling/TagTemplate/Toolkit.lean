import TagTemplate.Datatype
import TagTemplate.Document.Preparation
import TagTemplate.Generator
import TagTemplate.Handler
import TagTemplate.Tag.Builtin
import TagTemplate.Validator

/-! # Toolkits

A toolkit holds all that templates can name: tags, functions, validators, generators, data types
and handlers, and the preparers of their fragments. -/

namespace TagTemplate

/-- All that templates can name. -/
structure Toolkit where
  tags : TagSet := ∅
  functions : NameMap Function := ∅
  validators : NameMap Validator := ∅
  generators : NameMap Generator := ∅
  datatypes : NameMap Datatype := ∅
  handlers : NameMap Handler := ∅
  preparers : List Preparer := Preparer.builtins

namespace Toolkit

/-- The toolkit without anything that has a name. -/
def empty : Toolkit := {}

/-- The toolkit of everything known from the start. -/
def builtin : Toolkit where
  tags := .builtin
  functions := Function.builtins
  validators := Validator.builtins
  generators := Generator.builtins
  datatypes := Datatype.builtins

end Toolkit

end TagTemplate
