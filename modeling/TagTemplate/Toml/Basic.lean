import TagTemplate.Decimal.Double
import TagTemplate.NameMap
import TagTemplate.Scope

/-! # TOML data

The data that a TOML document holds, and the values and scopes of templates made of it.  Dates
and times arrive as tables with the one field `Toml.momentField`. -/

namespace TagTemplate

/-- A value of a TOML document. -/
inductive Toml where
  | text (s : String)
  | integer (n : Int)
  | float (x : Float)
  | boolean (b : Bool)
  | array (items : List Toml)
  | table (fields : NameMap Toml)
deriving Inhabited

namespace Toml

/-- The name of the field that holds the text of a date or a time. -/
def momentField : String := "$__toml_private_datetime"

/-- The table that stands for a date or a time. -/
def moment (text : String) : Toml :=
  table (.ofList [(momentField, .text text)])

mutual

/-- The value of templates; an integer becomes the nearest double. -/
def toValue : Toml → Value
  | text s => .text s
  | integer n => .number (Decimal.nearest (n < 0) n.natAbs 1)
  | float x => .number x
  | boolean b => .bool b
  | array items => .list (itemValues items)
  | table ⟨fields⟩ => .map ⟨fieldValues fields⟩

def itemValues : List Toml → List Value
  | [] => []
  | v :: rest => v.toValue :: itemValues rest

def fieldValues : List (String × Toml) → List (String × Value)
  | [] => []
  | (k, v) :: rest => (k, v.toValue) :: fieldValues rest

end

end Toml

/-- The scope that binds the fields of a table. -/
def Scope.ofToml (fields : NameMap Toml) : Scope :=
  ⟨⟨Toml.fieldValues fields.entries⟩⟩

end TagTemplate
