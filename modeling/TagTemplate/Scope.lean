import TagTemplate.Value

/-! # Scopes

A scope binds names to values.  Look-up of a dotted name first tries the name as it stands, then
descends into the value bound to the part before the first dot. -/

namespace TagTemplate

/-- Name to value bindings. -/
structure Scope where
  bindings : NameMap Value := ∅
deriving Inhabited

namespace Scope

instance : EmptyCollection Scope := ⟨⟨∅⟩⟩

/-- The parts of a name before and after its first dot. -/
def splitName? (name : String) : Option (String × String) :=
  (Text.cut ['.'] name.toList).map fun p => (.ofList p.1, .ofList p.2)

/-- The value of a name, plain or dotted. -/
def get? (s : Scope) (name : String) : Option Value :=
  match s.bindings.get? name with
  | some v => some v
  | none =>
    (splitName? name).bind fun (head, path) => (s.bindings.get? head).bind (·.getPath? path)

def contains (s : Scope) (name : String) : Bool :=
  (s.get? name).isSome

/-- The scope with `name` bound to `value`. -/
def insert (s : Scope) (name : String) (value : Value) : Scope :=
  ⟨s.bindings.insert name value⟩

/-- The value bound to exactly `name`, and the scope without that binding. -/
def remove (s : Scope) (name : String) : Option Value × Scope :=
  (s.bindings.get? name, ⟨s.bindings.erase name⟩)

/-- The bindings of `other` put over those of `s`. -/
def extend (s other : Scope) : Scope :=
  ⟨s.bindings.extend other.bindings⟩

/-- The scope of a list of bindings, the last one of a name winning. -/
def ofList (bindings : List (String × Value)) : Scope :=
  ⟨.ofList bindings⟩

def toList (s : Scope) : List (String × Value) :=
  s.bindings.entries

def size (s : Scope) : Nat :=
  s.bindings.size

def isEmpty (s : Scope) : Bool :=
  s.bindings.isEmpty

end Scope

end TagTemplate
