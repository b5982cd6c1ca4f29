import TagTemplate.Toml.Basic

/-! # Building tables

A document says piece by piece what its tables hold: entries under dotted keys, headers of tables,
and headers of the elements of arrays of tables.  A table remembers how it came to be, since only
a table without a header of its own can be added to. -/

namespace TagTemplate.Toml

/-- How a table came to be: by its own header, on the way to another header, or by a dotted
key. -/
inductive Origin where
  | header
  | implied
  | dotted
deriving DecidableEq, Repr

/-- A field of a table under construction. -/
inductive Item where
  | leaf (v : Toml)
  | table (origin : Origin) (fields : NameMap Item)
  | elements (earlier : List (NameMap Item)) (last : NameMap Item)

/-- The fields of a table under construction. -/
abbrev Fields := NameMap Item

mutual

def Item.toToml : Item → Toml
  | .leaf v => v
  | .table _ ⟨fields⟩ => .table ⟨itemFields fields⟩
  | .elements earlier ⟨last⟩ => .array (elementTables earlier ++ [.table ⟨itemFields last⟩])

def itemFields : List (String × Item) → List (String × Toml)
  | [] => []
  | (k, item) :: rest => (k, item.toToml) :: itemFields rest

def elementTables : List (NameMap Item) → List Toml
  | [] => []
  | ⟨fields⟩ :: rest => .table ⟨itemFields fields⟩ :: elementTables rest

end

/-- The fields when nothing more is added. -/
def Fields.finished (fields : Fields) : NameMap Toml :=
  ⟨itemFields fields.entries⟩

/-! ### Entries -/

/-- The fields with a value put under a dotted key.  The table that gets the value is `own`, the
one that the entry is written in, or has been made by dotted keys. -/
def addEntry (v : Toml) (own : Bool) : List String → Fields → Option Fields
  | [], _ => none
  | [k], fields =>
    if own && !fields.contains k then some (fields.insert k (.leaf v)) else none
  | k :: l :: rest, fields =>
    match fields.get? k with
    | none => (addEntry v true (l :: rest) ∅).map fun t => fields.insert k (.table .dotted t)
    | some (.leaf _) => none
    | some (.table .header _) => none
    | some (.table origin t) =>
      (addEntry v (origin = .dotted) (l :: rest) t).map fun t => fields.insert k (.table origin t)
    | some (.elements earlier last) =>
      (addEntry v false (l :: rest) last).map fun t => fields.insert k (.elements earlier t)

def addEntries (entries : List (List String × Toml)) (fields : Fields) : Option Fields :=
  entries.foldlM (fun t e => addEntry e.2 true e.1 t) fields

/-! ### Headers -/

/-- The fields with the item at the end of a path changed.  Tables on the way are made where there
are none; an array of tables is entered at its last element. -/
def changeAt (change : Option Item → Option Item) : List String → Fields → Option Fields
  | [], _ => none
  | [k], fields => (change (fields.get? k)).map (fields.insert k)
  | k :: l :: rest, fields =>
    match fields.get? k with
    | none => (changeAt change (l :: rest) ∅).map fun t => fields.insert k (.table .implied t)
    | some (.leaf _) => none
    | some (.table origin t) =>
      (changeAt change (l :: rest) t).map fun t => fields.insert k (.table origin t)
    | some (.elements earlier last) =>
      (changeAt change (l :: rest) last).map fun t => fields.insert k (.elements earlier t)

/-- What a header opens: a table, or a new element of an array of tables. -/
inductive Heading where
  | table (path : List String)
  | element (path : List String)
deriving DecidableEq, Repr

/-- A header with the entries below it. -/
structure Section where
  heading : Heading
  entries : List (List String × Toml)

/-- The table that a header opens, with its entries. -/
def tableItem (entries : List (List String × Toml)) : Option Item → Option Item
  | none => (addEntries entries ∅).map (.table .header)
  | some (.table .implied t) => (addEntries entries t).map (.table .header)
  | _ => none

/-- The array of tables with a new element that has the entries. -/
def elementItem (entries : List (List String × Toml)) : Option Item → Option Item
  | none => (addEntries entries ∅).map (.elements [])
  | some (.elements earlier last) =>
    (addEntries entries ∅).map (.elements (earlier ++ [last]))
  | _ => none

def addSection (fields : Fields) (s : Section) : Option Fields :=
  match s.heading with
  | .table path => changeAt (tableItem s.entries) path fields
  | .element path => changeAt (elementItem s.entries) path fields

/-- The table of the entries at the top of a document and of its sections. -/
def assemble (top : List (List String × Toml)) (sections : List Section) : Option (NameMap Toml) :=
  ((addEntries top ∅).bind (sections.foldlM addSection)).map Fields.finished

end TagTemplate.Toml
