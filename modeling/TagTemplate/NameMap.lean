/-! # Finite maps from names

A map is a list of entries in increasing order of their names, so that listing a map shows its
names in order.  `get?_insert` and `get?_erase` describe the operations by their effect on
look-up. -/

namespace TagTemplate

/-- A finite map from names. -/
structure NameMap (α : Type) where
  entries : List (String × α) := []
deriving DecidableEq, Repr

namespace NameMap

variable {α : Type}

instance : EmptyCollection (NameMap α) := ⟨⟨[]⟩⟩

instance : Inhabited (NameMap α) := ⟨∅⟩

/-- The value bound to `name` in a list of entries. -/
def find? (name : String) : List (String × α) → Option α
  | [] => none
  | (k, v) :: rest => if k = name then some v else find? name rest

/-- The value bound to `name`. -/
def get? (m : NameMap α) (name : String) : Option α :=
  find? name m.entries

def contains (m : NameMap α) (name : String) : Bool :=
  (m.get? name).isSome

/-- The entries with `name` bound to `value`, at its place in the order. -/
def insertEntry (name : String) (value : α) : List (String × α) → List (String × α)
  | [] => [(name, value)]
  | (k, v) :: rest =>
    if k = name then (name, value) :: rest
    else if name < k then (name, value) :: (k, v) :: rest
    else (k, v) :: insertEntry name value rest

/-- The map with `name` bound to `value`, in place of an earlier binding. -/
def insert (m : NameMap α) (name : String) (value : α) : NameMap α :=
  ⟨insertEntry name value m.entries⟩

/-- The map without a binding of `name`. -/
def erase (m : NameMap α) (name : String) : NameMap α :=
  ⟨m.entries.filter fun e => e.1 ≠ name⟩

/-- The names bound, in increasing order. -/
def names (m : NameMap α) : List String :=
  m.entries.map (·.1)

def values (m : NameMap α) : List α :=
  m.entries.map (·.2)

def size (m : NameMap α) : Nat :=
  m.entries.length

def isEmpty (m : NameMap α) : Bool :=
  m.entries.isEmpty

/-- The map with all entries of a list inserted, the last one of a name winning. -/
def insertAll (m : NameMap α) (entries : List (String × α)) : NameMap α :=
  entries.foldl (fun m e => m.insert e.1 e.2) m

/-- The map of a list of entries, the last one of a name winning. -/
def ofList (entries : List (String × α)) : NameMap α :=
  insertAll ∅ entries

/-- The bindings of `other` put over those of `m`. -/
def extend (m other : NameMap α) : NameMap α :=
  m.insertAll other.entries

/-! ### Look-up after an operation -/

theorem find?_insertEntry (name x : String) (value : α) (entries : List (String × α)) :
    find? x (insertEntry name value entries)
      = if x = name then some value else find? x entries := by
  induction entries with
  | nil => simp [insertEntry, find?, eq_comm]
  | cons e rest ih =>
    obtain ⟨k, v⟩ := e
    simp only [insertEntry]
    split
    · next h =>
      subst h
      simp only [find?]
      by_cases hx : x = k
      · simp [hx]
      · simp [hx, Ne.symm hx]
    · next h =>
      split
      · simp only [find?]
        by_cases hx : x = name
        · simp [hx]
        · simp [hx, Ne.symm hx]
      · simp only [find?, ih]
        by_cases hk : k = x
        · subst hk; simp [h]
        · simp [hk]

theorem get?_insert (m : NameMap α) (name x : String) (value : α) :
    (m.insert name value).get? x = if x = name then some value else m.get? x :=
  find?_insertEntry name x value m.entries

theorem get?_erase (m : NameMap α) (name x : String) :
    (m.erase name).get? x = if x = name then none else m.get? x := by
  obtain ⟨entries⟩ := m
  simp only [get?, erase]
  induction entries with
  | nil => simp [find?]
  | cons e rest ih =>
    obtain ⟨k, v⟩ := e
    by_cases hk : k = name
    · subst hk
      simp only [ne_eq, not_true_eq_false, decide_false, Bool.false_eq_true, not_false_eq_true,
        List.filter_cons_of_neg, find?, ih]
      by_cases hx : x = k
      · simp [hx]
      · simp [hx, Ne.symm hx]
    · simp only [ne_eq, hk, not_false_eq_true, decide_true, List.filter_cons_of_pos, find?, ih]
      by_cases hx : x = name
      · subst hx; simp [hk]
      · simp [hx]

@[simp] theorem get?_empty (x : String) : (∅ : NameMap α).get? x = none := rfl

end NameMap

end TagTemplate
