import Mathlib.Data.List.Basic
import TagTemplate.Proofs.Render.Resolution

/-! # Removing names

A name is looked up as it stands, and then as a path into the value bound to its head.  What is
removed is the binding of the name as it stands.

* `Scope.get?_eq`: the two ways of look-up.
* `Scope.byPath?_remove`: removal takes away the paths into the value removed.
* `Scope.remove_lookup`: what is removed, and what every name stands for afterwards. -/

namespace TagTemplate

namespace Scope

variable {s : Scope} {name head path x : String}

/-- The name is bound as it stands. -/
def Binds (s : Scope) (name : String) : Prop :=
  (s.bindings.get? name).isSome = true

/-- What the name leads to as a path into the value bound to its head. -/
def byPath? (s : Scope) (name : String) : Option Value :=
  (splitName? name).bind fun (head, path) => (s.bindings.get? head).bind (·.getPath? path)

theorem get?_eq (s : Scope) (name : String) :
    s.get? name = (s.bindings.get? name).or (s.byPath? name) := by
  rw [get?]
  cases s.bindings.get? name <;> rfl

theorem splitName?_eq_some_iff :
    splitName? name = some (head, path) ↔ name = head ++ "." ++ path ∧ '.' ∉ head.toList := by
  constructor
  · intro h
    by_cases hdot : '.' ∈ name.toList
    · obtain ⟨a, b, htext, ha⟩ := List.eq_append_cons_of_mem hdot
      have hname : name = .ofList a ++ "." ++ .ofList b := by
        rw [← String.toList_inj, htext]
        simp
      have ha' : '.' ∉ (String.ofList a).toList := by
        rwa [String.toList_ofList]
      rw [hname, splitName?_dotted ha'] at h
      cases h
      exact ⟨hname, ha'⟩
    · rw [splitName?_plain hdot] at h
      cases h
  · rintro ⟨rfl, hhead⟩
    exact splitName?_dotted hhead path

theorem splitName?_head_ne (h : splitName? name = some (head, path)) : head ≠ name := by
  rintro rfl
  have hlen := congrArg (fun s => s.toList.length) (splitName?_eq_some_iff.mp h).1
  simp at hlen

theorem byPath?_eq (h : splitName? x = some (head, path)) :
    s.byPath? x = (s.bindings.get? head).bind (·.getPath? path) := by
  rw [byPath?, h, Option.bind_some]

theorem bindings_remove (s : Scope) (name x : String) :
    (s.remove name).2.bindings.get? x = if x = name then none else s.bindings.get? x :=
  NameMap.get?_erase _ _ _

theorem byPath?_remove (s : Scope) (name x : String) :
    (s.remove name).2.byPath? x =
      if (splitName? x).map (·.1) = some name then none else s.byPath? x := by
  cases hx : splitName? x with
  | none =>
      rw [byPath?, byPath?, hx]
      rfl
  | some parts =>
      obtain ⟨head, path⟩ := parts
      rw [byPath?_eq hx, byPath?_eq hx, bindings_remove]
      by_cases h : head = name <;> simp [h]

theorem get?_remove_self (s : Scope) (name : String) :
    (s.remove name).2.get? name = s.byPath? name := by
  have hother : (splitName? name).map (·.1) ≠ some name := by
    intro h
    obtain ⟨⟨head, path⟩, hsplit, hhead⟩ := Option.map_eq_some_iff.mp h
    exact splitName?_head_ne hsplit hhead
  rw [get?_eq, bindings_remove, if_pos rfl, Option.none_or, byPath?_remove, if_neg hother]

/-- Another name stands for what it stood for, or for a part of the value removed. -/
theorem get?_remove_of_ne (hx : x ≠ name) :
    (s.remove name).2.get? x = s.get? x ∨
      ¬ s.Binds x ∧ (s.remove name).2.get? x = none ∧ ∃ path v w, x = name ++ "." ++ path ∧
        '.' ∉ name.toList ∧ (s.remove name).1 = some v ∧ v.getPath? path = some w ∧
          s.get? x = some w := by
  rw [get?_eq, get?_eq, bindings_remove, if_neg hx, byPath?_remove]
  split
  · next h =>
      obtain ⟨⟨head, path⟩, hsplit, rfl⟩ := Option.map_eq_some_iff.mp h
      cases hbound : s.bindings.get? x with
      | some v => exact .inl rfl
      | none =>
          cases hpath : s.byPath? x with
          | none => exact .inl rfl
          | some w =>
              have hvalue := hpath
              rw [byPath?_eq hsplit, Option.bind_eq_some_iff] at hvalue
              obtain ⟨v, hv, hw⟩ := hvalue
              obtain ⟨hname, hplain⟩ := splitName?_eq_some_iff.mp hsplit
              refine .inr ⟨?_, rfl, path, v, w, hname, hplain, hv, hw, rfl⟩
              rw [Binds, hbound]
              decide
  · exact .inl rfl

theorem byPath?_eq_some_iff {w : Value} : s.byPath? name = some w ↔ ∃ head path v,
    name = head ++ "." ++ path ∧ '.' ∉ head.toList ∧ s.bindings.get? head = some v ∧
      v.getPath? path = some w := by
  constructor
  · intro h
    obtain ⟨⟨head, path⟩, hsplit, hvalue⟩ := Option.bind_eq_some_iff.mp h
    obtain ⟨v, hv, hw⟩ := Option.bind_eq_some_iff.mp hvalue
    obtain ⟨hname, hhead⟩ := splitName?_eq_some_iff.mp hsplit
    exact ⟨head, path, v, hname, hhead, hv, hw⟩
  · rintro ⟨head, path, v, hname, hhead, hv, hw⟩
    rw [byPath?_eq (splitName?_eq_some_iff.mpr ⟨hname, hhead⟩), hv, Option.bind_some, hw]

/-- What is removed is the binding of the name as it stands.  A path with the same name stays, and
so does all that is not a part of the value removed. -/
theorem remove_lookup (s : Scope) (name : String) :
    (∀ v, (s.remove name).1 = some v ↔ s.Binds name ∧ s.get? name = some v) ∧
    (¬ s.Binds name → ∀ x, (s.remove name).2.get? x = s.get? x) ∧
    (∀ w, (s.remove name).2.get? name = some w ↔ ∃ head path v, name = head ++ "." ++ path ∧
      '.' ∉ head.toList ∧ s.bindings.get? head = some v ∧ v.getPath? path = some w) ∧
    ∀ x, x ≠ name → (s.remove name).2.get? x = s.get? x ∨
      ¬ s.Binds x ∧ (s.remove name).2.get? x = none ∧ ∃ path v w, x = name ++ "." ++ path ∧
        '.' ∉ name.toList ∧ (s.remove name).1 = some v ∧ v.getPath? path = some w ∧
          s.get? x = some w := by
  refine ⟨fun v => ?_, fun h x => ?_, fun w => ?_, fun x => get?_remove_of_ne⟩
  · rw [get?_eq, Binds]
    show s.bindings.get? name = some v ↔ _
    cases s.bindings.get? name <;> simp
  · by_cases hx : x = name
    · rw [hx, get?_remove_self, get?_eq, Option.not_isSome_iff_eq_none.mp h, Option.none_or]
    · rcases get?_remove_of_ne (s := s) hx with hsame | ⟨-, -, path, v, w, -, -, hv, -⟩
      · exact hsame
      · exact absurd (Option.isSome_of_eq_some hv) h
  · rw [get?_remove_self, byPath?_eq_some_iff]

def adaScope : Scope :=
  (∅ : Scope).insert "user" (.map (.ofList [("name", .text "Ada")]))

/-- The part of the map is found under its dotted name, and cannot be removed under it. -/
theorem remove_part_adaScope :
    adaScope.get? "user.name" = some (.text "Ada") ∧ (adaScope.remove "user.name").1 = none ∧
      (adaScope.remove "user.name").2.contains "user.name" = true := by
  have hparts : Value.pathParts "name" = ["name"] := by decide +kernel
  have hpath : adaScope.byPath? "user.name" = some (.text "Ada") := by
    refine byPath?_eq_some_iff.mpr ⟨"user", "name", .map (.ofList [("name", .text "Ada")]), ?_⟩
    refine ⟨by decide +kernel, by decide +kernel, rfl, ?_⟩
    rw [Value.getPath?, hparts]
    rfl
  refine ⟨?_, rfl, ?_⟩
  · rw [get?_eq, hpath]
    rfl
  · rw [contains, get?_remove_self, hpath]
    rfl

end Scope

end TagTemplate
