import Mathlib.Data.String.Basic
import TagTemplate.NameMap

/-! # Maps from names as lists of entries

A map is listed in the order of its names, if it has been made by the operations on maps.

* `NameMap.Ordered`: the names are in increasing order; all operations keep it so.
* `NameMap.find?_eq_some_iff`: a name stands for the value of its first entry. -/

namespace TagTemplate

namespace NameMap

variable {α : Type} {m : NameMap α}

theorem find?_eq_map (name : String) (entries : List (String × α)) :
    find? name entries = (entries.find? fun e => e.1 = name).map (·.2) := by
  induction entries with
  | nil => rfl
  | cons e rest ih =>
      rw [find?, List.find?_cons]
      by_cases h : e.1 = name <;> simp [h, ih]

theorem find?_eq_some_iff {name : String} {v : α} {entries : List (String × α)} :
    find? name entries = some v ↔
      ∃ before after, entries = before ++ (name, v) :: after ∧ ∀ e ∈ before, e.1 ≠ name := by
  rw [find?_eq_map, Option.map_eq_some_iff]
  constructor
  · rintro ⟨⟨k, _⟩, h, rfl⟩
    obtain ⟨hk, before, after, happend, hbefore⟩ := List.find?_eq_some_iff_append.mp h
    obtain rfl : k = name := by simpa using hk
    exact ⟨before, after, happend, fun e he => by simpa using hbefore e he⟩
  · rintro ⟨before, after, happend, hbefore⟩
    refine ⟨(name, v), List.find?_eq_some_iff_append.mpr ?_, rfl⟩
    exact ⟨by simp, before, after, happend, fun e he => by simpa using hbefore e he⟩

/-! ### Order -/

/-- The names of the entries are in increasing order. -/
def Ordered (m : NameMap α) : Prop :=
  m.entries.Pairwise fun a b => a.1 < b.1

theorem mem_insertEntry {name : String} {value : α} {e : String × α} :
    ∀ {entries : List (String × α)}, e ∈ insertEntry name value entries →
      e = (name, value) ∨ e ∈ entries
  | [], h => .inl (List.mem_singleton.mp h)
  | (k, v) :: rest, h => by
      rw [insertEntry] at h
      split_ifs at h
      · rcases List.mem_cons.mp h with h | h
        · exact .inl h
        · exact .inr (List.mem_cons_of_mem _ h)
      · exact List.mem_cons.mp h
      · rcases List.mem_cons.mp h with h | h
        · exact .inr (h ▸ List.mem_cons_self)
        · exact (mem_insertEntry h).imp_right (List.mem_cons_of_mem _)

namespace Ordered

theorem empty : (∅ : NameMap α).Ordered :=
  .nil

theorem insert (h : m.Ordered) (name : String) (value : α) : (m.insert name value).Ordered := by
  obtain ⟨entries⟩ := m
  show (insertEntry name value entries).Pairwise _
  induction entries with
  | nil => exact List.pairwise_singleton _ _
  | cons e rest ih =>
      obtain ⟨k, v⟩ := e
      obtain ⟨hfirst, hrest⟩ := List.pairwise_cons.mp h
      rw [insertEntry]
      split_ifs with heq hlt
      · exact List.pairwise_cons.mpr ⟨fun e he => heq ▸ hfirst e he, hrest⟩
      · refine List.pairwise_cons.mpr ⟨fun e he => ?_, h⟩
        rcases List.mem_cons.mp he with rfl | he
        · exact hlt
        · exact lt_trans hlt (hfirst e he)
      · refine List.pairwise_cons.mpr ⟨fun e he => ?_, ih hrest⟩
        rcases mem_insertEntry he with rfl | he
        · exact lt_of_le_of_ne (not_lt.mp hlt) heq
        · exact hfirst e he

theorem erase (h : m.Ordered) (name : String) : (m.erase name).Ordered :=
  List.Pairwise.filter _ h

theorem insertAll (h : m.Ordered) (entries : List (String × α)) :
    (m.insertAll entries).Ordered := by
  induction entries generalizing m with
  | nil => exact h
  | cons e rest ih => exact ih (h.insert e.1 e.2)

theorem ofList (entries : List (String × α)) : (NameMap.ofList entries).Ordered :=
  Ordered.empty.insertAll entries

theorem extend (h : m.Ordered) (other : NameMap α) : (m.extend other).Ordered :=
  h.insertAll other.entries

end Ordered

end NameMap

end TagTemplate
