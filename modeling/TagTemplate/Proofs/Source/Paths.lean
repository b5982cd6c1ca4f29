import Mathlib.Data.List.Infix
import TagTemplate.Source.Files

/-! # Where paths lead

The steps of a path are read from left to right: into a directory, or with `..` out of one.  What a
path comes to by its text alone is its location; what it comes to in a tree of files is found by
walking there.

* `FileTree.RisesAtMost`: how far a list of steps leads out of the directory where it begins.
* `Location.inside_of_risesAtMost`: steps that do not rise above a location end inside it.
* `FileTree.walk_append`: in a tree they depend on nothing but what is there. -/

namespace TagTemplate

/-! ### Texts with separators -/

namespace Text

variable {c : Char} {a : List Char}

theorem pieces_of_not_mem (h : c ∉ a) : pieces [c] a = [a] := by
  rw [pieces, dif_neg (List.cons_ne_nil c [])]
  split
  · rfl
  · next hcut =>
      rw [cut_single_of_not_mem h] at hcut
      cases hcut

theorem pieces_cons (h : c ∉ a) (b : List Char) : pieces [c] (a ++ c :: b) = a :: pieces [c] b := by
  rw [pieces, dif_neg (List.cons_ne_nil c [])]
  split
  · next hcut =>
      rw [cut_single_append h] at hcut
      cases hcut
  · next hcut =>
      rw [cut_single_append h] at hcut
      cases hcut
      rfl

theorem separator_induction (c : Char) {P : List Char → Prop} (plain : ∀ a, c ∉ a → P a)
    (cons : ∀ a b, c ∉ a → P b → P (a ++ c :: b)) (s : List Char) : P s := by
  by_cases h : c ∈ s
  · obtain ⟨a, b, hs, ha⟩ := List.eq_append_cons_of_mem h
    subst hs
    exact cons a b ha (separator_induction c plain cons b)
  · exact plain s h
termination_by s.length
decreasing_by simp only [hs, List.length_append, List.length_cons]; omega

theorem pieces_single (c : Char) (s : List Char) : pieces [c] s = s.splitOn c := by
  induction s using separator_induction c with
  | plain a ha => rw [pieces_of_not_mem ha, List.splitOn_eq_singleton ha]
  | cons a s ha ih =>
      rw [pieces_cons ha, ih, List.splitOn_append_cons_self_of_not_mem ha]

/-- A text without separators goes to the last piece of the text before it. -/
theorem exists_pieces_append {b : List Char} (hb : c ∉ b) (s : List Char) :
    ∃ front last, pieces [c] s = front ++ [last] ∧ pieces [c] (s ++ b) = front ++ [last ++ b] := by
  induction s using separator_induction c with
  | plain a ha =>
      refine ⟨[], a, pieces_of_not_mem ha, pieces_of_not_mem ?_⟩
      rw [List.mem_append, not_or]
      exact ⟨ha, hb⟩
  | cons a s ha ih =>
      obtain ⟨front, last, hs, hsb⟩ := ih
      refine ⟨a :: front, last, ?_, ?_⟩
      · rw [pieces_cons ha, hs]
        rfl
      · rw [List.append_assoc, List.cons_append, pieces_cons ha, hsb]
        rfl

theorem length_le_of_mem_pieces (s : List Char) {p : List Char} (h : p ∈ pieces [c] s) :
    p.length ≤ s.length := by
  induction s using separator_induction c with
  | plain a ha =>
      rw [pieces_of_not_mem ha, List.mem_singleton] at h
      exact h ▸ Nat.le_refl _
  | cons a s ha ih =>
      rw [List.length_append, List.length_cons]
      rw [pieces_cons ha, List.mem_cons] at h
      rcases h with rfl | h
      · omega
      · have := ih h
        omega

end Text

/-! ### Steps -/

namespace FileTree

theorem steps_plain {name : String} (h : '/' ∉ name.toList) : steps name = [name] := by
  rw [steps, Text.pieces_of_not_mem h, List.map_singleton, String.ofList_toList]

theorem steps_slash (a b : String) : steps (a ++ "/" ++ b) = steps a ++ steps b := by
  have htext : (a ++ "/" ++ b).toList = a.toList ++ '/' :: b.toList := by simp
  simp only [steps, Text.pieces_single, htext, List.splitOn_append_cons_self, List.map_append]

theorem exists_steps_append {b : String} (hb : '/' ∉ b.toList) (a : String) :
    ∃ front last, steps a = front ++ [last] ∧ steps (a ++ b) = front ++ [last ++ b] := by
  obtain ⟨front, last, ha, hab⟩ := Text.exists_pieces_append hb a.toList
  refine ⟨front.map String.ofList, String.ofList last, ?_, ?_⟩
  · rw [steps, ha, List.map_append, List.map_singleton]
  · rw [steps, String.toList_append, hab, List.map_append, List.map_singleton, String.ofList_append,
      String.ofList_toList]

theorem steps_ne_nil (path : String) : steps path ≠ [] := by
  rw [steps, Text.pieces_single]
  exact mt List.map_eq_nil_iff.mp (List.splitOn_ne_nil _ _)

theorem length_le_of_mem_steps {path step : String} (h : step ∈ steps path) :
    step.length ≤ path.length := by
  obtain ⟨p, hp, rfl⟩ := List.mem_map.mp h
  rw [String.length_ofList, ← String.length_toList]
  exact Text.length_le_of_mem_pieces _ hp

/-- A step that is the name of an entry of a directory. -/
def IsEntry (step : String) : Prop :=
  step ≠ "" ∧ step ≠ "." ∧ step ≠ ".."

instance (step : String) : Decidable (IsEntry step) :=
  inferInstanceAs (Decidable (_ ∧ _))

theorem isEntry_of_length {step : String} (h : 2 < step.length) : IsEntry step := by
  refine ⟨?_, ?_, ?_⟩ <;>
  · rintro rfl
    exact absurd h (by decide)

/-- There is always a name of a directory that no step of a path has. -/
theorem exists_entry_notMem_steps (path : String) :
    ∃ d : String, '/' ∉ d.toList ∧ IsEntry d ∧ d ∉ steps path := by
  refine ⟨String.ofList (List.replicate (path.length + 3) 'd'), by simp, ?_, fun hd => ?_⟩
  · apply isEntry_of_length
    rw [String.length_ofList, List.length_replicate]
    omega
  · have hlength := length_le_of_mem_steps hd
    rw [String.length_ofList, List.length_replicate] at hlength
    omega

/-- Wherever one stops on the way, the steps have led at most `n` directories above the one where
they begin. -/
def RisesAtMost (n : Nat) (steps : List String) : Prop :=
  ∀ way ∈ steps.inits, way.count ".." ≤ n + way.countP (IsEntry ·)

instance (n : Nat) (steps : List String) : Decidable (RisesAtMost n steps) :=
  inferInstanceAs (Decidable (∀ _ ∈ _, _))

variable {n : Nat} {step : String} {rest : List String}

theorem risesAtMost_cons : RisesAtMost n (step :: rest) ↔ ∀ way ∈ rest.inits,
    (step :: way).count ".." ≤ n + (step :: way).countP (IsEntry ·) := by
  simp [RisesAtMost]

theorem risesAtMost_still (h : step = "" ∨ step = ".") :
    RisesAtMost n (step :: rest) ↔ RisesAtMost n rest := by
  rw [risesAtMost_cons, RisesAtMost]
  rcases h with rfl | rfl <;> simp [IsEntry]

theorem risesAtMost_up : RisesAtMost (n + 1) (".." :: rest) ↔ RisesAtMost n rest := by
  rw [risesAtMost_cons, RisesAtMost]
  refine forall₂_congr fun way _ => ?_
  rw [List.count_cons_self, List.countP_cons_of_neg (by simp [IsEntry])]
  omega

theorem not_risesAtMost_up : ¬ RisesAtMost 0 (".." :: rest) := by
  rw [risesAtMost_cons]
  intro h
  simpa [IsEntry] using h [] (by simp)

theorem risesAtMost_entry (h : IsEntry step) :
    RisesAtMost n (step :: rest) ↔ RisesAtMost (n + 1) rest := by
  rw [risesAtMost_cons, RisesAtMost]
  refine forall₂_congr fun way _ => ?_
  rw [List.count_cons_of_ne h.2.2, List.countP_cons_of_pos (by simpa using h)]
  omega

/-- Each step stays where it is, leads out of a directory or into one. -/
theorem step_cases (step : String) :
    (step = "" ∨ step = ".") ∨ step = ".." ∨ IsEntry step := by
  unfold IsEntry
  tauto

theorem RisesAtMost.concat_entry {last : String} (h : RisesAtMost n (rest ++ [last]))
    (hstep : IsEntry step) : RisesAtMost n (rest ++ [step]) := by
  intro way hway
  have hrest : ∀ way, way <+: rest → way.count ".." ≤ n + way.countP (IsEntry ·) := fun way hway =>
    h way ((List.mem_inits _ _).mpr (hway.trans (List.prefix_append _ _)))
  rcases List.prefix_concat_iff.mp ((List.mem_inits _ _).mp hway) with rfl | hway
  · have hall := hrest rest (List.prefix_refl rest)
    have hup : [step].count ".." = 0 := List.count_eq_zero.mpr (by simpa using hstep.2.2.symm)
    rw [List.count_append, List.countP_append, hup]
    omega
  · exact hrest way hway

end FileTree

/-! ### Locations -/

/-- Where the reading of a path begins: at the root of all files, or in the directory so many
levels above the working directory. -/
inductive Start where
  | root
  | above (levels : Nat)
deriving DecidableEq, Repr

/-- The start one level up.  There is nothing above the root. -/
def Start.up : Start → Start
  | .root => .root
  | .above n => .above (n + 1)

/-- What a path comes to when `.` and `..` are resolved by the text alone: the directories into
which it leads from its start, the innermost first. -/
structure Location where
  start : Start
  below : List String := []
deriving DecidableEq, Repr

namespace Location

open FileTree

/-- The location one step further. -/
def follow (p : Location) (step : String) : Location :=
  if step = "" ∨ step = "." then p
  else if step = ".." then
    match p.below with
    | [] => { p with start := p.start.up }
    | _ :: outer => { p with below := outer }
  else { p with below := step :: p.below }

/-- The path begins at the root of all files. -/
def IsAbsolute (path : String) : Prop :=
  path.toList.head? = some '/'

instance (path : String) : Decidable (IsAbsolute path) :=
  inferInstanceAs (Decidable (_ = _))

theorem isAbsolute_append {a : String} (h : a ≠ "") (b : String) :
    IsAbsolute (a ++ b) ↔ IsAbsolute a := by
  have ha : a.toList ≠ [] := mt String.toList_eq_nil_iff.mp h
  rw [IsAbsolute, IsAbsolute, String.toList_append, List.head?_append_of_ne_nil _ ha]

/-- Where the reading of the path begins. -/
def startOf (path : String) : Location where
  start := if IsAbsolute path then .root else .above 0

def ofPath (path : String) : Location :=
  (steps path).foldl follow (startOf path)

/-- The location is the directory `d` or lies in it, at whatever depth. -/
def Inside (p d : Location) : Prop :=
  p.start = d.start ∧ d.below <:+ p.below

instance (p d : Location) : Decidable (p.Inside d) :=
  inferInstanceAs (Decidable (_ ∧ _))

variable {start : Start} {step : String} {steps : List String}

theorem follow_still (p : Location) (h : step = "" ∨ step = ".") : p.follow step = p :=
  if_pos h

theorem follow_up_cons (inner : String) (outer : List String) :
    follow ⟨start, inner :: outer⟩ ".." = ⟨start, outer⟩ := by
  simp [follow]

theorem follow_up_nil : follow ⟨start, []⟩ ".." = ⟨start.up, []⟩ := by
  simp [follow]

theorem follow_entry (p : Location) (h : IsEntry step) :
    p.follow step = ⟨p.start, step :: p.below⟩ := by
  simp [follow, h.1, h.2.1, h.2.2]

theorem ofPath_entry {name : String} (hslash : '/' ∉ name.toList) (h : IsEntry name) :
    ofPath name = ⟨.above 0, [name]⟩ := by
  have hrelative : ¬ IsAbsolute name := fun habsolute => hslash (List.mem_of_mem_head? habsolute)
  rw [ofPath, steps_plain hslash, List.foldl_cons, List.foldl_nil, follow_entry _ h, startOf,
    if_neg hrelative]

theorem exists_foldl_follow {inner : List String} (base : List String)
    (h : RisesAtMost inner.length steps) :
    ∃ inner', steps.foldl follow ⟨start, inner ++ base⟩ = ⟨start, inner' ++ base⟩ := by
  induction steps generalizing inner with
  | nil => exact ⟨inner, rfl⟩
  | cons step steps ih =>
      rw [List.foldl_cons]
      rcases step_cases step with hstep | rfl | hstep
      · rw [follow_still _ hstep]
        exact ih ((risesAtMost_still hstep).mp h)
      · cases inner with
        | nil => exact absurd h not_risesAtMost_up
        | cons e inner =>
            rw [List.cons_append, follow_up_cons]
            exact ih (risesAtMost_up.mp h)
      · rw [follow_entry _ hstep, ← List.cons_append]
        exact ih ((risesAtMost_entry hstep).mp h)

/-- What every step keeps holds of the location where the steps lead. -/
theorem foldl_follow_induction {P : Location → Prop} {p : Location} (hp : P p)
    (h : ∀ q, P q → ∀ step ∈ steps, P (q.follow step)) : P (steps.foldl follow p) :=
  List.foldlRecOn steps follow hp h

theorem start_follow_root {p : Location} (h : p.start = .root) (step : String) :
    (p.follow step).start = .root := by
  obtain ⟨start, below⟩ := p
  obtain rfl : start = .root := h
  rcases step_cases step with hstep | rfl | hstep
  · rw [follow_still _ hstep]
  · cases below with
    | nil => rw [follow_up_nil]; rfl
    | cons e below => rw [follow_up_cons]
  · rw [follow_entry _ hstep]

theorem start_ofPath_of_absolute {path : String} (h : IsAbsolute path) :
    (ofPath path).start = .root := by
  apply foldl_follow_induction (P := fun q => q.start = .root)
  · exact if_pos h
  · exact fun q hq step _ => start_follow_root hq step

/-- Steps that do not rise above a location lead to one inside it. -/
theorem inside_of_risesAtMost (p : Location) (h : RisesAtMost 0 steps) :
    (steps.foldl follow p).Inside p := by
  obtain ⟨inner, hinner⟩ : ∃ inner, steps.foldl follow ⟨p.start, [] ++ p.below⟩ =
      ⟨p.start, inner ++ p.below⟩ := exists_foldl_follow p.below h
  rw [List.nil_append] at hinner
  rw [hinner]
  exact ⟨rfl, List.suffix_append _ _⟩

theorem notMem_below_follow {d : String} (hstep : d ≠ step) {p : Location} (hp : d ∉ p.below) :
    d ∉ (p.follow step).below := by
  obtain ⟨start, below⟩ := p
  rcases step_cases step with hstill | rfl | hentry
  · rwa [follow_still _ hstill]
  · cases below with
    | nil => rwa [follow_up_nil]
    | cons e below =>
        rw [follow_up_cons]
        exact fun hd => hp (List.mem_cons_of_mem e hd)
  · rw [follow_entry _ hentry, List.mem_cons, not_or]
    exact ⟨hstep, hp⟩

theorem notMem_below_foldl_follow {d : String} (hsteps : d ∉ steps) {p : Location}
    (hp : d ∉ p.below) : d ∉ (steps.foldl follow p).below := by
  apply foldl_follow_induction (P := fun q => d ∉ q.below) hp
  intro q hq step hstep
  apply notMem_below_follow _ hq
  rintro rfl
  exact hsteps hstep

/-- Steps that rise above a directory do not return to it, unless they name it. -/
theorem notMem_below_of_not_risesAtMost {d : String} (hsteps : d ∉ steps) {inner : List String}
    (hinner : d ∉ inner) (h : ¬ RisesAtMost inner.length steps) :
    d ∉ (steps.foldl follow ⟨start, inner ++ [d]⟩).below := by
  induction steps generalizing inner with
  | nil => exact absurd (by simp [RisesAtMost]) h
  | cons step steps ih =>
      rw [List.mem_cons, not_or] at hsteps
      rw [List.foldl_cons]
      rcases step_cases step with hstep | rfl | hstep
      · rw [follow_still _ hstep]
        exact ih hsteps.2 hinner (mt (risesAtMost_still hstep).mpr h)
      · cases inner with
        | nil =>
            -- here the directory itself is left
            rw [List.nil_append, follow_up_cons]
            exact notMem_below_foldl_follow hsteps.2 List.not_mem_nil
        | cons e inner =>
            rw [List.cons_append, follow_up_cons]
            exact ih hsteps.2 (fun hd => hinner (List.mem_cons_of_mem e hd))
              (mt risesAtMost_up.mpr h)
      · rw [follow_entry _ hstep, ← List.cons_append]
        have houter : d ∉ step :: inner := by
          rw [List.mem_cons, not_or]
          exact ⟨hsteps.1, hinner⟩
        exact ih hsteps.2 houter (mt (risesAtMost_entry hstep).mpr h)

end Location

/-! ### Walks -/

namespace FileTree

open Location

variable {above : List FileTree} {t : FileTree}

theorem walk_still {step : String} (h : step = "" ∨ step = ".") (entries : NameMap FileTree)
    (rest : List String) :
    walk above (directory entries) (step :: rest) = walk above (directory entries) rest :=
  if_pos h

theorem walk_up_nil (entries : NameMap FileTree) (rest : List String) :
    walk [] (directory entries) (".." :: rest) = walk [] empty rest := by
  simp [walk]

theorem walk_up_cons (outer : FileTree) (entries : NameMap FileTree) (rest : List String) :
    walk (outer :: above) (directory entries) (".." :: rest) = walk above outer rest := by
  simp [walk]

theorem walk_entry {step : String} (h : IsEntry step) (entries : NameMap FileTree)
    (rest : List String) : walk above (directory entries) (step :: rest) =
      match entries.get? step with
      | some inner => walk (directory entries :: above) inner rest
      | none => .error .missing :=
  (if_neg (not_or.mpr ⟨h.1, h.2.1⟩)).trans (if_neg h.2.2)

/-- A walk goes on from where it has come, with some directories around. -/
theorem exists_walk_append (steps : List String) : ∀ (above : List FileTree) (t : FileTree),
    ∃ around, ∀ rest, walk above t (steps ++ rest) =
      (walk above t steps).bind fun u => walk around u rest := by
  induction steps with
  | nil => exact fun above t => ⟨above, fun rest => rfl⟩
  | cons step steps ih =>
      intro above t
      cases t with
      | file bytes => exact ⟨above, fun rest => rfl⟩
      | directory entries =>
          simp only [List.cons_append]
          rcases step_cases step with hstep | rfl | hstep
          · simpa only [walk_still hstep] using ih above (directory entries)
          · cases above with
            | nil => simpa only [walk_up_nil] using ih [] empty
            | cons outer above => simpa only [walk_up_cons] using ih above outer
          · simp only [walk_entry hstep]
            cases entries.get? step with
            | none => exact ⟨above, fun rest => rfl⟩
            | some inner => exact ih (directory entries :: above) inner

/-- The directories further out than the steps rise make no difference. -/
theorem walk_of_risesAtMost {steps : List String} {inner : List FileTree}
    (h : RisesAtMost inner.length steps) (above above' : List FileTree) (t : FileTree) :
    walk (inner ++ above) t steps = walk (inner ++ above') t steps := by
  -- `inner` are the directories that the walk has entered and may still leave
  induction steps generalizing inner t with
  | nil => rfl
  | cons step steps ih =>
      cases t with
      | file bytes => rfl
      | directory entries =>
          rcases step_cases step with hstep | rfl | hstep
          · rw [walk_still hstep, walk_still hstep]
            exact ih ((risesAtMost_still hstep).mp h) _
          · cases inner with
            | nil => exact absurd h not_risesAtMost_up
            | cons outer inner =>
                rw [List.cons_append, List.cons_append, walk_up_cons, walk_up_cons]
                exact ih (risesAtMost_up.mp h) _
          · rw [walk_entry hstep, walk_entry hstep]
            have hdown : RisesAtMost (directory entries :: inner).length steps :=
              (risesAtMost_entry hstep).mp h
            cases entries.get? step with
            | none => rfl
            | some e => exact ih hdown e

/-- A walk that goes on without rising above where it has come depends on nothing but the tree
there. -/
theorem walk_append {rest : List String} (h : RisesAtMost 0 rest) (steps : List String) :
    walk above t (steps ++ rest) = (walk above t steps).bind fun u => walk [] u rest := by
  obtain ⟨around, haround⟩ := exists_walk_append steps above t
  rw [haround]
  have hinner : RisesAtMost (List.length ([] : List FileTree)) rest := h
  congr 1
  funext u
  exact walk_of_risesAtMost hinner around [] u

/-- An empty step before others makes no difference: a file has nothing behind it in any case. -/
theorem walk_empty_step {rest : List String} (h : rest ≠ []) (u : FileTree) :
    ((walk [] u [""]).bind fun v => walk [] v rest) = walk [] u rest := by
  obtain ⟨step, rest, rfl⟩ := List.exists_cons_of_ne_nil h
  cases u with
  | file bytes => rfl
  | directory entries =>
      rw [walk_still (.inl rfl)]
      rfl

/-- What the steps of a path lead to in a tree. -/
def lead (t : FileTree) (path : String) : Except FileError FileTree :=
  walk [] (if IsAbsolute path then empty else t) (steps path)

theorem find_eq (t : FileTree) (path : String) : t.find path =
    if path = "" then .error .missing
    else if path.toList.contains '\x00' then .error .invalidName
    else t.lead path :=
  rfl

end FileTree

end TagTemplate
