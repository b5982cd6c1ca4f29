import TagTemplate.Proofs.Scanning.Advance

/-! # Readings without errors

A text that is read without errors is literal text, or it is a tag with what comes before it, and
then the rest.

* `yields_of_errors`, `Yields.readFrom_eq`: `Yields` describes the readings without errors. -/

namespace TagTemplate

namespace TagScanner

/-- The parts that are read from a position on, where all blocks are closed. -/
inductive Yields (s : TagScanner) : Nat → Array Char → Nat → List Part → Prop
  | done {base : Nat} {text : Array Char} {pos : Nat} (hfind : s.find? text pos = none) :
    Yields s base text pos (literalPart base text pos text.size)
  | leaf {base : Nat} {text : Array Char} {pos : Nat} {m : TagMatch} {rest : List Part}
    (hfind : s.find? text pos = some m) (hleaf : m.tag.isBlock = false)
    (hrest : Yields s base text m.stop rest) :
    Yields s base text pos (literalPart base text pos m.start ++
      .leaf m.tag (s.foundBody text m) (.ofList (opened text m)) (spanOf base text m.start m.stop)
        :: rest)
  | raw {base : Nat} {text : Array Char} {pos close stop : Nat} {m : TagMatch} {rest : List Part}
    (hfind : s.find? text pos = some m) (hblock : m.tag.isBlock = true)
    (hraw : m.tag.rawBody = true) (hclose : s.closer? m.matcher text m.stop = some (close, stop))
    (hrest : Yields s base text stop rest) :
    Yields s base text pos (literalPart base text pos m.start ++
      .raw m.tag (s.foundBody text m) (.ofList (slice text m.stop close))
        (spanOf base text m.start stop) :: rest)
  | block {base : Nat} {text : Array Char} {pos close stop : Nat} {m : TagMatch}
    {inner rest : List Part}
    (hfind : s.find? text pos = some m) (hblock : m.tag.isBlock = true)
    (hraw : m.tag.rawBody = false) (hclose : s.closer? m.matcher text m.stop = some (close, stop))
    (hinner : Yields s (base + Text.offsetOf text.toList m.stop) (text.extract m.stop close) 0 inner)
    (hrest : Yields s base text stop rest) :
    Yields s base text pos (literalPart base text pos m.start ++
      .block m.tag (s.foundBody text m) (.ofList (slice text m.stop close)) inner
        (spanOf base text m.start stop) :: rest)

variable {s : TagScanner} (h : s.Advances) {base : Nat} {text : Array Char} {pos : Nat}
include h

theorem Yields.readFrom_eq {parts : List Part} (hy : s.Yields base text pos parts) :
    s.readFrom base text pos pos = { parts } := by
  induction hy with
  | done hfind => exact h.readFrom_end _ hfind
  | leaf hfind hleaf _ ih => rw [h.readFrom_leaf _ hfind hleaf, ih]
  | raw hfind hblock hraw hclose _ ih => rw [h.readFrom_raw _ hfind hblock hraw hclose, ih]
  | block hfind hblock hraw hclose _ _ ihi ihr =>
      rw [h.readFrom_block _ hfind hblock hraw hclose, ihi, ihr]
      rfl

theorem yields_of_errors (herrors : (s.readFrom base text pos pos).errors = []) :
    s.Yields base text pos (s.readFrom base text pos pos).parts := by
  -- by induction on the length of the text, and then on what is left of it
  generalize hn : text.size = n
  induction n using Nat.strongRecOn generalizing base text pos with
  | ind n ihinner =>
      generalize hk : text.size - pos = k
      induction k using Nat.strongRecOn generalizing pos with
      | ind k ih =>
          cases hfind : s.find? text pos with
          | none =>
              rw [h.readFrom_end base hfind]
              exact .done hfind
          | some m =>
              have hm := h.find hfind
              by_cases hblock : m.tag.isBlock = true
              · cases hclose : s.closer? m.matcher text m.stop with
                | none =>
                    rw [h.readFrom_unclosed base hfind hblock hclose] at herrors
                    cases herrors
                | some r =>
                    obtain ⟨close, stop⟩ := r
                    have hc := h.closer?_bounds (mem_matchers hfind) hclose
                    by_cases hraw : m.tag.rawBody = true
                    · rw [h.readFrom_raw base hfind hblock hraw hclose] at herrors ⊢
                      exact .raw hfind hblock hraw hclose (ih _ (by omega) herrors rfl)
                    · have hraw : m.tag.rawBody = false := Bool.eq_false_iff.mpr hraw
                      rw [h.readFrom_block base hfind hblock hraw hclose] at herrors ⊢
                      obtain ⟨hinner, hrest⟩ := List.append_eq_nil_iff.mp herrors
                      have hsize : (text.extract m.stop close).size < n := by
                        rw [Array.size_extract]
                        omega
                      exact .block hfind hblock hraw hclose (ihinner _ hsize hinner rfl)
                        (ih _ (by omega) hrest rfl)
              · have hleaf : m.tag.isBlock = false := Bool.eq_false_iff.mpr hblock
                rw [h.readFrom_leaf base hfind hleaf] at herrors ⊢
                exact .leaf hfind hleaf (ih _ (by omega) herrors rfl)

end TagScanner

end TagTemplate
