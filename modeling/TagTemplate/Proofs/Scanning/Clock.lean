import TagTemplate.Proofs.Scanning.Advance

/-! # Reading by the clock

The loops that read a text are written with a way out where a round does not go forward.  Here they
have none: each round, and each text inside a block, is a call that takes one from a clock, and
there is no result if the clock runs out.  A scanner whose loops go forward reads every text in
time.

* `TagScanner.readWithin`: the reading of a text by the clock, without a way out.
* `Advances.readWithin_eq`: in time the parts are those that `readFrom` lists. -/

namespace TagTemplate

namespace TagScanner

/-! ### The loops -/

/-- The closing tag where as many blocks have been closed as were opened, in a number of rounds. -/
def balanceWithin (opener closer : Pattern) (skip : Nat → Nat → Option (Option Nat))
    (text : Array Char) : Nat → Nat → Nat → Option (Option (Nat × Nat))
  | 0, _, _ => none
  | n + 1, depth, pos =>
    match closer.find? text pos with
    | none => some none
    | some close =>
      let next := opener.find? text pos
      match skip pos (next.elim close.start fun o => min o.start close.start) with
      | none => none
      | some (some stop) => balanceWithin opener closer skip text n depth stop
      | some none =>
        match next.filter fun o => o.start < close.start with
        | some o => balanceWithin opener closer skip text n (depth + 1) o.stop
        | none =>
          match depth with
          | 0 => some (some (close.start, close.stop))
          | depth + 1 => balanceWithin opener closer skip text n depth close.stop

/-- The closing tag of a block whose inside begins at `pos`, nothing stepped over. -/
def plainCloserWithin (n : Nat) (m : TagMatcher) (text : Array Char) (pos : Nat) :
    Option (Option (Nat × Nat)) :=
  match m.closer with
  | none => some none
  | some c => balanceWithin m.opener.pattern c.pattern (fun _ _ => some none) text n 0 pos

/-- The end of the first raw block of another tag that opens from `pos` on and before `limit`, if
it is closed. -/
def skipRawWithin (s : TagScanner) (n : Nat) (tag : String) (text : Array Char)
    (pos limit : Nat) : Option (Option Nat) :=
  match earliest (s.rawOpeners tag text pos limit) with
  | none => some none
  | some (m, o) => (plainCloserWithin n m text o.stop).map fun r => r.map (·.2)

/-- The closing tag of a block whose inside begins at `pos`. -/
def closerWithin (s : TagScanner) (n : Nat) (m : TagMatcher) (text : Array Char) (pos : Nat) :
    Option (Option (Nat × Nat)) :=
  if m.tag.rawBody then plainCloserWithin n m text pos
  else
    match m.closer with
    | none => some none
    | some c =>
      balanceWithin m.opener.pattern c.pattern (s.skipRawWithin n m.tag.name text) text n 0 pos

/-- The parts of a text whose first byte is at `base`, from the position `cursor` on; the literal
text before it begins at `start`. -/
def readWithin (s : TagScanner) : Nat → Nat → Array Char → Nat → Nat → Option Reading
  | 0, _, _, _, _ => none
  | n + 1, base, text, start, cursor =>
    match s.find? text cursor with
    | none => some { parts := literalPart base text start text.size }
    | some m => do
      let before := literalPart base text start m.start
      let matched := slice text m.start m.stop
      let body := String.ofList (m.tag.body s.delimiters matched)
      if !m.tag.isBlock then
        let rest ← s.readWithin n base text m.stop m.stop
        let leaf := Part.leaf m.tag body (.ofList matched) (spanOf base text m.start m.stop)
        return { rest with parts := before ++ leaf :: rest.parts }
      else
        match ← s.closerWithin n m.matcher text m.stop with
        | some (close, stop) =>
          let inside := slice text m.stop close
          let span := spanOf base text m.start stop
          let inner : Reading ←
            if m.tag.rawBody then pure { parts := [.raw m.tag body (.ofList inside) span] }
            else do
              let r ← s.readWithin n (base + Text.offsetOf text.toList m.stop)
                (text.extract m.stop close) 0 0
              pure { r with parts := [.block m.tag body (.ofList inside) r.parts span] }
          let rest ← s.readWithin n base text stop stop
          return { parts := before ++ inner.parts ++ rest.parts,
                   errors := inner.errors ++ rest.errors }
        | none =>
          let rest ← s.readWithin n base text start m.stop
          return { rest with
            errors := .unclosedBlock m.tag.name (spanOf base text m.start m.stop) :: rest.errors }

/-! ### The search for closing tags -/

section balance
variable {opener closer : Pattern} {skip : Nat → Nat → Option Nat} {text : Array Char}

theorem balanceWithin_succ (n depth pos : Nat) :
    balanceWithin opener closer (fun p l => some (skip p l)) text (n + 1) depth pos =
      match balanceNext opener closer skip text depth pos with
      | some (depth', pos') =>
        balanceWithin opener closer (fun p l => some (skip p l)) text n depth' pos'
      | none => some ((closer.find? text pos).map fun close => (close.start, close.stop)) := by
  rw [balanceWithin, balanceNext]
  cases hclose : closer.find? text pos with
  | none => rfl
  | some close =>
      dsimp only
      cases skip pos _ with
      | some stop => rfl
      | none =>
          dsimp only
          cases (opener.find? text pos).filter fun o => o.start < close.start with
          | some o => rfl
          | none =>
              cases depth with
              | zero => rfl
              | succ depth => rfl

variable (ho : Takes opener text) (hc : Takes closer text) (hs : SkipsAhead skip text)
include ho hc hs

theorem balanceWithin_eq : ∀ {n depth pos : Nat}, text.size - pos < n →
    balanceWithin opener closer (fun p l => some (skip p l)) text n depth pos =
      some (balance opener closer skip text depth pos)
  | 0, _, _, hn => absurd hn (Nat.not_lt_zero _)
  | n + 1, depth, pos, hn => by
      rw [balanceWithin_succ, balance_eq ho hc hs]
      cases hnext : balanceNext opener closer skip text depth pos with
      | none => rfl
      | some r =>
          obtain ⟨depth', pos'⟩ := r
          have hlt := balanceNext_lt ho hc hs hnext
          exact balanceWithin_eq (by omega)

end balance

section blocks
variable {s : TagScanner} {text : Array Char} {n pos : Nat} {m : TagMatcher}
  (hopener : ∀ m ∈ s.matchers, m.closer.isSome → ∀ text, Takes m.opener.pattern text)
  (hcloser : ∀ m ∈ s.matchers, ∀ c, m.closer = some c → ∀ text, Takes c.pattern text)
include hopener hcloser

theorem plainCloserWithin_eq (hm : m ∈ s.matchers) (hn : text.size < n) :
    plainCloserWithin n m text pos = some (plainCloser? m text pos) := by
  unfold plainCloserWithin plainCloser?
  cases hc : m.closer with
  | none => rfl
  | some c =>
      exact balanceWithin_eq (hopener m hm (by rw [hc]; rfl) text) (hcloser m hm c hc text)
        (skipsAhead_noSkip text) (by omega)

theorem skipRawWithin_eq (tag : String) (limit : Nat) (hn : text.size < n) :
    s.skipRawWithin n tag text pos limit = some (s.skipRaw tag text pos limit) := by
  unfold skipRawWithin skipRaw
  cases hearliest : earliest (s.rawOpeners tag text pos limit) with
  | none => rfl
  | some x =>
      obtain ⟨m, o⟩ := x
      dsimp only
      rw [plainCloserWithin_eq hopener hcloser (found_of_earliest hearliest).1 hn]
      rfl

/-- The closing tag of a block is found in as many rounds as the text has characters. -/
theorem closerWithin_eq (hm : m ∈ s.matchers) (hn : text.size < n) :
    s.closerWithin n m text pos = some (s.closer? m text pos) := by
  unfold closerWithin closer?
  split
  · exact plainCloserWithin_eq hopener hcloser hm hn
  · cases hc : m.closer with
    | none => rfl
    | some c =>
        have hskip : s.skipRawWithin n m.tag.name text =
            fun p l => some (s.skipRaw m.tag.name text p l) := by
          funext p l
          exact skipRawWithin_eq hopener hcloser m.tag.name l hn
        dsimp only
        rw [hskip]
        exact balanceWithin_eq (hopener m hm (by rw [hc]; rfl) text) (hcloser m hm c hc text)
          (skipsAhead_skipRaw hopener hcloser m.tag.name text) (by omega)

end blocks

/-! ### Scanners that advance -/

namespace Advances

variable {s : TagScanner} (h : s.Advances)
include h

theorem takes_opener : ∀ m ∈ s.matchers, m.closer.isSome → ∀ text, Takes m.opener.pattern text :=
  fun _ hm hb _ _ _ hx => h.opener hm hb hx

theorem takes_closer : ∀ m ∈ s.matchers, ∀ c, m.closer = some c → ∀ text, Takes c.pattern text :=
  fun _ hm _ hc _ _ _ hx => h.closer hm hc hx

/-- A text is read in twice as many rounds as it has characters: the text inside a block is
shorter, and behind each tag less is left. -/
theorem readWithin_eq : ∀ {n : Nat} (base : Nat) {text : Array Char} (start : Nat) {cursor : Nat},
    text.size + (text.size - cursor) < n →
      s.readWithin n base text start cursor = some (s.readFrom base text start cursor)
  | 0, _, _, _, _, hn => absurd hn (Nat.not_lt_zero _)
  | n + 1, base, text, start, cursor, hn => by
      rw [h.readFrom_eq, readWithin, readOnce]
      cases hfind : s.find? text cursor with
      | none => rfl
      | some m =>
          have hm := h.find hfind
          have hafter (start : Nat) {pos : Nat} (hpos : cursor < pos) (hsize : pos ≤ text.size) :
              s.readWithin n base text start pos = some (s.readFrom base text start pos) :=
            readWithin_eq base start (by omega)
          have hcloser : s.closerWithin n m.matcher text m.stop =
              some (s.closer? m.matcher text m.stop) :=
            closerWithin_eq h.takes_opener h.takes_closer (mem_matchers hfind) (by omega)
          dsimp only
          split
          · rw [hafter m.stop (by omega) hm.2.2]
            rfl
          · rw [hcloser, Option.bind_eq_bind, Option.bind_some]
            cases hclose : s.closer? m.matcher text m.stop with
            | none =>
                dsimp only
                rw [hafter start (by omega) hm.2.2]
                rfl
            | some r =>
                obtain ⟨close, stop⟩ := r
                have hbounds := h.closer?_bounds (mem_matchers hfind) hclose
                have hinside : s.readWithin n (base + Text.offsetOf text.toList m.stop)
                    (text.extract m.stop close) 0 0 = some (s.readFrom
                      (base + Text.offsetOf text.toList m.stop) (text.extract m.stop close) 0 0) :=
                  readWithin_eq _ 0 (by rw [Array.size_extract]; omega)
                dsimp only
                rw [hafter stop (by omega) hbounds.2.2, hinside]
                split <;> rfl

end Advances

end TagScanner

end TagTemplate
