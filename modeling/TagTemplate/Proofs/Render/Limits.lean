import Mathlib.Data.ENat.Lattice
import Mathlib.Data.Nat.Digits.Defs
import TagTemplate.Proofs.Render.Pages
import TagTemplate.Proofs.Render.Rounds

/-! # Loops with a limit

A loop with a condition goes on while the condition holds, and a loop with a validator until a text
is accepted.  Both have a limit, and report an error where it ends them.

* `streak`: how often a condition holds in a row, with the body rendered in between.
* `UntilRun`: the attempts of a loop with a validator.
* `renderNode_limited`: a loop with a condition has as many rounds as the condition and the limit
  allow, and a loop with a validator has the text of the first attempt that is accepted. -/

namespace TagTemplate

/-! ### Counts -/

namespace Decimal

/-- The text is a natural number: decimal digits, after a plus sign or without one. -/
def Denotes (s : String) (n : Nat) : Prop :=
  ∃ digits : List Char, (s.toList = digits ∨ s.toList = '+' :: digits) ∧ digits ≠ [] ∧
    (∀ c ∈ digits, isDigit c = true) ∧
    n = Nat.ofDigits 10 (digits.map fun c => c.toNat - 48).reverse

theorem digitsValue_eq (digits : List Char) :
    digitsValue 0 digits = Nat.ofDigits 10 (digits.map fun c => c.toNat - 48).reverse := by
  rw [Nat.ofDigits_eq_foldr, List.foldr_reverse, List.foldl_map, digitsValue]
  simp only [Nat.cast_id, Nat.add_comm]

/-- What is read are the characters after a plus sign, or all of them if there is none. -/
theorem exists_readNatural?_eq (bound : Nat) (s : String) :
    ∃ ds, readNatural? bound s =
        (if ds ≠ [] ∧ ds.all isDigit ∧ digitsValue 0 ds ≤ bound then some (digitsValue 0 ds)
          else none) ∧
      (s.toList = ds ∨ s.toList = '+' :: ds) ∧
      ∀ digits : List Char, (s.toList = digits ∨ s.toList = '+' :: digits) →
        (∀ c ∈ digits, isDigit c = true) → digits = ds := by
  have hplus {l : List Char} : ¬ ∀ c ∈ '+' :: l, isDigit c = true := fun hall =>
    absurd (hall '+' List.mem_cons_self) (by decide)
  rw [readNatural?]
  split
  · next rest hs =>
    refine ⟨rest, rfl, .inr hs, fun digits hdigits hall => ?_⟩
    rw [hs] at hdigits
    rcases hdigits with rfl | hdigits
    · exact absurd hall hplus
    · exact (List.cons.inj hdigits).2.symm
  · next hs =>
    refine ⟨s.toList, rfl, .inl rfl, fun digits hdigits hall => ?_⟩
    rcases hdigits with hdigits | hdigits
    · exact hdigits.symm
    · exact absurd hdigits (hs digits)

theorem readNatural?_eq_some_iff {bound n : Nat} {s : String} :
    readNatural? bound s = some n ↔ Denotes s n ∧ n ≤ bound := by
  obtain ⟨ds, hread, hds, honly⟩ := exists_readNatural?_eq bound s
  rw [hread]
  constructor
  · intro h
    split_ifs at h with hdigits
    obtain ⟨hne, hall, hle⟩ := hdigits
    cases h
    exact ⟨⟨ds, hds, hne, List.all_eq_true.mp hall, digitsValue_eq ds⟩, hle⟩
  · rintro ⟨⟨digits, hs, hne, hall, rfl⟩, hle⟩
    obtain rfl := honly digits hs hall
    rw [← digitsValue_eq] at hle ⊢
    exact if_pos ⟨hne, List.all_eq_true.mpr hall, hle⟩

end Decimal

/-- The number of attempts that a node asks for: three if it does not say, or says it in words, and
one instead of none. -/
inductive Node.Asks (n : Node) : Nat → Prop
  | missing (h : n.attributes.text? "attempts" = none) : Asks n 3
  | malformed {text : String} (h : n.attributes.text? "attempts" = some text)
      (hnot : ∀ count ≤ Decimal.maxCount, ¬ Decimal.Denotes text count) : Asks n 3
  | zero {text : String} (h : n.attributes.text? "attempts" = some text)
      (hzero : Decimal.Denotes text 0) : Asks n 1
  | given {text : String} {count : Nat} (h : n.attributes.text? "attempts" = some text)
      (hcount : Decimal.Denotes text count) (hpos : 0 < count) (hle : count ≤ Decimal.maxCount) :
      Asks n count

namespace Rendering

theorem asks_attemptCount (n : Node) : n.Asks (attemptCount n) := by
  rw [attemptCount]
  cases h : n.attributes.text? "attempts" with
  | none => exact .missing h
  | some text =>
      rw [Option.bind_some]
      cases hread : Decimal.readNatural? Decimal.maxCount text with
      | none =>
          refine .malformed h fun count hle hcount => ?_
          rw [Decimal.readNatural?_eq_some_iff.mpr ⟨hcount, hle⟩] at hread
          cases hread
      | some count =>
          obtain ⟨hcount, hle⟩ := Decimal.readNatural?_eq_some_iff.mp hread
          cases count with
          | zero => exact .zero h hcount
          | succ count =>
              rw [Option.getD_some, Nat.max_eq_right (Nat.le_add_left 1 count)]
              exact .given h hcount (Nat.succ_pos count) hle

/-! ### Loops with a condition -/

/-- A round of a loop with a condition: the condition holds, and the body is rendered. -/
inductive WhileRound (body : Rendering String) (id : Nat) (index : Nat) (s : RenderState) :
    Except RenderError String → RenderState → Prop
  | intro {r : Except RenderError String} {t : RenderState} (hcond : s.condition id = true)
      (hrun : body s = (r, t)) : WhileRound body id index s r t

/-- The rounds of a loop with a condition, at most as many as the limit allows.  The condition is
tested once more after the last of them. -/
inductive WhileRun (body : Rendering String) (id limit first : Nat) (s : RenderState) :
    Except RenderError (List String) → RenderState → Prop
  | finished {texts : List String} {t : RenderState}
      (rounds : Rounds (WhileRound body id) first s texts t) (hle : texts.length ≤ limit)
      (hlimit : t.condition id = true → texts.length = limit) :
      WhileRun body id limit first s (.ok texts)
        (if t.condition id then t.report id .error "iteration limit reached" else t)
  | broken {texts : List String} {t u : RenderState} {x : RenderError}
      (rounds : Rounds (WhileRound body id) first s texts t) (hlt : texts.length < limit)
      (hlast : WhileRound body id (first + texts.length) t (.error x) u) :
      WhileRun body id limit first s (.error x) u

section condition
variable {body : Rendering String} {id : Nat} {s t u : RenderState}

theorem WhileRun.cons {limit first : Nat} {text : String} {r : Except RenderError (List String)}
    (h : WhileRound body id first s (.ok text) t)
    (rest : WhileRun body id limit (first + 1) t r u) :
    WhileRun body id (limit + 1) first s (r.map (text :: ·)) u := by
  cases rest with
  | finished rounds hle hlimit =>
      exact .finished (.cons h rounds) (Nat.succ_le_succ hle) fun hcond =>
        congrArg Nat.succ (hlimit hcond)
  | @broken texts _ _ _ rounds hlt hlast =>
      refine .broken (.cons h rounds) (Nat.succ_lt_succ hlt) ?_
      rwa [List.length_cons, Nat.add_comm texts.length, ← Nat.add_assoc]

/-- The condition is tested, then the limit, and then the body is rendered. -/
theorem whileTexts_run (body : Rendering String) (id : Nat) : ∀ (limit first : Nat)
    (s : RenderState), ∃ r t, WhileRun body id limit first s r t ∧
      whileTexts id body limit s = (r, t)
  | 0, first, s => by
      refine ⟨_, _, .finished .nil (Nat.le_refl 0) fun _ => rfl, ?_⟩
      rw [whileTexts, bind_of_ok (get_apply s)]
      split <;> rfl
  | limit + 1, first, s => by
      rw [whileTexts, bind_of_ok (get_apply s)]
      by_cases hcond : s.condition id = true
      · rw [if_pos hcond]
        cases hrun : body s with
        | mk r t =>
            have hround : WhileRound body id first s r t := ⟨hcond, hrun⟩
            cases r with
            | error x => exact ⟨_, t, .broken .nil (Nat.succ_pos limit) hround, bind_of_error hrun⟩
            | ok text =>
                obtain ⟨r, u, hrest, hloop⟩ := whileTexts_run body id limit (first + 1) t
                refine ⟨r.map (text :: ·), u, .cons hround hrest, (bind_of_ok hrun).trans ?_⟩
                rw [bind_apply, hloop]
                cases r <;> rfl
      · refine ⟨.ok [], s, ?_, ?_⟩
        · have hrounds : Rounds (WhileRound body id) first s [] s := .nil
          have hrun := WhileRun.finished hrounds (Nat.zero_le (limit + 1)) fun h => absurd h hcond
          rwa [if_neg hcond] at hrun
        · rw [if_neg hcond]
          rfl

/-- The state after a number of renderings of the body. -/
def after (body : Rendering String) (s : RenderState) (count : Nat) : RenderState :=
  (fun t => (body t).2)^[count] s

/-- How often the condition holds in a row, where the body is rendered after each test. -/
noncomputable def streak (body : Rendering String) (id : Nat) (s : RenderState) : ℕ∞ :=
  ⨅ i : {i : Nat // (after body s i).condition id = false}, (i.1 : ℕ∞)

theorem le_streak_iff {count : Nat} : (count : ℕ∞) ≤ streak body id s ↔
    ∀ i < count, (after body s i).condition id = true := by
  rw [streak, le_iInf_iff, Subtype.forall]
  refine forall_congr' fun i => ?_
  show (_ = false → (count : ℕ∞) ≤ (i : ℕ∞)) ↔ _
  rw [Nat.cast_le]
  cases (after body s i).condition id <;> simp

/-- The rounds of a loop with a condition are those in which it holds. -/
theorem rounds_condition {first : Nat} {texts : List String}
    (h : Rounds (WhileRound body id) first s texts t) :
    t = after body s texts.length ∧ ∀ i < texts.length, (after body s i).condition id = true := by
  induction h with
  | nil => exact ⟨rfl, fun i hi => absurd hi (Nat.not_lt_zero i)⟩
  | @cons first s t u text texts hround rest ih =>
      obtain ⟨hcond, hrun⟩ := hround
      have hafter (i : Nat) : after body s (i + 1) = after body t i := by
        rw [after, Function.iterate_succ_apply, hrun, after]
      obtain ⟨hu, hall⟩ := ih
      refine ⟨hu.trans (hafter texts.length).symm, fun i hi => ?_⟩
      cases i with
      | zero => exact hcond
      | succ i =>
          rw [hafter]
          exact hall i (Nat.lt_of_succ_lt_succ hi)

/-- The loop has the rounds that the condition and the limit allow. -/
theorem rounds_length {limit : Nat} {texts : List String}
    (h : Rounds (WhileRound body id) 0 s texts t) (hle : texts.length ≤ limit)
    (hlimit : t.condition id = true → texts.length = limit) :
    (texts.length : ℕ∞) = min (streak body id s) limit ∧
      (t.condition id = true ↔ (limit : ℕ∞) < streak body id s) := by
  obtain ⟨ht, hall⟩ := rounds_condition h
  have hstreak : (texts.length : ℕ∞) ≤ streak body id s := le_streak_iff.mpr hall
  have hmore : t.condition id = true ↔ (texts.length : ℕ∞) < streak body id s := by
    rw [← ENat.add_one_le_iff (ENat.natCast_ne_top _), ← Nat.cast_add_one, le_streak_iff, ht]
    refine ⟨fun hcond i hi => ?_, fun hcond => hcond _ (Nat.lt_succ_self _)⟩
    rcases Nat.lt_succ_iff_lt_or_eq.mp hi with hi | rfl
    · exact hall i hi
    · exact hcond
  by_cases hcond : t.condition id = true
  · obtain rfl := hlimit hcond
    exact ⟨(min_eq_right hstreak).symm, hmore⟩
  · have heq : streak body id s = texts.length :=
      le_antisymm (not_lt.mp (mt hmore.mpr hcond)) hstreak
    rw [heq]
    refine ⟨(min_eq_left (Nat.cast_le.mpr hle)).symm, fun h => absurd h hcond, fun h => ?_⟩
    exact absurd hle (Nat.not_le_of_lt (Nat.cast_lt.mp h))

end condition

/-! ### Loops with a validator -/

/-- An attempt of a loop with a validator: its number is a variable of the node when the rendering
of the body begins. -/
inductive AttemptRound (body : Rendering String) (id : Nat) (attempt : Nat) (s : RenderState) :
    Except RenderError String → RenderState → Prop
  | intro {start t : RenderState} {r : Except RenderError String}
      (hstart : start = s.bind id "@attempt" (Function.ofNat attempt))
      (hscope : (start.node id).scope.get? "@attempt" = some (Function.ofNat attempt))
      (hrun : body start = (r, t)) : AttemptRound body id attempt s r t

/-- The attempts of a loop with a validator: those whose texts are refused, and the last one, which
is accepted or is the last that may be made. -/
inductive UntilRun (body : Rendering String) (id : Nat) (accepts : Validator) (count first : Nat)
    (s : RenderState) : Except RenderError String → RenderState → Prop
  | accepted {refused : List String} {text : String} {t u : RenderState}
      (rounds : Rounds (AttemptRound body id) first s refused t)
      (hrefused : ∀ x ∈ refused, accepts x = false) (hlt : refused.length < count)
      (hlast : AttemptRound body id (first + refused.length) t (.ok text) u)
      (haccepts : accepts text = true) : UntilRun body id accepts count first s (.ok text) u
  | exhausted {refused : List String} {text : String} {t u : RenderState}
      (rounds : Rounds (AttemptRound body id) first s refused t)
      (hrefused : ∀ x ∈ refused, accepts x = false) (hcount : refused.length + 1 = count)
      (hlast : AttemptRound body id (first + refused.length) t (.ok text) u)
      (haccepts : accepts text = false) :
      UntilRun body id accepts count first s (.ok text) (u.report id .error "attempts exhausted")
  | broken {refused : List String} {x : RenderError} {t u : RenderState}
      (rounds : Rounds (AttemptRound body id) first s refused t)
      (hrefused : ∀ x ∈ refused, accepts x = false) (hlt : refused.length < count)
      (hlast : AttemptRound body id (first + refused.length) t (.error x) u) :
      UntilRun body id accepts count first s (.error x) u

section attempts
variable {body : Rendering String} {id : Nat} {accepts : Validator} {s t u : RenderState}

theorem UntilRun.cons {count first : Nat} {text : String} {r : Except RenderError String}
    (h : AttemptRound body id first s (.ok text) t) (haccepts : accepts text = false)
    (rest : UntilRun body id accepts count (first + 1) t r u) :
    UntilRun body id accepts (count + 1) first s r u := by
  have hnumber (l : List String) : first + 1 + l.length = first + (text :: l).length := by
    rw [List.length_cons, Nat.add_comm l.length, Nat.add_assoc]
  cases rest with
  | accepted rounds hrefused hlt hlast hlastAccepts =>
      rw [hnumber] at hlast
      exact .accepted (.cons h rounds) (List.forall_mem_cons.mpr ⟨haccepts, hrefused⟩)
        (Nat.succ_lt_succ hlt) hlast hlastAccepts
  | exhausted rounds hrefused hcount hlast hlastAccepts =>
      rw [hnumber] at hlast
      exact .exhausted (.cons h rounds) (List.forall_mem_cons.mpr ⟨haccepts, hrefused⟩)
        (congrArg Nat.succ hcount) hlast hlastAccepts
  | broken rounds hrefused hlt hlast =>
      rw [hnumber] at hlast
      exact .broken (.cons h rounds) (List.forall_mem_cons.mpr ⟨haccepts, hrefused⟩)
        (Nat.succ_lt_succ hlt) hlast

theorem exists_attemptRound (hbody : KeepsNode id body) (attempt : Nat) (hid : id < s.document.size) :
    ∃ r t, AttemptRound body id attempt s r t ∧ id < t.document.size ∧
      body (s.bind id "@attempt" (Function.ofNat attempt)) = (r, t) := by
  have hsize : id < (s.bind id "@attempt" (Function.ofNat attempt)).document.size :=
    Nat.lt_of_lt_of_le hid (Document.Stays.bind s.document id _ _).size_le
  exact ⟨_, _, ⟨rfl, Document.get?_scope_bind hid _ _, rfl⟩, hbody _ hsize, rfl⟩

/-- One more attempt than `remaining` is made, if no text is accepted. -/
theorem attemptsFrom_run (hbody : KeepsNode id body) (accepts : Validator) : ∀ (remaining first : Nat)
    (s : RenderState), id < s.document.size →
      ∃ r t, UntilRun body id accepts (remaining + 1) first s r t ∧
        attemptsFrom id body accepts first remaining s = (r, t)
  | 0, first, s, hid => by
      obtain ⟨r, t, hround, -, hrun⟩ := exists_attemptRound hbody first hid
      rw [attemptsFrom, bind_of_ok (modify_apply _ s)]
      cases r with
      | error x =>
          exact ⟨_, _, .broken .nil (List.forall_mem_nil _) (Nat.succ_pos 0) hround,
            bind_of_error hrun⟩
      | ok text =>
          rw [bind_of_ok hrun]
          cases haccepts : accepts text with
          | true =>
              exact ⟨_, _, .accepted .nil (List.forall_mem_nil _) (Nat.succ_pos 0) hround haccepts,
                rfl⟩
          | false => exact ⟨_, _, .exhausted .nil (List.forall_mem_nil _) rfl hround haccepts, rfl⟩
  | remaining + 1, first, s, hid => by
      obtain ⟨r, t, hround, ht, hrun⟩ := exists_attemptRound hbody first hid
      rw [attemptsFrom, bind_of_ok (modify_apply _ s)]
      cases r with
      | error x =>
          exact ⟨_, _, .broken .nil (List.forall_mem_nil _) (Nat.succ_pos _) hround,
            bind_of_error hrun⟩
      | ok text =>
          rw [bind_of_ok hrun]
          cases haccepts : accepts text with
          | true =>
              exact ⟨_, _, .accepted .nil (List.forall_mem_nil _) (Nat.succ_pos _) hround haccepts,
                rfl⟩
          | false =>
              obtain ⟨r, u, hrest, hloop⟩ :=
                attemptsFrom_run hbody accepts remaining (first + 1) t ht
              exact ⟨r, u, .cons hround haccepts hrest, hloop⟩

end attempts

/-! ### Nodes of both kinds -/

section nodes
variable (env : Environment) (depth id : Nat) (s : RenderState)

theorem renderNode_whileLoop (hk : (s.node id).kind = .whileLoop) :
    ∃ r t, WhileRun (held (renderNode env depth) id) id env.settings.maxIterations 0
        (s.report id .started "") r t ∧
      renderNode env depth id s = closing id (r.map String.join, t) := by
  obtain ⟨r, t, hrun, hloop⟩ := whileTexts_run (held (renderNode env depth) id) id
    env.settings.maxIterations 0 (s.report id .started "")
  refine ⟨r, t, hrun, ?_⟩
  rw [renderNode_of_own (by rw [hk]; rfl) (by rw [hk]; rfl), ownText,
    bind_of_ok (node_apply id _), s.node_report id .started "" id, hk]
  show closing id (whileLoop id _ _ _) = _
  rw [whileLoop, bind_apply, hloop]
  cases r <;> rfl

/-- A node of the second kind is rendered by a run of as many attempts as it may make. -/
theorem renderNode_untilLoop (hk : (s.node id).kind = .untilLoop) {accepts : Validator}
    (haccepts : ((s.node id).attributes.text? "validator").bind env.toolkit.validators.get? =
      some accepts) :
    ∃ r t, UntilRun (held (renderNode env depth) id) id accepts (attemptCount (s.node id)) 1
        (s.report id .started "") r t ∧ renderNode env depth id s = closing id (r, t) := by
  have hid : id < (s.report id .started "").document.size := by
    rw [s.report_document]
    exact RenderState.lt_size_of_kind (by rw [hk]; decide)
  obtain ⟨r, t, hrun, hloop⟩ := attemptsFrom_run (keepsNode_held env depth id) accepts
    (attemptCount (s.node id) - 1) 1 (s.report id .started "") hid
  have hpos : attemptCount (s.node id) - 1 + 1 = attemptCount (s.node id) :=
    Nat.sub_add_cancel (Nat.le_max_left 1 _)
  rw [hpos] at hrun
  refine ⟨r, t, hrun, ?_⟩
  rw [renderNode_of_own (by rw [hk]; rfl) (by rw [hk]; rfl), ownText,
    bind_of_ok (node_apply id _), s.node_report id .started "" id, hk]
  show closing id (untilLoop id _ _ _) = _
  rw [untilLoop, bind_of_ok (node_apply id _), s.node_report id .started "" id, haccepts, ← hloop]

end nodes

/-- A loop with a condition that succeeds has rendered its body as often as the condition held in a
row, but not more often than the limit allows; it has reported an error if and only if the
condition still held then.  A loop with a validator makes attempts, numbered from one, up to the
first whose text is accepted, or all that it may make; then it reports an error, and has the text of
the last attempt. -/
theorem renderNode_limited (env : Environment) (depth id : Nat) (s : RenderState) :
    let body := held (renderNode env depth) id
    let start := s.report id .started ""
    let limit := env.settings.maxIterations
    ((s.node id).kind = .whileLoop → ∃ texts t, Rounds (WhileRound body id) 0 start texts t ∧
      (∀ text u, renderNode env depth id s = (.ok text, u) →
        (texts.length : ℕ∞) = min (streak body id start) limit ∧
        (t.condition id = true ↔ (limit : ℕ∞) < streak body id start) ∧
        text = String.join texts ∧
        u = (if t.condition id then t.report id .error "iteration limit reached" else t).report id
          .complete "") ∧
      ∀ x u, renderNode env depth id s = (.error x, u) →
        texts.length < limit ∧ WhileRound body id texts.length t (.error x) u) ∧
    ((s.node id).kind = .untilLoop → ∀ accepts : Validator,
      ((s.node id).attributes.text? "validator").bind env.toolkit.validators.get? = some accepts →
        ∃ count r t, (s.node id).Asks count ∧ UntilRun body id accepts count 1 start r t ∧
          renderNode env depth id s = closing id (r, t)) := by
  intro body start limit
  refine ⟨fun hk => ?_, fun hk accepts haccepts => ?_⟩
  · obtain ⟨r, t, hrun, hrender⟩ := renderNode_whileLoop env depth id s hk
    rw [hrender]
    cases hrun with
    | @finished texts t rounds hle hlimit =>
        obtain ⟨hlength, hmore⟩ := rounds_length rounds hle hlimit
        refine ⟨texts, t, rounds, fun text u h => ?_, fun x u h => ?_⟩
        · cases h
          exact ⟨hlength, hmore, rfl, rfl⟩
        · cases h
    | @broken texts t u x rounds hlt hlast =>
        refine ⟨texts, t, rounds, fun text u h => ?_, fun y v h => ?_⟩
        · cases h
        · cases h
          rw [Nat.zero_add] at hlast
          exact ⟨hlt, hlast⟩
  · obtain ⟨r, t, hrun, hrender⟩ := renderNode_untilLoop env depth id s hk haccepts
    exact ⟨_, r, t, asks_attemptCount _, hrun, hrender⟩

/-- The text `{#while var=flag}o{/while}{#until validator=numeric}o{/until}`. -/
def limitedLoops : Script :=
  let none : Gap := ⟨[], bland_nil⟩
  let text : Script := .last ⟨['o'], List.forall_mem_singleton.mpr (by decide)⟩
  let flag : TagArgument := .pair ⟨"var".toList, rfl⟩ ⟨"flag".toList, rfl⟩
  let numeric : TagArgument := .pair ⟨"validator".toList, rfl⟩ ⟨"numeric".toList, rfl⟩
  .block none (.whileLoop ⟨flag, []⟩) text (.block none (.untilLoop ⟨numeric, []⟩) text
    (.last none))

/-- The state in which the root of that text is rendered, where the condition always holds. -/
def limitedState : RenderState :=
  pageState (.ofList [("flag", .bool true)]) (.ofList limitedLoops.print) (limitedLoops.parts 0)

/-- Both loops of that text, with a limit of two rounds. -/
theorem renderNode_limited_limitedState :
    let env : Environment := { usualEnvironment with settings := { maxIterations := 2 } }
    let body := held (renderNode env 0)
    (limitedState.node 1).kind = .whileLoop ∧ (limitedState.node 3).kind = .untilLoop ∧
      (∃ texts t, Rounds (WhileRound (body 1) 1) 0 (limitedState.report 1 .started "") texts t ∧
        ∀ text u, renderNode env 0 1 limitedState = (.ok text, u) → (texts.length : ℕ∞) =
          min (streak (body 1) 1 (limitedState.report 1 .started "")) (2 : Nat)) ∧
      ∃ count r t, (limitedState.node 3).Asks count ∧
        UntilRun (body 3) 3 Validator.numeric count 1 (limitedState.report 3 .started "") r t ∧
        renderNode env 0 3 limitedState = closing 3 (r, t) := by
  intro env body
  have hwhile : (limitedState.node 1).kind = .whileLoop := by decide +kernel
  have huntil : (limitedState.node 3).kind = .untilLoop := by decide +kernel
  have hvalidator : ((limitedState.node 3).attributes.text? "validator").bind
      env.toolkit.validators.get? = some Validator.numeric := by
    have htext : (limitedState.node 3).attributes.text? "validator" = some "numeric" := by
      decide +kernel
    rw [htext]
    rfl
  obtain ⟨texts, t, rounds, hcount, -⟩ := (renderNode_limited env 0 1 limitedState).1 hwhile
  exact ⟨hwhile, huntil, ⟨texts, t, rounds, fun text u h => (hcount text u h).1⟩,
    (renderNode_limited env 0 3 limitedState).2 huntil _ hvalidator⟩

end Rendering

end TagTemplate
