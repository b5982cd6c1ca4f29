import TagTemplate.Proofs.Render.Events
import TagTemplate.Proofs.Render.Heard

/-! # Renderings that are heard or not

A rendering whose events are all reported reports balanced events.  A second rendering of the same
nodes under settings that report events or not comes to the same result, with the same events or
none.  Under higher limits and another decision about missing sources it still does, as long as the
first rendering does not fail and no event says that it met a limit or missed a source.

* `Reports`: what a run of a step adds to the events.
* `Echoes`: a step and its counterpart under the other settings.
* `Loosens`: the settings that come into question.
* `renderNode_echoes`: rendering a node echoes under all of them. -/

namespace TagTemplate

/-! ### Runs of steps -/

namespace Rendering

/-- What a run from the state `s`, with a result and a state at its end, adds to the events: they
are balanced if it succeeds, and could be balanced if it fails. -/
structure Reports {α : Type} (s : RenderState) (p : Except RenderError α × RenderState)
    (events : List Event) : Prop where
  events_eq : p.2.events.toList = s.events.toList ++ events
  logs : Event.Logs p.1 events
  keeps : s.document.Keeps p.2.document
  audible {a : α} (h : p.1 = .ok a) : p.2.document.Audible

/-- A run from the state `t` comes to the same result and the same variables as another one that
reports the events, and reports the same, or nothing if it is not heard. -/
structure Answers {α : Type} (b : Bool) (t : RenderState)
    (p q : Except RenderError α × RenderState) (events : List Event) : Prop where
  result : q.1 = p.1
  globals : q.2.globals = p.2.globals
  events_eq : q.2.events.toList = t.events.toList ++ if b then events else []
  heard {a : α} (h : p.1 = .ok a) : p.2.Heard b q.2

/-- The run has failed, or has met a limit or missed a source. -/
def Escapes {α : Type} (r : Except RenderError α) (events : List Event) : Prop :=
  (∃ e ∈ events, e.IsGuard) ∨ ∃ err, r = .error err

/-- A run that reports the events, and its counterpart; where `free` holds, the counterpart has to
answer only if the first run does not escape. -/
structure Echo {α : Type} (free : Prop) (b : Bool) (s t : RenderState)
    (p q : Except RenderError α × RenderState) (events : List Event) : Prop where
  reports : Reports s p events
  answers : Answers b t p q events ∨ free ∧ Escapes p.1 events

section runs
variable {α β : Type} {free : Prop} {b : Bool} {s t s' t' u : RenderState} {es fs : List Event}

theorem Reports.trans {a : α} {p : Except RenderError β × RenderState}
    (h : Reports s (.ok a, s') es) (h' : Reports s' p fs) : Reports s p (es ++ fs) where
  events_eq := by rw [h'.events_eq, h.events_eq, List.append_assoc]
  logs := .append h.logs.balanced h'.logs
  keeps := h.keeps.trans h'.keeps
  audible := h'.audible

theorem Reports.of_error {e : RenderError}
    (h : Reports s ((.error e, s') : Except RenderError α × RenderState) es) :
    Reports s ((.error e, s') : Except RenderError β × RenderState) es :=
  ⟨h.events_eq, h.logs.of_error, h.keeps, fun h => by cases h⟩

theorem Answers.trans {a : α} {p q : Except RenderError β × RenderState}
    {r : Except RenderError α} (h : Answers b t (.ok a, s') (r, t') es) (h' : Answers b t' p q fs) :
    Answers b t p q (es ++ fs) where
  result := h'.result
  globals := h'.globals
  events_eq := by
    rw [h'.events_eq, h.events_eq, List.append_assoc]
    cases b <;> rfl
  heard := h'.heard

theorem Escapes.of_subset {r : Except RenderError β} {a : α}
    (h : Escapes (.ok a : Except RenderError α) es) (hsub : es ⊆ fs) : Escapes r fs := by
  rcases h with ⟨e, he, hguard⟩ | ⟨_, herr⟩
  · exact .inl ⟨e, hsub he, hguard⟩
  · cases herr

theorem Escapes.right {r : Except RenderError β} (h : Escapes r fs) : Escapes r (es ++ fs) :=
  h.imp_left fun ⟨e, he, hguard⟩ => ⟨e, List.mem_append_right es he, hguard⟩

theorem Echo.trans {a : α} {r : Except RenderError α} {p q : Except RenderError β × RenderState}
    (h : Echo free b s t (.ok a, s') (r, t') es)
    (ha : Answers b t (.ok a, s') (r, t') es) (h' : Echo free b s' t' p q fs) :
    Echo free b s t p q (es ++ fs) :=
  ⟨h.reports.trans h'.reports, h'.answers.imp ha.trans fun hf => ⟨hf.1, hf.2.right⟩⟩

/-- After an escape the counterpart may do anything. -/
theorem Reports.echo_of_escapes {p q : Except RenderError α × RenderState} (h : Reports s p es)
    (hfree : free) (he : Escapes p.1 es) : Echo free b s t p q es :=
  ⟨h, .inr ⟨hfree, he⟩⟩

theorem Echo.of_silent {f : RenderState → RenderState} (hf : RenderState.IsSilent f)
    (hs : s.document.Audible) (h : s.Heard b t) (r : Except RenderError α) :
    Echo free b s t (r, f s) (r, f t) [] := by
  refine ⟨⟨?_, .of_balanced .nil, hf.keeps s, fun _ => hf.audible hs⟩,
    .inl ⟨rfl, (hf.heard h).globals, ?_, fun _ => hf.heard h⟩⟩
  · rw [hf.events, List.append_nil]
  · rw [hf.events, ite_self, List.append_nil]

/-- More nodes whose events are all reported, and the same ones heard or not. -/
theorem Reports.grow (hs : s.document.Audible) {ns : List Node}
    (hns : ns.map (Node.hear true) = ns) (a : α) : Reports s (.ok a, s.grow ns) [] := by
  refine ⟨(List.append_nil _).symm, .of_balanced .nil, .of_stays (.append _ _), fun _ => ?_⟩
  have happend := s.document.hear_append true ns
  rwa [hs, hns] at happend

theorem Answers.grow (h : s.Heard b t) (ns : List Node) (a : α) :
    Answers b t (.ok a, s.grow ns) (.ok a, t.grow (ns.map (Node.hear b))) [] := by
  refine ⟨rfl, h.globals, ?_, fun _ => ⟨?_, h.globals, h.macros⟩⟩
  · rw [ite_self, List.append_nil]
    rfl
  · rw [RenderState.grow, h.document]
    exact (s.document.hear_append b ns).symm

/-! Events around a run. -/

variable {e e' : Event} {a : α}

theorem Reports.tell (hs : s.document.Audible) (he : Event.Balanced [e]) (a : α) :
    Reports s (.ok a, s.tell true e) [e] := by
  refine ⟨s.tell_events true e, .of_balanced he, ?_, fun _ => ?_⟩
  · rw [RenderState.tell_document]
    exact .refl _
  · rwa [RenderState.tell_document]

theorem Answers.before {p q : Except RenderError α × RenderState}
    (h : Answers b (t.tell b e) p q es) : Answers b t p q (e :: es) := by
  refine ⟨h.result, h.globals, ?_, h.heard⟩
  rw [h.events_eq, RenderState.tell_events, List.append_assoc]
  cases b <;> rfl

theorem Answers.after (h : Answers b t (.ok a, s') (.ok a, t') es) (e : Event) :
    Answers b t (.ok a, s'.tell true e) (.ok a, t'.tell b e) (es ++ [e]) := by
  refine ⟨rfl, ?_, ?_, fun _ => (h.heard rfl).tell true b e e⟩
  · rw [RenderState.tell_globals, RenderState.tell_globals]
    exact h.globals
  · rw [RenderState.tell_events, h.events_eq, List.append_assoc]
    cases b <;> rfl

theorem Answers.refl (h : s.Heard b t) (a : α) : Answers b t (.ok a, s) (.ok a, t) [] :=
  ⟨rfl, h.globals, by rw [ite_self, List.append_nil], fun _ => h⟩

theorem Reports.opened {p : Except RenderError α × RenderState}
    (h : Reports (s.tell true e) p es) :
    p.2.events.toList = s.events.toList ++ e :: es ∧ s.document.Keeps p.2.document := by
  obtain ⟨hevents, _, hkeeps, _⟩ := h
  rw [RenderState.tell_events, List.append_assoc] at hevents
  rw [RenderState.tell_document] at hkeeps
  exact ⟨hevents, hkeeps⟩

theorem Reports.enclose_error {err : RenderError} {tag detail : String}
    (h : Reports (s.tell true ⟨.started, tag, detail⟩)
      ((.error err, s') : Except RenderError α × RenderState) es) :
    Reports s ((.error err, s') : Except RenderError β × RenderState)
      (⟨.started, tag, detail⟩ :: es) :=
  ⟨h.opened.1, h.logs.enclose_error tag detail, h.opened.2, fun h => by cases h⟩

theorem Reports.enclose {tag detail : String}
    (h : Reports (s.tell true ⟨.started, tag, detail⟩) (.ok a, s') es) :
    Reports s (.ok a, s'.tell true ⟨.complete, tag, detail⟩)
      (⟨.started, tag, detail⟩ :: es ++ [⟨.complete, tag, detail⟩]) := by
  obtain ⟨hevents, hkeeps⟩ := h.opened
  refine ⟨?_, .of_balanced (h.logs.balanced.enclose tag detail), ?_, fun _ => ?_⟩
  · rw [RenderState.tell_events, hevents, List.append_assoc]
    rfl
  · rwa [RenderState.tell_document]
  · rw [RenderState.tell_document]
    exact h.audible rfl

end runs

/-- The step `y` is the counterpart of the step `x` in all states with at least `n` nodes. -/
def Echoes {α : Type} (free : Prop) (b : Bool) (n : Nat) (x y : Rendering α) : Prop :=
  ∀ s t : RenderState, s.document.Audible → s.Heard b t → n ≤ s.document.size →
    ∃ events, Echo free b s t (x s) (y t) events

namespace Echoes

variable {α β : Type} {free : Prop} {b : Bool} {n id : Nat}

theorem of_silent {f : RenderState → RenderState} (hf : RenderState.IsSilent f)
    (r : Except RenderError α) : Echoes free b n (fun s => (r, f s)) fun s => (r, f s) :=
  fun _ _ hs h _ => ⟨[], .of_silent hf hs h r⟩

theorem pure (a : α) : Echoes free b n (pure a) (pure a) :=
  of_silent ⟨fun _ => rfl, fun _ => .refl _, fun h => h⟩ (.ok a)

theorem throw (e : RenderError) : Echoes free b n (throw e : Rendering α) (throw e) :=
  of_silent ⟨fun _ => rfl, fun _ => .refl _, fun h => h⟩ (.error e)

theorem modify {f : RenderState → RenderState} (hf : RenderState.IsSilent f) :
    Echoes free b n (modify f) (modify f) :=
  of_silent hf (.ok PUnit.unit)

theorem mono {m : Nat} {x y : Rendering α} (hm : m ≤ n) (h : Echoes free b m x y) :
    Echoes free b n x y :=
  fun s t hs hst hn => h s t hs hst (Nat.le_trans hm hn)

theorem bind {x y : Rendering α} {f f' : α → Rendering β} (hx : Echoes free b n x y)
    (hf : ∀ a, Echoes free b n (f a) (f' a)) : Echoes free b n (x >>= f) (y >>= f') := by
  intro s t hs h hn
  obtain ⟨es, hecho⟩ := hx s t hs h hn
  rw [bind_apply, bind_apply]
  generalize x s = p, y t = q at hecho
  obtain ⟨r, s'⟩ := p
  obtain ⟨r', t'⟩ := q
  obtain ⟨hreports, hanswers⟩ := id hecho
  cases r with
  | error e =>
      refine ⟨es, hreports.of_error, hanswers.imp (fun ha => ?_) fun hf => ⟨hf.1, .inr ⟨e, rfl⟩⟩⟩
      obtain ⟨hresult, hglobals, hevents, _⟩ := ha
      cases hresult
      exact ⟨rfl, hglobals, hevents, fun h => by cases h⟩
  | ok a =>
      have hs' := hreports.audible rfl
      have hn' := Nat.le_trans hn hreports.keeps.size_le
      rcases hanswers with ha | hfree
      · have hresult := ha.result
        cases hresult
        obtain ⟨fs, hnext⟩ := hf a s' t' hs' (ha.heard rfl) hn'
        exact ⟨es ++ fs, hecho.trans ha hnext⟩
      · obtain ⟨u, hu⟩ := RenderState.exists_heard b s'
        obtain ⟨fs, hnext⟩ := hf a s' u hs' hu hn'
        exact ⟨es ++ fs, (hreports.trans hnext.reports).echo_of_escapes hfree.1
          (hfree.2.of_subset (List.subset_append_left es fs))⟩

theorem map {x y : Rendering α} (f : α → β) (hx : Echoes free b n x y) :
    Echoes free b n (f <$> x) (f <$> y) := by
  rw [← bind_pure_comp, ← bind_pure_comp]
  exact hx.bind fun a => .pure (f a)

theorem get_bind {f f' : RenderState → Rendering β}
    (hf : ∀ s t, s.Heard b t → Echoes free b n (f s) (f' t)) :
    Echoes free b n (get >>= f) (get >>= f') :=
  fun s t hs h hn => hf s t h s t hs h hn

theorem node_bind (hid : id < n) {f f' : Node → Rendering β}
    (hf : ∀ m, Echoes free b n (f m) (f' (m.hear b))) :
    Echoes free b n (node id >>= f) (node id >>= f') := by
  intro s t hs h hn
  have hm := hf (s.node id) s t hs h hn
  rw [← h.node (Nat.lt_of_lt_of_le hid hn)] at hm
  exact hm

theorem ensuring_setScope {x y : Rendering α} (hx : Echoes free b n x y) (scope : Scope) :
    Echoes free b n (ensuring x (·.setScope id scope)) (ensuring y (·.setScope id scope)) := by
  have hf := RenderState.IsSilent.setScope id scope
  intro s t hs h hn
  obtain ⟨es, hreports, hanswers⟩ := hx s t hs h hn
  rw [ensuring_apply, ensuring_apply]
  exact ⟨es, ⟨hreports.events_eq, hreports.logs, hreports.keeps.trans (hf.keeps _),
    fun hok => hf.audible (hreports.audible hok)⟩, hanswers.imp_left fun ha =>
      ⟨ha.result, ha.globals, ha.events_eq, fun hok => hf.heard (ha.heard hok)⟩⟩

theorem of_escapes {x y : Rendering α} (hfree : free)
    (hx : ∀ s : RenderState, s.document.Audible → n ≤ s.document.size →
      ∃ events, Reports s (x s) events ∧ Escapes (x s).1 events) : Echoes free b n x y := by
  intro s t hs _ hn
  obtain ⟨es, hreports, hescapes⟩ := hx s hs hn
  exact ⟨es, hreports.echo_of_escapes hfree hescapes⟩

/-! Events. -/

theorem report (hid : id < n) {kind : EventKind} (hs : kind ≠ .started) (hc : kind ≠ .complete)
    (detail : String) : Echoes free b n (report id kind detail) (report id kind detail) := by
  intro s t haudible h hn
  have hid' := Nat.lt_of_lt_of_le hid hn
  rw [report_apply, report_apply, RenderState.report_of_audible haudible hid', h.report hid']
  exact ⟨_, .tell haudible (.single hs hc) PUnit.unit, .inl ((Answers.refl h _).after _)⟩

theorem error (hid : id < n) (detail : String) :
    Echoes free b n (Rendering.report id .error detail) (Rendering.report id .error detail) :=
  report hid (by decide) (by decide) detail

theorem error_if (hid : id < n) {c : Prop} [Decidable c] (detail : String)
    {f f' : Unit → Rendering α} (hf : Echoes free b n (f ⟨⟩) (f' ⟨⟩)) :
    Echoes free b n (if c then Rendering.report id .error detail >>= f else f ⟨⟩)
      (if c then Rendering.report id .error detail >>= f' else f' ⟨⟩) := by
  split
  · exact (error hid detail).bind fun _ => hf
  · exact hf

theorem of_tell (hfree : free) {x : Rendering Unit} {detail : String}
    (hd : Event.TellsGuard detail)
    (hx : ∀ s : RenderState, s.document.Audible → n ≤ s.document.size →
      ∃ tag, x s = (.ok ⟨⟩, s.tell true ⟨.error, tag, detail⟩)) (a : α) (y : Rendering α) :
    Echoes free b n (do x; return a) y := by
  refine of_escapes hfree fun s hs hn => ?_
  obtain ⟨tag, hrun⟩ := hx s hs hn
  rw [bind_of_ok hrun]
  exact ⟨_, .tell hs (.error tag detail) a,
    .inl ⟨⟨.error, tag, detail⟩, List.mem_singleton_self _, rfl, hd⟩⟩

theorem of_guard (hfree : free) (hid : id < n) {detail : String} (hd : Event.TellsGuard detail)
    (a : α) (y : Rendering α) :
    Echoes free b n (do Rendering.report id .error detail; return a) y :=
  of_tell hfree hd (fun s hs hn => ⟨(s.node id).label, by
    rw [report_apply, RenderState.report_of_audible hs (Nat.lt_of_lt_of_le hid hn)]⟩) a y

theorem of_throw (hfree : free) (e : RenderError) (f : β → Rendering α) (y : Rendering α) :
    Echoes free b n ((MonadExcept.throw e : Rendering β) >>= f) y := by
  refine of_escapes hfree fun s _ _ => ⟨[], ?_, .inr ⟨e, rfl⟩⟩
  exact ⟨(List.append_nil _).symm, .of_balanced .nil, .refl _, fun h => by cases h⟩

theorem enclose (hid : id < n) {x y : Rendering α} (detail : String) (hx : Echoes free b n x y) :
    Echoes free b n
      (do
        Rendering.report id .started detail
        let a ← x
        Rendering.report id .complete detail
        return a)
      (do
        Rendering.report id .started detail
        let a ← y
        Rendering.report id .complete detail
        return a) := by
  intro s t hs h hn
  have hid' := Nat.lt_of_lt_of_le hid hn
  have hstart := RenderState.report_of_audible hs hid' .started detail
  have hstart' := h.report hid' .started detail
  obtain ⟨es, hreports, hanswers⟩ := hx (s.tell true ⟨.started, (s.node id).label, detail⟩)
    (t.tell b ⟨.started, (s.node id).label, detail⟩) (by rwa [RenderState.tell_document])
    (h.tell true b _ _) (by rwa [RenderState.tell_document])
  rw [bind_of_ok (report_apply id .started detail s), hstart,
    bind_of_ok (report_apply id .started detail t), hstart', bind_apply, bind_apply]
  generalize x (s.tell true _) = p, y (t.tell b _) = q at hreports hanswers ⊢
  obtain ⟨r, s'⟩ := p
  obtain ⟨r', t'⟩ := q
  cases r with
  | error err =>
      refine ⟨_, hreports.enclose_error, hanswers.imp (fun ha => ?_) fun hf =>
        ⟨hf.1, .inr ⟨err, rfl⟩⟩⟩
      have hresult := ha.result
      cases hresult
      exact ha.before
  | ok a =>
      have hkeeps := hreports.opened.2
      have hlast := Nat.lt_of_lt_of_le hid' hkeeps.size_le
      have hlabel : (s'.node id).label = (s.node id).label := hkeeps.label hid'
      have hend := RenderState.report_of_audible (hreports.audible rfl) hlast .complete detail
      dsimp only at hend ⊢
      rw [hlabel] at hend
      rw [bind_of_ok (report_apply id .complete detail s'), hend]
      refine ⟨_, hreports.enclose, hanswers.imp (fun ha => ?_) fun hf => ⟨hf.1,
        hf.2.of_subset fun e he => List.mem_append_left _ (List.mem_cons_of_mem _ he)⟩⟩
      have hresult := ha.result
      cases hresult
      have hend' := (ha.heard rfl).report hlast .complete detail
      rw [hlabel] at hend'
      dsimp only
      rw [bind_of_ok (report_apply id .complete detail t'), hend']
      exact ha.before.after _

theorem ite {c : Prop} [Decidable c] {x x' y y' : Rendering α} (hx : Echoes free b n x x')
    (hy : Echoes free b n y y') : Echoes free b n (if c then x else y) (if c then x' else y') := by
  split
  · exact hx
  · exact hy

theorem mapM {γ : Type} {f f' : γ → Rendering β} (l : List γ)
    (hf : ∀ c ∈ l, Echoes free b n (f c) (f' c)) : Echoes free b n (l.mapM f) (l.mapM f') := by
  induction l with
  | nil => exact .pure _
  | cons c l ih =>
      rw [List.mapM_cons, List.mapM_cons]
      refine (hf c List.mem_cons_self).bind fun _ => ?_
      exact (ih fun d hd => hf d (List.mem_cons_of_mem c hd)).bind fun _ => .pure _

theorem forM {γ : Type} {f f' : γ → Rendering Unit} (l : List γ)
    (hf : ∀ c ∈ l, Echoes free b n (f c) (f' c)) :
    Echoes free b n
      (forIn l PUnit.unit fun c _ => do
        f c
        return ForInStep.yield PUnit.unit)
      (forIn l PUnit.unit fun c _ => do
        f' c
        return ForInStep.yield PUnit.unit) := by
  induction l with
  | nil => exact .pure _
  | cons c l ih =>
      rw [List.forIn_cons, List.forIn_cons]
      refine ((hf c List.mem_cons_self).bind fun _ => .pure _).bind fun r => ?_
      cases r with
      | done b => exact .pure _
      | yield b => exact ih fun d hd => hf d (List.mem_cons_of_mem c hd)

end Echoes

/-! ### Settings -/

/-- The second limit is the first one, or where `free` holds, any that is not lower. -/
def Loosened (free : Prop) (n m : Nat) : Prop :=
  m = n ∨ free ∧ n ≤ m

namespace Loosened

variable {free : Prop} {n m : Nat}

theorem free_of_zero (h : Loosened free 0 (m + 1)) : free :=
  (h.resolve_left (Nat.succ_ne_zero m)).1

theorem not_succ_zero : ¬ Loosened free (n + 1) 0 := by
  rintro (h | ⟨_, h⟩)
  · cases h
  · exact Nat.not_succ_le_zero n h

theorem pred (h : Loosened free (n + 1) (m + 1)) : Loosened free n m :=
  h.imp Nat.succ.inj fun hf => ⟨hf.1, Nat.le_of_succ_le_succ hf.2⟩

end Loosened

/-- The second settings are the first ones, whether events are reported or not.  Where `free` holds,
the limits may be higher, and they may be strict or not. -/
structure Eases (free : Prop) (s s' : Settings) : Prop where
  delimiters : s'.delimiters = s.delimiters
  paths : s'.paths = s.paths
  iterations : Loosened free s.maxIterations s'.maxIterations
  depth : Loosened free s.maxDepth s'.maxDepth
  strict : s'.strict = s.strict ∨ free

theorem Eases.refl (free : Prop) (s : Settings) : Eases free s s :=
  ⟨rfl, rfl, .inl rfl, .inl rfl, .inl rfl⟩

/-- Two environments with everything known from the start and settings of this kind: the first one
has events reported, the second one if `b` holds. -/
structure Loosens (free : Prop) (b : Bool) (env env' : Environment) : Prop where
  toolkit : env.toolkit = .builtin
  toolkit' : env'.toolkit = .builtin
  scanner : env'.scanner = env.scanner
  loader : env'.loader = env.loader
  settings : Eases free env.settings env'.settings
  bubble : env.settings.bubble = true
  bubble' : env'.settings.bubble = b

/-- The renderings of nodes one level deeper are counterparts; where `free` holds, the second one
may go on where the first one does not. -/
inductive NestedEchoes (free : Prop) (b : Bool) :
    Option (Nat → Rendering String) → Option (Nat → Rendering String) → Prop
  | none : NestedEchoes free b none none
  | cut (h : free) (render : Nat → Rendering String) : NestedEchoes free b none (some render)
  | some {render render' : Nat → Rendering String}
      (h : ∀ root, Echoes free b (root + 1) (render root) (render' root)) :
      NestedEchoes free b (some render) (some render')

/-! ### The rules of a node -/

end Rendering

/-- An evaluation reports no brackets. -/
theorem Expression.evaluate_events (functions : NameMap Function) (lookup : String → Option Value)
    (source : String) :
    ∀ e ∈ (evaluate functions lookup source).events, e.1 ≠ .started ∧ e.1 ≠ .complete := by
  unfold evaluate
  split
  · unfold run
    dsimp only
    split
    · simp [Outcome.succeeded]
    · split
      · simp [Outcome.failed]
      · split
        · simp [Outcome.succeeded]
        · simp [Outcome.failed]
  · simp

namespace Rendering

section rules
variable {α : Type} {free : Prop} {b : Bool} {n id : Nat} (hid : id < n) {env env' : Environment}
  {body body' : Rendering String}

section plain
variable (hb : Echoes free b n body body')
include hb

theorem echoes_conditional : Echoes free b n (conditional id body) (conditional id body') := by
  refine .get_bind fun s t h => ?_
  rw [h.condition]
  exact .ite hb (.pure _)

include hid in
theorem echoes_whileTexts : ∀ {limit limit' : Nat}, Loosened free limit limit' →
    Echoes free b n (whileTexts id body limit) (whileTexts id body' limit')
  | 0, 0, _ => by
      refine .get_bind fun s t h => ?_
      rw [h.condition]
      exact .error_if hid _ (.pure _)
  | 0, limit' + 1, h => by
      have hfree := h.free_of_zero
      refine .get_bind fun s t h => ?_
      rw [h.condition]
      split
      · exact .of_guard hfree hid (.inl rfl) [] _
      · exact .pure _
  | _ + 1, 0, h => absurd h Loosened.not_succ_zero
  | _ + 1, _ + 1, h => by
      have hrest := echoes_whileTexts h.pred
      refine .get_bind fun s t h => ?_
      rw [h.condition]
      exact .ite (hb.bind fun _ => hrest.bind fun _ => .pure _) (.pure _)

theorem echoes_eachTexts : ∀ (index : Nat) (entries : List LoopEntry),
    Echoes free b n (eachTexts id body index entries) (eachTexts id body' index entries)
  | _, [] => .pure _
  | index, _ :: rest =>
      (Echoes.modify (.setScope _ _)).bind fun _ => hb.bind fun _ =>
        (echoes_eachTexts (index + 1) rest).bind fun _ => .pure _

theorem echoes_eachLoop : Echoes free b n (eachLoop id body) (eachLoop id body') := by
  refine .get_bind fun s t h => ?_
  dsimp only
  rw [h.loopEntries, h.of_node (Node.hear_scope b)]
  refine ((echoes_eachTexts hb 0 _).ensuring_setScope _).bind fun _ => ?_
  have hglue : (t.node id).attributeText "glue" = (s.node id).attributeText "glue" :=
    h.of_node (f := fun n => n.attributeText "glue") (fun _ => rfl) id
  rw [hglue]
  exact .pure _

include hid in
theorem echoes_attemptsFrom (accepts : Validator) : ∀ attempt count,
    Echoes free b n (attemptsFrom id body accepts attempt count)
      (attemptsFrom id body' accepts attempt count)
  | _, 0 =>
      (Echoes.modify (.bind _ _ _)).bind fun _ => hb.bind fun _ => .error_if hid _ (.pure _)
  | attempt, count + 1 =>
      (Echoes.modify (.bind _ _ _)).bind fun _ => hb.bind fun _ =>
        .ite (.pure _) (echoes_attemptsFrom accepts (attempt + 1) count)

include hid in
theorem echoes_untilLoop (validators : NameMap Validator) :
    Echoes free b n (untilLoop id body validators) (untilLoop id body' validators) := by
  refine .node_bind hid fun m => ?_
  rw [Node.hear_attributes]
  split
  · exact echoes_attemptsFrom hid hb _ 1 _
  · exact hb

include hid in
theorem echoes_await : Echoes free b n (await id body) (await id body') := by
  refine .node_bind hid fun m => ?_
  let event := (m.attributes.text? "event").getD "await"
  have hreceived : Echoes free b n (report id .received event) (report id .received event) :=
    .report hid (by decide) (by decide) event
  have h := (hreceived.bind fun _ => hb).enclose hid event
  simp only [bind_assoc] at h
  exact h

include hid in
theorem echoes_layout : Echoes free b n (layout id body) (layout id body') := by
  refine .node_bind hid fun m => ?_
  rw [Node.hear_attributes, Node.hear_children]
  split
  · split
    · exact .bind (.pure _) fun _ => (Echoes.modify (.updateContainer _ _)).bind fun _ => .pure _
    · exact .bind (hb.map _) fun _ => (Echoes.modify (.updateContainer _ _)).bind fun _ => .pure _
  · exact .pure _

include hid in
theorem echoes_slot : Echoes free b n (slot id body) (slot id body') := by
  refine hb.bind fun text => .node_bind hid fun m => ?_
  rw [Node.hear_attributes]
  split
  · exact (Echoes.modify (.updateContainer _ _)).bind fun _ => .pure _
  · exact .pure _

end plain

theorem echoes_output : Echoes free b n (output id) (output id) := by
  refine .get_bind fun s t h => ?_
  dsimp only
  rw [h.container?, h.of_node (Node.hear_attributes b)]
  exact .pure _

theorem echoes_assign (a : Assignment) :
    Echoes free b n (modify fun s => s.assign id a) (modify fun s => s.assign id a) :=
  .modify (.assign id a)

include hid

theorem echoes_bindPair (datatype : Option Datatype) (isGlobal : Bool) (key : String)
    (raw : AttrValue) :
    Echoes free b n (bindPair id datatype isGlobal key raw)
      (bindPair id datatype isGlobal key raw) := by
  refine .get_bind fun s t h => ?_
  rw [h.attributeValue]
  exact .error_if hid _ (echoes_assign _)

theorem echoes_binding (henv : Loosens free b env env') :
    Echoes free b n (binding env id) (binding env' id) := by
  refine .node_bind hid fun m => ?_
  rw [henv.toolkit, henv.toolkit', Node.hear_attributes]
  exact .bind (.forM _ fun _ _ => echoes_bindPair hid _ _ _ _) fun _ => .pure _

theorem echoes_carryOut {o : Outcome}
    (ho : ∀ e ∈ o.events, e.1 ≠ .started ∧ e.1 ≠ .complete) :
    Echoes free b n (carryOut id o) (carryOut id o) := by
  obtain ⟨result, events, assignment⟩ := o
  refine .bind (.forM _ fun e he => .report hid (ho e he).1 (ho e he).2 _) fun _ => ?_
  cases result with
  | ok _ =>
      cases assignment with
      | none => exact .pure _
      | some a => exact (echoes_assign a).bind fun _ => .pure _
  | error _ =>
      cases assignment with
      | none => exact .throw _
      | some a => exact (echoes_assign a).bind fun _ => .throw _

theorem echoes_expression (henv : Loosens free b env env') :
    Echoes free b n (expression env id) (expression env' id) := by
  refine .get_bind fun s t h => ?_
  dsimp only
  rw [henv.toolkit, henv.toolkit', h.of_node (Node.hear_attributes b), funext (h.lookup? id)]
  exact (echoes_carryOut hid (Expression.evaluate_events _ _ _)).bind fun _ => .pure _

theorem echoes_definition : Echoes free b n (definition id) (definition id) := by
  refine .node_bind hid fun m => ?_
  rw [Node.hear_attributes, Node.hear_text?]
  split
  · refine .bind (.modify ⟨fun _ => rfl, fun _ => .refl _, fun h => ?_⟩) fun _ => .pure _
    exact ⟨h.document, h.globals, by rw [h.macros]⟩
  · exact .pure _

theorem echoes_tooDeep : Echoes free b n (tooDeep id) (tooDeep id) :=
  .bind (.error hid _) fun _ => .pure _

theorem echoes_of_tooDeep (hfree : free) (y : Rendering Value) :
    Echoes free b n (tooDeep id) y :=
  .of_guard hfree hid (.inr (.inl rfl)) .null y

omit hid in
/-- Both runs build the same fragment, heard or not, and go on from its root. -/
theorem echoes_build (henv : Loosens free b env env') (source : String) (parent : Option Nat)
    (inherited : Scope) (paths : SearchPaths) {f f' : Nat → Rendering α}
    (hf : ∀ root, Echoes free b (max n (root + 1)) (f root) (f' root)) :
    Echoes free b n (build env source parent inherited paths >>= f)
      (build env' source parent inherited paths >>= f') := by
  intro s t hs h hn
  have hsize : t.document.size = s.document.size := by rw [h.document, Document.size_hear]
  have hbuild := build_eq env source parent inherited paths s
  have hbuild' := build_eq env' source parent inherited paths t
  rw [henv.toolkit, henv.bubble] at hbuild
  rw [henv.scanner, henv.toolkit', henv.bubble', hsize] at hbuild'
  by_cases herrors : (env.scanner.read source).errors = []
  · rw [if_pos herrors] at hbuild hbuild'
    rw [bind_of_ok hbuild, bind_of_ok hbuild']
    let root := s.document.size + Part.countAll (env.scanner.read source).parts
    let nodes (c : Bool) := Part.fragment (Node.prepared Preparer.builtins
      ⟨parent, inherited, paths, c⟩) s.document.size parent (env.scanner.read source).parts
      ⟨0, source.utf8ByteSize⟩
    have hnodes (c : Bool) : nodes c = (nodes true).map (Node.hear c) :=
      Part.fragment_hear ⟨parent, inherited, paths, true⟩ c _ _ _ _
    have hreports := Reports.grow hs (hnodes true).symm root
    have hanswers := Answers.grow h (nodes true) root
    rw [← hnodes b] at hanswers
    have hlast : max n (root + 1) ≤ (s.grow (nodes true)).document.size := by
      rw [RenderState.grow, Document.size_append, Part.length_fragment]
      omega
    obtain ⟨es, hecho⟩ := hf root _ _ (hreports.audible rfl) (hanswers.heard rfl) hlast
    exact ⟨[] ++ es, Echo.trans ⟨hreports, .inl hanswers⟩ hanswers hecho⟩
  · rw [if_neg herrors] at hbuild hbuild'
    rw [bind_of_error hbuild, bind_of_error hbuild']
    have hevents : t.events.toList = t.events.toList ++ if b then [] else [] := by
      rw [ite_self, List.append_nil]
    exact ⟨[],
      ⟨(List.append_nil _).symm, .of_balanced .nil, .of_stays (.append _ _), fun h => by cases h⟩,
      .inl ⟨rfl, h.globals, hevents, fun h => by cases h⟩⟩

omit hid in
/-- A fragment is built, its root rendered, and then the step goes on. -/
theorem echoes_fragment (henv : Loosens free b env env') {render render' : Nat → Rendering String}
    (hr : ∀ root, Echoes free b (root + 1) (render root) (render' root)) (source : String)
    (parent : Option Nat) (inherited : Scope) (paths : SearchPaths)
    {f f' : Nat → String → Rendering α}
    (hf : ∀ root text, Echoes free b (max n (root + 1)) (f root text) (f' root text)) :
    Echoes free b n
      (do
        let root ← build env source parent inherited paths
        let text ← render root
        f root text)
      (do
        let root ← build env' source parent inherited paths
        let text ← render' root
        f' root text) :=
  echoes_build henv source parent inherited paths fun root =>
    ((hr root).mono (Nat.le_max_right _ _)).bind fun text => hf root text

variable (henv : Loosens free b env env')
  {nested nested' : Option (Nat → Rendering String)}
include henv

theorem echoes_renderSource (hn : NestedEchoes free b nested nested') (source : String)
    (bindings : Scope) (paths : SearchPaths) :
    Echoes free b n (renderSource env id nested source bindings paths)
      (renderSource env' id nested' source bindings paths) := by
  cases hn with
  | none => exact echoes_tooDeep hid
  | cut hfree render => exact echoes_of_tooDeep hid hfree _
  | some hr => exact echoes_fragment henv hr source _ bindings paths fun _ _ => .pure _

theorem echoes_invocation (hn : NestedEchoes free b nested nested') :
    Echoes free b n (invocation env id nested) (invocation env' id nested') := by
  refine .get_bind fun s t h => ?_
  dsimp only
  rw [h.of_node (Node.hear_givenName b), h.of_node (Node.hear_paths b), h.macros, h.arguments]
  split
  · exact echoes_renderSource hid henv hn _ _ _
  · exact .bind (.error hid _) fun _ => .pure _

theorem echoes_loadFor (root : String) :
    Echoes free b n (loadFor env id root) (loadFor env' id root) := by
  refine .node_bind hid fun m => ?_
  rw [henv.loader, Node.hear_givenName, Node.hear_paths]
  cases env.loader m.givenName (m.paths.directories root) with
  | ok source => exact .pure _
  | error e =>
      dsimp only
      rcases henv.settings.strict with hsame | hfree
      · rw [hsame]
        split
        · exact .bind (.throw _) fun _ => .bind (.error hid _) fun _ => .pure _
        · exact .bind (.error hid _) fun _ => .pure _
      · cases env.settings.strict with
        | true => exact .of_throw hfree _ _ _
        | false => exact .of_guard hfree hid (.inr (.inr (.inr ⟨e, rfl⟩))) none _

theorem echoes_inclusion (hn : NestedEchoes free b nested nested') :
    Echoes free b n (inclusion env id nested) (inclusion env' id nested') := by
  refine .bind (echoes_loadFor hid henv _) fun r => ?_
  split
  · exact .pure _
  · refine .get_bind fun s t h => ?_
    rw [h.of_node (Node.hear_paths b), h.arguments]
    exact echoes_renderSource hid henv hn _ _ _

theorem echoes_moduleUse (hn : NestedEchoes free b nested nested') :
    Echoes free b n (moduleUse env id nested) (moduleUse env' id nested') := by
  refine .bind (echoes_loadFor hid henv _) fun r => ?_
  split
  · exact .pure _
  · cases hn with
    | none => exact echoes_tooDeep hid
    | cut hfree render => exact echoes_of_tooDeep hid hfree _
    | some hr =>
        refine .node_bind hid fun m => ?_
        rw [Node.hear_paths]
        refine echoes_fragment henv hr _ none ∅ _ fun root _ => ?_
        refine .bind (.modify ?_) fun _ => .pure _
        exact .update (·.target id) (fun s n => { n with
          scope := (s.node (s.target id)).scope.extend (s.node root).scope })
          (fun h => h.target id) (fun _ _ => rfl) fun h n => by
            rw [h.target, h.of_node (Node.hear_scope _), h.of_node (Node.hear_scope _)]
            rfl

theorem echoes_customRule (hb : Echoes free b n body body') :
    Echoes free b n (customRule env id body) (customRule env' id body') := by
  refine .node_bind hid fun m => ?_
  rw [henv.toolkit, henv.toolkit', Node.hear_tag]
  exact hb

theorem echoes_ownText (hb : Echoes free b n body body') :
    Echoes free b n (ownText env id body) (ownText env' id body') := by
  refine .node_bind hid fun m => ?_
  rw [henv.toolkit, henv.toolkit', Node.hear_kind, Node.hear_text?]
  split
  · exact .pure _
  · refine .get_bind fun s t h => ?_
    rw [h.referenceText id]
    exact .pure _
  · exact echoes_conditional hb
  · exact (echoes_whileTexts hid hb henv.settings.iterations).bind fun _ => .pure _
  · exact echoes_eachLoop hb
  · exact echoes_untilLoop hid hb _
  · exact echoes_await hid hb
  · exact .pure _
  · exact hb

theorem echoes_textRule (hb : Echoes free b n body body') (r : TextRule) :
    Echoes free b n (textRule env id body r) (textRule env' id body' r) := by
  cases r with
  | own => exact echoes_ownText hid henv hb
  | layout => exact echoes_layout hid hb
  | slot => exact echoes_slot hid hb
  | output => exact echoes_output

variable (hn : NestedEchoes free b nested nested')
include hn

theorem echoes_actionRule (r : ActionRule) :
    Echoes free b n (actionRule env id nested r) (actionRule env' id nested' r) := by
  cases r with
  | binding => exact echoes_binding hid henv
  | expression => exact echoes_expression hid henv
  | definition => exact echoes_definition hid
  | invocation => exact echoes_invocation hid henv hn
  | inclusion => exact echoes_inclusion hid henv hn
  | moduleUse => exact echoes_moduleUse hid henv hn

theorem echoes_rule (hb : Echoes free b n body body') (d : Dispatch) :
    Echoes free b n (rule env id body nested d) (rule env' id body' nested' d) := by
  cases d with
  | render r => exact echoes_textRule hid henv hb r
  | execute r => exact (echoes_actionRule hid henv hn r).bind fun _ => .pure _
  | custom => exact echoes_customRule hid henv hb

/-- The rule of a node stands between the events of its start and its end. -/
theorem echoes_nodeWith (hb : Echoes free b n body body') :
    Echoes free b n (nodeWith env id body nested) (nodeWith env' id body' nested') := by
  refine .node_bind hid fun m => .node_bind hid fun k => ?_
  rw [Node.hear_kind, Node.hear_kind]
  have hrule := echoes_rule hid henv hn hb m.kind.dispatch
  by_cases hlife : hasLifecycle k.kind = true
  · simp only [if_pos hlife]
    exact hrule.enclose hid ""
  · simp only [if_neg hlife]
    exact hrule.bind fun _ => .pure _

end rules

theorem echoes_held {free : Prop} {b : Bool} {id : Nat} {render render' : Nat → Rendering String}
    (h : ∀ c < id, Echoes free b (c + 1) (render c) (render' c)) :
    Echoes free b (id + 1) (held render id) (held render' id) := by
  refine .node_bind (Nat.lt_succ_self id) fun m => ?_
  rw [Node.hear_children]
  refine .bind (.mapM _ fun c _ => ?_) fun _ => .pure _
  by_cases hc : c < id
  · rw [if_pos hc, if_pos hc]
    exact (h c hc).mono (Nat.succ_le_succ (Nat.le_of_lt hc))
  · rw [if_neg hc, if_neg hc]
    exact .pure _

theorem renderNode_echoes {free : Prop} {b : Bool} {env env' : Environment}
    (henv : Loosens free b env env') (depth id : Nat) :
    Echoes free b (id + 1) (renderNode env depth id) (renderNode env' depth id) := by
  refine depth_induction env.settings.maxDepth (P := fun depth id =>
    Echoes free b (id + 1) (renderNode env depth id) (renderNode env' depth id)) ?_ depth id
  intro depth id ihchild ihdeeper
  rw [renderNode_eq, renderNode_eq]
  refine echoes_nodeWith (Nat.lt_succ_self id) henv ?_ (echoes_held ihchild)
  unfold deeper
  by_cases hd : depth < env.settings.maxDepth
  · have hd' : depth < env'.settings.maxDepth := by
      rcases henv.settings.depth with h | ⟨_, h⟩
      · rwa [h]
      · exact Nat.lt_of_lt_of_le hd h
    rw [if_pos hd, if_pos hd']
    exact .some (ihdeeper hd)
  · rw [if_neg hd]
    rcases henv.settings.depth with h | ⟨hfree, _⟩
    · rw [h, if_neg hd]
      exact .none
    · split
      · exact .cut hfree _
      · exact .none

end Rendering

end TagTemplate
