import TagTemplate.Proofs.Render.Echoes
import TagTemplate.Proofs.Render.Transport

/-! # Pages under other settings

The events of a page are balanced, and its text, its slots and the variables of the template depend
neither on who listens, nor on the limits as long as they are not met and no source is missing.

* `page_echoes`: a page and its layouts under other settings.
* `Template.render_balanced`: the events of a template.
* `Template.render_withEvents`: a template that nobody listens to.
* `Template.render_withLimits`: a template whose limits are not met. -/

namespace TagTemplate

/-! ### Pages -/

namespace Rendering

section page
variable {free : Prop} {b : Bool} {n : Nat} {env env' : Environment}
  (henv : Loosens free b env env')
include henv

theorem echoes_reportTemplate (detail : String) :
    Echoes free b n (reportTemplate env .error detail) (reportTemplate env' .error detail) := by
  intro s t hs h _
  rw [reportTemplate_apply, reportTemplate_apply, henv.bubble, henv.bubble']
  exact ⟨_, .tell hs (.error _ _) PUnit.unit, .inl ((Answers.refl h _).after _)⟩

theorem echoes_of_guard {α : Type} (hfree : free) {detail : String}
    (hd : Event.TellsGuard detail) (a : α) (y : Rendering α) :
    Echoes free b n (do reportTemplate env .error detail; return a) y :=
  .of_tell hfree hd (fun s _ _ => ⟨"template", by rw [reportTemplate_apply, henv.bubble]⟩) a y

theorem echoes_loadLayout (name : String) :
    Echoes free b n (loadLayout env name) (loadLayout env' name) := by
  unfold loadLayout
  rw [henv.loader, henv.settings.paths]
  cases env.loader name (env.settings.paths.directories Loader.templates) with
  | ok source => exact .pure _
  | error e =>
      dsimp only
      rcases henv.settings.strict with hsame | hfree
      · rw [hsame]
        split
        · exact .bind (.throw _) fun _ => .bind (echoes_reportTemplate henv _) fun _ => .pure _
        · exact .bind (echoes_reportTemplate henv _) fun _ => .pure _
      · cases env.settings.strict with
        | true => exact .of_throw hfree _ _ _
        | false => exact echoes_of_guard henv hfree (.inr (.inr (.inr ⟨e, rfl⟩))) none _

theorem echoes_renderContainer (source : String) (slots : NameMap String) :
    Echoes free b 0 (renderContainer env source slots) (renderContainer env' source slots) := by
  unfold renderContainer
  rw [henv.settings.paths]
  refine echoes_build henv source none ∅ _ fun root => ?_
  have hlt : root < max 0 (root + 1) := by omega
  refine .bind (.modify ?_) fun _ => ?_
  · exact .update (fun _ => root) (fun _ n => { n with container := some { slots } }) (fun _ => rfl)
      (fun _ _ => rfl) fun _ _ => rfl
  · refine ((renderNode_echoes henv 0 root).mono (Nat.le_max_right _ _)).bind fun text => ?_
    refine .node_bind hlt fun n => ?_
    rw [Node.hear_container]
    exact .pure _

theorem echoes_wrap : ∀ {remaining remaining' : Nat}, Loosened free remaining remaining' →
    ∀ (used : List String) (text : String) (c : Container),
      Echoes free b 0 (wrap env used text c remaining) (wrap env' used text c remaining')
  | 0, 0, _, used, text, c => by
      unfold wrap
      split
      · exact .bind (echoes_reportTemplate henv _) fun _ => .pure _
      · exact .pure _
  | 0, remaining' + 1, h, used, text, c => by
      have hfree := h.free_of_zero
      unfold wrap
      cases c.layout with
      | none => exact .pure _
      | some name =>
          by_cases hused : name ∈ used
          · simp only [if_pos hused]
            exact .bind (echoes_reportTemplate henv _) fun _ => .pure _
          · simp only [if_neg hused]
            exact echoes_of_guard henv hfree (.inr (.inr (.inl rfl))) (text, c) _
  | _ + 1, 0, h, _, _, _ => absurd h Loosened.not_succ_zero
  | remaining + 1, remaining' + 1, h, used, text, c => by
      unfold wrap
      split
      · exact .pure _
      · split
        · exact .bind (echoes_reportTemplate henv _) fun _ => .pure _
        · refine .bind (echoes_loadLayout henv _) fun r => ?_
          split
          · exact .pure _
          · exact .bind (echoes_renderContainer henv _ _) fun r => echoes_wrap h.pred _ _ _

theorem page_echoes (source : String) : Echoes free b 0 (page env source) (page env' source) :=
  .bind (echoes_renderContainer henv source ∅) fun _ => echoes_wrap henv henv.settings.depth [] _ _

end page

end Rendering

/-! ### Templates -/

/-- Two renderings come to the same, and the second one has the events of the first one, or none. -/
structure Rendered.Agrees (b : Bool) (r r' : Rendered) : Prop where
  result : r'.result = r.result
  globals : r'.template.globals = r.template.globals
  slots : r'.template.slots = r.template.slots
  events : r'.events = if b then r.events else []

namespace Template

/-- The template with all events reported. -/
def loud (t : Template) : Template :=
  { t with settings := { t.settings with bubble := true } }

/-- Rendering the source meets a limit or misses a source: if all events are reported, one of them
says so. -/
def Trips (t : Template) (source : String) : Prop :=
  ∃ e ∈ (t.loud.render source).events, e.IsGuard

/-- The template under other limits, strict or not. -/
def withLimits (t : Template) (iterations depth : Nat) (strict : Bool) : Template :=
  { t with settings :=
      { t.settings with maxIterations := iterations, maxDepth := depth, strict := strict } }

/-- What a template makes of the rendering of a page. -/
def concluded (t : Template) (p : Except RenderError (String × Container) × RenderState) :
    Rendered :=
  match p.1 with
  | .ok (text, c) =>
    { result := .ok text, template := { t with globals := p.2.globals, slots := c.slots },
      events := p.2.events.toList }
  | .error e =>
    { result := .error e, template := { t with globals := p.2.globals },
      events := p.2.events.toList }

theorem events_concluded (t : Template)
    (p : Except RenderError (String × Container) × RenderState) :
    (t.concluded p).events = p.2.events.toList := by
  rw [concluded]
  split <;> rfl

section scanner
variable {t : Template} (source : String)

theorem render_of_tags_error {e : TagError}
    (h : TagScanner.ofTags t.toolkit.tags t.settings.delimiters = .error e) :
    t.render source = { result := .error (.tags e), template := t } := by
  rw [Template.render, h]

theorem render_eq_concluded {scanner : TagScanner}
    (h : TagScanner.ofTags t.toolkit.tags t.settings.delimiters = .ok scanner) :
    t.render source = t.concluded (Rendering.page ⟨t.toolkit, scanner, t.settings, t.loader⟩
      source { globals := t.globals }) := by
  rw [Template.render, h]
  dsimp only
  generalize Rendering.page ⟨t.toolkit, scanner, t.settings, t.loader⟩ source
    { globals := t.globals } = p
  obtain ⟨result, s⟩ := p
  cases result <;> rfl

end scanner

/-- The first of two renderings reports balanced events, and the second one agrees with it, unless
that is free and the first one meets a limit, misses a source or fails. -/
structure Echoed (free : Prop) (b : Bool) (r r' : Rendered) : Prop where
  logs : Event.Logs r.result r.events
  agrees : r.Agrees b r' ∨
    free ∧ ((∃ e ∈ r.events, e.IsGuard) ∨ ∃ e, r.result = .error e)

theorem concluded_echoed {free : Prop} {b : Bool} {t t' : Template} (hslots : t'.slots = t.slots)
    {p q : Except RenderError (String × Container) × RenderState} {s u : RenderState}
    {events : List Event} (hs : s.events = #[]) (hu : u.events = #[])
    (h : Rendering.Echo free b s u p q events) :
    Echoed free b (t.concluded p) (t'.concluded q) := by
  obtain ⟨r, s'⟩ := p
  obtain ⟨r', u'⟩ := q
  obtain ⟨⟨hevents, ⟨rest, hrest, hnil⟩, _⟩, hanswers⟩ := h
  rw [hs, List.nil_append] at hevents
  cases hevents
  have hagrees (ha : Rendering.Answers b u (r, s') (r', u') s'.events.toList) :
      (t.concluded (r, s')).Agrees b (t'.concluded (r', u')) := by
    obtain ⟨hresult, hglobals, hevents, _⟩ := ha
    cases hresult
    rw [hu, List.nil_append] at hevents
    cases r with
    | ok a => exact ⟨rfl, hglobals, rfl, hevents⟩
    | error e => exact ⟨rfl, hglobals, hslots, hevents⟩
  refine ⟨⟨rest, ?_, fun text htext => ?_⟩, hanswers.imp hagrees fun hf => ⟨hf.1, ?_⟩⟩
  · cases r <;> exact hrest
  · cases r with
    | ok a => exact hnil a rfl
    | error e => cases htext
  · cases r with
    | ok a => exact .inl (hf.2.resolve_right nofun)
    | error e => exact .inr ⟨e, rfl⟩

/-- Rendering a source under other settings. -/
theorem render_echoed {free : Prop} {t : Template} (htoolkit : t.toolkit = .builtin)
    {settings : Settings} (hsettings : Rendering.Eases free t.settings settings)
    (source : String) :
    Echoed free settings.bubble (t.loud.render source)
      (({ t with settings } : Template).render source) := by
  have hdelimiters := hsettings.delimiters
  cases hscanner : TagScanner.ofTags t.toolkit.tags t.settings.delimiters with
  | error e =>
      rw [render_of_tags_error (t := t.loud) source hscanner,
        render_of_tags_error source (hdelimiters ▸ hscanner)]
      exact ⟨.of_balanced .nil, .inl ⟨rfl, rfl, rfl, (ite_self _).symm⟩⟩
  | ok scanner =>
      rw [render_eq_concluded (t := t.loud) source hscanner,
        render_eq_concluded source (hdelimiters ▸ hscanner)]
      have henv : Rendering.Loosens free settings.bubble
          ⟨t.toolkit, scanner, t.loud.settings, t.loader⟩
          ⟨t.toolkit, scanner, settings, t.loader⟩ :=
        ⟨htoolkit, htoolkit, rfl, rfl, ⟨hdelimiters, hsettings.paths, hsettings.iterations,
          hsettings.depth, hsettings.strict⟩, rfl, rfl⟩
      have hheard : RenderState.Heard settings.bubble { globals := t.globals }
          { globals := t.globals } := ⟨(Document.hear_empty _).symm, rfl, rfl⟩
      obtain ⟨events, hecho⟩ := Rendering.page_echoes henv source { globals := t.globals }
        { globals := t.globals } (Document.hear_empty true) hheard (Nat.zero_le _)
      have hslots : ({ t with settings } : Template).slots = t.loud.slots := rfl
      exact concluded_echoed hslots rfl rfl hecho

end Template

/-! ### Balanced events -/

/-- With everything known from the start, the events of a successful rendering are balanced
brackets, and those of a rendering that fails are the beginning of balanced ones, whatever the
source, the loader, the variables and the settings are.  A template that reports no events has
none. -/
theorem Template.render_balanced {t : Template} (htoolkit : t.toolkit = .builtin)
    (source : String) :
    (t.settings.bubble = true →
      (∀ text, (t.render source).result = .ok text →
        Event.unclosed [] (t.render source).events = some []) ∧
      ∀ e, (t.render source).result = .error e →
        ∃ rest, Event.unclosed [] ((t.render source).events ++ rest) = some []) ∧
    (t.settings.bubble = false → (t.render source).events = []) := by
  obtain ⟨hlogs, hagrees⟩ := render_echoed htoolkit (Rendering.Eases.refl False t.settings) source
  have ha := hagrees.resolve_right fun h => h.1
  refine ⟨fun hb => ?_, fun hb => ?_⟩
  · have hresult : (t.render source).result = (t.loud.render source).result := ha.result
    have hevents : (t.render source).events = (t.loud.render source).events :=
      ha.events.trans (if_pos hb)
    rw [← hresult, ← hevents] at hlogs
    refine ⟨fun text hok => ?_, fun e _ => ?_⟩
    · rw [hok] at hlogs
      exact hlogs.balanced []
    · obtain ⟨rest, hrest, _⟩ := hlogs
      exact ⟨rest, hrest []⟩
  · have hevents := ha.events
    rwa [hb] at hevents

/-- A page that defines a macro and shows its parameter succeeds, with balanced events, and has none
if nobody listens. -/
theorem Template.render_balanced_macroPage :
    let t : Template := { loader := .ofSources ∅ }
    let mute : Template := { t with settings := { bubble := false } }
    let source := String.ofList (macroPage '"' ['h', 'i'])
    t.toolkit = .builtin ∧ (t.render source).result = .ok (.ofList ['h', 'i']) ∧
      Event.unclosed [] (t.render source).events = some [] ∧ (mute.render source).events = [] := by
  intro t mute source
  have htoolkit : t.toolkit = .builtin := rfl
  have hok : (t.render source).result = .ok (.ofList ['h', 'i']) :=
    Rendering.result_render_macroPage (.inl rfl) (by decide) (.ofSources ∅) ∅ ∅
  exact ⟨htoolkit, hok, ((render_balanced htoolkit source).1 rfl).1 _ hok,
    (render_balanced (t := mute) rfl source).2 rfl⟩

/-! ### Nobody listens -/

/-- The template with its events reported or not. -/
def Template.withEvents (t : Template) (b : Bool) : Template :=
  { t with settings := { t.settings with bubble := b } }

/-- The same rendering if nobody had listened: without events, and with a template that reports
none. -/
def Rendered.muted (r : Rendered) : Rendered :=
  { r with template := r.template.withEvents false, events := [] }

/-- A rendering changes nothing of a template but its variables and its slots. -/
theorem Template.template_render (t : Template) (source : String) :
    (t.render source).template =
      { t with
        globals := (t.render source).template.globals
        slots := (t.render source).template.slots } := by
  cases hscanner : TagScanner.ofTags t.toolkit.tags t.settings.delimiters with
  | error e => rw [render_of_tags_error source hscanner]
  | ok scanner =>
      rw [render_eq_concluded source hscanner]
      unfold concluded
      split <;> rfl

/-- Two renderings of templates that differ in their events only, if the second one is silent. -/
theorem Rendered.Agrees.eq_muted {t : Template} {r r' : Rendered} (h : r.Agrees false r')
    (hkept : r.template = { t.withEvents true with
      globals := r.template.globals, slots := r.template.slots })
    (hkept' : r'.template = { t.withEvents false with
      globals := r'.template.globals, slots := r'.template.slots }) :
    r' = r.muted := by
  have htemplate : r'.template = r.template.withEvents false := by
    rw [hkept', h.globals, h.slots, hkept]
    rfl
  obtain ⟨result, template, events⟩ := r'
  obtain ⟨rfl, -, -, hevents⟩ := h
  cases hevents
  cases htemplate
  rfl

/-- Events only observe.  With everything known from the start, a template that reports no events
renders every source to the same text or the same error as the one that reports them, and is left
with the same variables and the same slots, whatever the loader, the variables and the other
settings are: nothing but the events is missing. -/
theorem Template.render_withEvents {t : Template} (htoolkit : t.toolkit = .builtin)
    (source : String) :
    (t.withEvents false).render source = ((t.withEvents true).render source).muted := by
  have heases : Rendering.Eases False t.settings (t.withEvents false).settings :=
    ⟨rfl, rfl, .inl rfl, .inl rfl, .inl rfl⟩
  have hecho := render_echoed htoolkit heases source
  have hagrees : ((t.withEvents true).render source).Agrees false
      ((t.withEvents false).render source) := hecho.agrees.resolve_right fun h => h.1
  exact hagrees.eq_muted (template_render _ source) (template_render _ source)

/-- The page with the macro, rendered while nobody listens. -/
theorem Template.render_withEvents_macroPage :
    let t : Template := { loader := .ofSources ∅ }
    let source := String.ofList (macroPage '"' ['h', 'i'])
    t.toolkit = .builtin ∧
      ((t.withEvents true).render source).result = .ok (.ofList ['h', 'i']) ∧
      (t.withEvents false).render source = ((t.withEvents true).render source).muted := by
  intro t source
  have htoolkit : t.toolkit = .builtin := rfl
  have hok : ((t.withEvents true).render source).result = .ok (.ofList ['h', 'i']) :=
    Rendering.result_render_macroPage (.inl rfl) (by decide) (.ofSources ∅) ∅ ∅
  exact ⟨htoolkit, hok, render_withEvents htoolkit source⟩

/-! ### A page that tells of no error -/

/-- No event so far is an error. -/
def RenderState.Calm (s : RenderState) : Prop :=
  ∀ e ∈ s.events.toList, e.kind ≠ .error

theorem RenderState.Calm.report {s : RenderState} (h : s.Calm) (id : Nat) {kind : EventKind}
    (hk : kind ≠ .error) (detail : String) : (s.report id kind detail).Calm := by
  intro e he
  unfold RenderState.report at he
  dsimp only at he
  split at he
  · rw [Array.toList_push, List.mem_append, List.mem_singleton] at he
    rcases he with he | rfl
    · exact h e he
    · exact hk
  · exact h e he

theorem RenderState.Calm.grow {s : RenderState} (h : s.Calm) (ns : List Node) : (s.grow ns).Calm :=
  h

theorem RenderState.Calm.through {s : RenderState} (h : s.Calm) (id : Nat)
    {f : RenderState → RenderState} (hf : ∀ u, (f u).events = u.events) :
    (s.through id f).Calm := by
  have hstarted : (s.report id .started "").Calm := h.report id (by decide) ""
  have hacted : (f (s.report id .started "")).Calm := by
    rwa [Calm, hf]
  exact hacted.report id (by decide) ""

namespace Rendering

theorem calm_macroInvoked (globals : Scope) (q : Char) (s : List Char) :
    (macroInvoked globals q s).Calm := by
  have hstart : (macroStart globals q s).Calm := by
    intro e he
    rw [macroStart, pageState] at he
    exact absurd he List.not_mem_nil
  have hdefined : (macroDefined globals q s).Calm := hstart.through 0 fun _ => rfl
  have hstarted := hdefined.report 1 (show EventKind.started ≠ .error by decide) ""
  have hbuilt : (macroBuilt globals q s).Calm := hstarted.grow _
  have hshown : ((macroBuilt globals q s).through 3 fun t => t).Calm :=
    hbuilt.through 3 fun _ => rfl
  exact hshown.report 1 (show EventKind.complete ≠ .error by decide) ""

theorem events_render_macroPage {q : Char} {s : List Char} (hq : q = '"' ∨ q = '\'')
    (hs : '\n' ∉ s) (loader : Loader) (globals : Scope) (slots : NameMap String) :
    (Template.render { loader, globals, slots } (.ofList (macroPage q s))).events =
      (macroInvoked globals q s).events.toList := by
  have hpage := page_of_no_layout (read_macroPage hq hs) (renderNode_macroPage hq loader globals)
    (layout_macroInvoked globals)
  have hrender : Template.render { loader, globals, slots } (.ofList (macroPage q s)) =
      Template.concluded { loader, globals, slots }
        (page (.usual loader) (.ofList (macroPage q s)) { globals }) :=
    Template.render_eq_concluded _ TagScanner.ofTags_builtin
  rw [hrender, hpage, Template.concluded]

end Rendering

/-! ### Limits that are not met -/

/-- With everything known from the start, a rendering that succeeds without meeting a limit or
missing a source comes to the same text, the same slots, the same variables of the template and the
same events under limits that are not lower, strict or not. -/
theorem Template.render_withLimits {t : Template} (htoolkit : t.toolkit = .builtin)
    {source text : String} (hok : (t.render source).result = .ok text)
    (htrips : ¬ t.Trips source) {iterations depth : Nat}
    (hiterations : t.settings.maxIterations ≤ iterations) (hdepth : t.settings.maxDepth ≤ depth)
    (strict : Bool) :
    ((t.withLimits iterations depth strict).render source).result = .ok text ∧
      ((t.withLimits iterations depth strict).render source).template.slots =
        (t.render source).template.slots ∧
      ((t.withLimits iterations depth strict).render source).template.globals =
        (t.render source).template.globals ∧
      ((t.withLimits iterations depth strict).render source).events =
        (t.render source).events := by
  have hself := render_echoed htoolkit (Rendering.Eases.refl False t.settings) source
  have hsame := hself.agrees.resolve_right fun h => h.1
  have heases : Rendering.Eases True t.settings (t.withLimits iterations depth strict).settings :=
    ⟨rfl, rfl, .inr ⟨trivial, hiterations⟩, .inr ⟨trivial, hdepth⟩, .inr trivial⟩
  have hresult : (t.loud.render source).result = .ok text := hsame.result.symm.trans hok
  have hother : (t.loud.render source).Agrees t.settings.bubble
      ((t.withLimits iterations depth strict).render source) := by
    refine (render_echoed htoolkit heases source).agrees.resolve_right fun h => ?_
    rcases h.2 with h | ⟨e, h⟩
    · exact htrips h
    · rw [hresult] at h
      cases h
  exact ⟨hother.result.trans hresult, hother.slots.trans hsame.slots.symm,
    hother.globals.trans hsame.globals.symm, hother.events.trans hsame.events.symm⟩

/-- The page with the macro comes to the same under higher limits, and if it is strict. -/
theorem Template.render_withLimits_macroPage :
    let t : Template := { loader := .ofSources ∅ }
    let source := String.ofList (macroPage '"' ['h', 'i'])
    t.toolkit = .builtin ∧ (t.render source).result = .ok (.ofList ['h', 'i']) ∧
      ¬ t.Trips source ∧ t.settings.maxIterations ≤ 2000 ∧ t.settings.maxDepth ≤ 64 ∧
      ((t.withLimits 2000 64 true).render source).result = .ok (.ofList ['h', 'i']) ∧
      ((t.withLimits 2000 64 true).render source).template.slots =
        (t.render source).template.slots ∧
      ((t.withLimits 2000 64 true).render source).template.globals =
        (t.render source).template.globals ∧
      ((t.withLimits 2000 64 true).render source).events = (t.render source).events := by
  intro t source
  have hquote : '"' = '"' ∨ '"' = '\'' := .inl rfl
  have hline : '\n' ∉ ['h', 'i'] := by decide
  have htoolkit : t.toolkit = .builtin := rfl
  have hok : (t.render source).result = .ok (.ofList ['h', 'i']) :=
    Rendering.result_render_macroPage hquote hline (.ofSources ∅) ∅ ∅
  have htrips : ¬ t.Trips source := by
    rintro ⟨e, he, hkind, _⟩
    have hevents : (t.loud.render source).events =
        (Rendering.macroInvoked ∅ '"' ['h', 'i']).events.toList :=
      Rendering.events_render_macroPage hquote hline (.ofSources ∅) ∅ ∅
    rw [hevents] at he
    exact Rendering.calm_macroInvoked ∅ '"' ['h', 'i'] e he hkind
  have hiterations : t.settings.maxIterations ≤ 2000 := Nat.le_add_right 1000 1000
  have hdepth : t.settings.maxDepth ≤ 64 := Nat.le_add_right 32 32
  exact ⟨htoolkit, hok, htrips, hiterations, hdepth,
    render_withLimits htoolkit hok htrips hiterations hdepth true⟩

end TagTemplate
