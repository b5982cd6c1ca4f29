import TagTemplate.Proofs.Render.Entries
import TagTemplate.Proofs.Render.Fragments
import TagTemplate.Proofs.Render.Transport

/-! # Fragments rendered again

Each invocation and each inclusion renders a copy of its own of what it brings in.  The copy before
stays in the document, with the variables, loop counters and attempts that it was left with, but
nothing sees it any more.

* `Fenced.node_eq`: after a quiet invocation or inclusion the older nodes are what they were.
* `renderNode_repeats`: rendered again at once, it has the same text and the same events. -/

namespace TagTemplate

open Rendering

section quiet
variable {s t : RenderState}

/-- A node that keeps its variables and its container is the same. -/
theorem Fenced.node_eq (h : Fenced s t) (hq : Quiet s t) {i : Nat} (hi : i < s.document.size) :
    t.node i = s.node i := by
  have hstays : (s.node i).Stays (t.node i) := h.stays.node hi
  rw [hstays.eq, h.scope hi, hq.container hi]

/-- The states differ by the new nodes of the second one. -/
theorem Fenced.spread (hs : s.document.Sound) (h : Fenced s t) (hq : Quiet s t) :
    s.Spread ⟨s.document.size, t.document.size - s.document.size⟩ t where
  document := Document.Spread.of_prefix hs h.stays.size_le fun _ hi => h.node_eq hq hi
  sound := hs
  sound' := h.sound
  globals := hq.globals
  macros := hq.macros

end quiet

/-- An invocation or an inclusion that succeeds without assigning variables of the template, defining
macros or changing containers has the same text and the same events when it is rendered again. -/
theorem renderNode_repeats (env : Environment)
    (hlocal : ∀ p ∈ env.toolkit.preparers, p.IsLocal) (hblind : env.toolkit.IsBlind)
    {s t : RenderState} (hs : Reachable env s) {id : Nat} (hid : id < s.document.size)
    (hk : (s.node id).kind = .invocation ∨ (s.node id).kind = .inclusion) (depth : Nat)
    {text : String} (h : renderNode env depth id s = (.ok text, t)) (hq : Quiet s t) :
    ∃ (u : RenderState) (events : List Event), renderNode env depth id t = (.ok text, u) ∧
      t.events.toList = s.events.toList ++ events ∧
      u.events.toList = t.events.toList ++ events := by
  have hsound := hs.sound hlocal
  have hfenced : Fenced s (renderNode env depth id s).2 := renderNode_fenced hlocal hsound hid hk
  rw [h] at hfenced
  have hmirrors := renderNode_mirrors hlocal hblind
    ⟨s.document.size, t.document.size - s.document.size⟩ depth id
  rw [Rift.across_of_lt _ hid] at hmirrors
  obtain ⟨hresult, _, _, events, hevents, hevents'⟩ :=
    hmirrors s t (hfenced.spread hsound hq) hid
  rw [h] at hresult hevents
  exact ⟨(renderNode env depth id t).2, events, Prod.ext hresult rfl, hevents, hevents'⟩

/-! ### A macro that shows its parameter -/

section macroPage
variable (loader : Loader) (globals : Scope) (q : Char) (s : List Char)

theorem reachable_macroDefined (hq : q = '"' ∨ q = '\'') (hs : '\n' ∉ s) :
    Reachable (.usual loader) (macroDefined globals q s) := by
  have hstart : Reachable (.usual loader) (macroStart globals q s) :=
    reachable_pageState (read_macroPage hq hs) globals
  have hsize : (macroStart globals q s).document.size = 3 := rfl
  have hlt : 0 < (macroStart globals q s).document.size := by
    rw [hsize]
    decide
  have hacts := renderNode_acts (.usual loader) 0 0 (macroStart globals q s) hlt
  rw [renderNode_showMacro loader globals] at hacts
  exact .acts hlt hacts hstart

theorem quiet_macroInvoked : Quiet (macroDefined globals q s) (macroInvoked globals q s) := by
  refine ⟨?_, ?_, fun {i} hi => ?_⟩
  · simp only [macroInvoked, RenderState.through, RenderState.report_globals, macroBuilt,
      RenderState.grow]
  · simp only [macroInvoked, RenderState.through, RenderState.report_macros, macroBuilt,
      RenderState.grow]
  · have hsize : i < ((macroDefined globals q s).report 1 .started "").document.size := by
      rwa [RenderState.report_document]
    have hgrown : (macroBuilt globals q s).node i =
        ((macroDefined globals q s).report 1 .started "").node i :=
      Document.node_append_left hsize
    simp only [macroInvoked, RenderState.through, RenderState.node_report, hgrown]

theorem renderNode_repeats_macroPage :
    let env := Environment.usual (.ofSources ∅)
    let s := macroDefined ∅ '"' ['h', 'i']
    let t := macroInvoked ∅ '"' ['h', 'i']
    Reachable env s ∧ 1 < s.document.size ∧ (s.node 1).kind = .invocation ∧
      renderNode env 0 1 s = (.ok "hi", t) ∧ Quiet s t ∧
      ∃ (u : RenderState) (events : List Event), renderNode env 0 1 t = (.ok "hi", u) ∧
        t.events.toList = s.events.toList ++ events ∧
        u.events.toList = t.events.toList ++ events := by
  intro env s t
  have hquote : '"' = '"' ∨ '"' = '\'' := .inl rfl
  have hline : '\n' ∉ ['h', 'i'] := by decide
  have hs : Reachable env s := reachable_macroDefined (.ofSources ∅) ∅ '"' ['h', 'i'] hquote hline
  have hid : 1 < s.document.size := by
    rw [size_macroDefined]
    decide
  have hk : (s.node 1).kind = .invocation := by
    rw [node_macroDefined]
    rfl
  have hrender : renderNode env 0 1 s = (.ok "hi", t) :=
    renderNode_showCall hquote (.ofSources ∅) ∅
  have hquiet : Quiet s t := quiet_macroInvoked ∅ '"' ['h', 'i']
  exact ⟨hs, hid, hk, hrender, hquiet, renderNode_repeats env
    (fun _ => Preparer.isLocal_of_mem_builtins) Toolkit.isBlind_builtin hs hid (.inl hk) 0 hrender
    hquiet⟩

end macroPage

end TagTemplate
