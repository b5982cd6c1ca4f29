import TagTemplate.Proofs.Render.Settling
import TagTemplate.Proofs.Scanning.Delimiters

/-! # Termination of a rendering

Nodes settle in the order of `depth_induction`: the nodes that a node holds came before it, and the
fragments that it builds are deeper.  A page settles, and then its layouts one after another, of
which there are no more than the depth allows.

* `nodeWithin_settles`: every node settles, at every depth.
* `Template.renderWithin_eq_render`: every rendering ends. -/

namespace TagTemplate

open Filter

namespace Rendering

/-! ### Nodes -/

section nodes
variable {env : Environment} {depth id : Nat} {n : Node}

theorem settles_held (h : ∀ c < id, NodeSettles env c
    (fun k stop => nodeWithin env stop k depth c) (renderNode env depth c)) : Settles env id n
    (fun k stop => node id >>= fun m => do
      let text ← sequence (nodeWithin env stop k depth) m.children
      climbWithin k stop id
      return text)
    (held (renderNode env depth) id) := by
  refine .node_bind fun m hm => ?_
  have hchild : ∀ c ∈ m.children, Settles env id n (fun k stop => nodeWithin env stop k depth c)
      (if c < id then renderNode env depth c else Pure.pure "") := by
    intro c hc
    rw [hm.children] at hc
    refine ⟨follows_child hc fun _ => renderNode_deeds env depth c, fun henv s hs => ?_⟩
    have hc' : c ∈ (s.node id).children := by rwa [hs.stays.children]
    have hlt : c < id := hs.sound.child_lt hc'
    simp only [if_pos hlt]
    exact (h c hlt).inTime henv s ⟨hs.sound, Nat.lt_trans hlt hs.lt⟩
  have hsequence : Settles env id n
      (fun k stop => sequence (nodeWithin env stop k depth) m.children)
      (sequence (fun c => if c < id then renderNode env depth c else Pure.pure "") m.children) :=
    (Settles.mapM m.children hchild).bind fun texts => .pure (String.join texts)
  have hclimb (text : String) : Settles env id n
      (fun k stop => climbWithin k stop id >>= fun _ => Pure.pure text) (Pure.pure text) :=
    .climb_bind (.pure text)
  have hboth := hsequence.bind hclimb
  rwa [bind_pure] at hboth

/-- Every node settles, at every depth. -/
theorem nodeWithin_settles (env : Environment) (depth id : Nat) :
    NodeSettles env id (fun k stop => nodeWithin env stop k depth id) (renderNode env depth id) := by
  refine depth_induction env.settings.maxDepth (P := fun depth id => NodeSettles env id
    (fun k stop => nodeWithin env stop k depth id) (renderNode env depth id)) ?_ depth id
  intro depth id hchild hdeeper
  refine ⟨renderNode_deeds env depth id, fun henv s hs => eventually_of_succ ?_⟩
  have hnested : NestedSettles env
      (fun k stop => if depth < env.settings.maxDepth then some (nodeWithin env stop k (depth + 1))
        else none) (deeper env depth) := by
    unfold deeper
    by_cases hd : depth < env.settings.maxDepth
    · simp only [if_pos hd]
      exact .some (hdeeper hd)
    · simp only [if_neg hd]
      exact .none
  have hnode : Settles env id (s.node id)
      (fun k stop => nodeWithin env stop (k + 1) depth id) (renderNode env depth id) := by
    rw [renderNode_eq]
    refine .climb_bind (.node_bind fun m hm => settles_withLifecycle ?_)
    rw [hm.kind]
    exact settles_ruleWithin hnested (settles_held hchild)
  exact hnode.inTime henv s ⟨hs.1, hs.2, .refl _⟩

end nodes

/-! ### Pages and their layouts -/

/-- The step leads to states that can be reached, and from every such state the step by the clock
gives in time what the step gives. -/
structure Ends {α : Type} (env : Environment) (x : Nat → RenderError → Rendering α)
    (y : Rendering α) : Prop where
  reaches : Reaches env y
  inTime : InTime (Reachable env) x y

namespace Ends

variable {α β : Type} {env : Environment} {x : Nat → RenderError → Rendering α} {y : Rendering α}

theorem of_reaches (hy : Reaches env y) : Ends env (fun _ _ => y) y :=
  ⟨hy, .refl _ y⟩

theorem comp {g : Nat → Nat} (hg : Tendsto g atTop atTop) (h : Ends env x y) :
    Ends env (fun k stop => x (g k) stop) y :=
  ⟨h.reaches, h.inTime.comp hg⟩

theorem call {z : Nat → RenderError → Nat → Rendering α} {g : Nat → Nat}
    (hg : Tendsto g atTop atTop) (h : Ends env (fun k stop => z k stop (g k - 1 + 1)) y) :
    Ends env (fun k stop => z k stop (g k)) y :=
  ⟨h.reaches, h.inTime.call hg⟩

theorem bind (hx : Ends env x y) {f : Nat → RenderError → α → Rendering β} {g : α → Rendering β}
    (hf : ∀ a, Ends env (fun k stop => f k stop a) (g a)) :
    Ends env (fun k stop => x k stop >>= f k stop) (y >>= g) :=
  ⟨hx.reaches.bind fun a => (hf a).reaches, hx.inTime.bind hx.reaches fun a => (hf a).inTime⟩

end Ends

section pages
variable {env : Environment} (henv : env.IsOrderly)
include henv

theorem ends_renderContainer (source : String) (slots : NameMap String) :
    Ends env (fun k stop => renderContainerWithin env k stop source slots)
      (renderContainer env source slots) := by
  refine ⟨.renderContainer henv.isLocal source slots, fun s hs => ?_⟩
  have hparent : ∀ p, (none : Option Nat) = some p → p < s.document.size := by
    intro p hp
    cases hp
  have hsound := hs.sound henv.isLocal
  have hbuild := buildWithin_eventually henv hsound hparent source ∅ env.settings.paths
  unfold renderContainerWithin renderContainer
  cases hb : build env source none ∅ env.settings.paths s with
  | mk r t =>
      rw [hb] at hbuild
      cases r with
      | error e =>
          filter_upwards [hbuild] with k hk stop
          rw [bind_of_error (hk stop), bind_of_error hb]
      | ok root =>
          have hbuilt := built_of_build henv.isLocal hsound hparent hb
          let start := { t with document := t.document.setContainer root { slots } }
          have hstart : Reachable env start := .container { slots } hb hs
          have hroot : root < start.document.size := by
            show root < (t.document.setContainer root { slots }).size
            rw [Document.setContainer, Document.size_update]
            exact hbuilt.root_lt
          have hnode := (nodeWithin_settles env 0 root).inTime henv start
            ⟨hstart.sound henv.isLocal, hroot⟩
          filter_upwards [hbuild, hnode] with k hk hk' stop
          rw [bind_of_ok (hk stop), bind_of_ok hb, bind_of_ok (modify_apply _ t),
            bind_of_ok (modify_apply _ t), bind_apply, bind_apply, hk' stop]

/-- The layouts in use become more with each layout, up to the depth. -/
theorem ends_wrap : ∀ (remaining : Nat) (used : List String) (text : String) (c : Container)
    {g : Nat → Nat}, used.length + remaining = env.settings.maxDepth → Tendsto g atTop atTop →
      Ends env (fun k stop => wrapWithin env stop (g k) used text c)
        (wrap env used text c remaining)
  | remaining, used, text, c, g, hused, hg => by
      have hpred : Tendsto (fun k => g k - 1) atTop atTop := (tendsto_sub_atTop_nat 1).comp hg
      have hreport (detail : String) : Ends env
          (fun _ _ => do reportTemplate env .error detail; return (text, c))
          (do reportTemplate env .error detail; return (text, c)) :=
        .of_reaches (.bind (.reportTemplate _ _) fun _ => .pure _)
      refine .call (z := fun _ stop m => wrapWithin env stop m used text c) hg ?_
      simp only [wrapWithin]
      cases hc : c.layout with
      | none =>
          have hend : wrap env used text c remaining = Pure.pure (text, c) := by
            cases remaining <;> simp only [wrap, hc]
          rw [hend]
          exact .of_reaches (.pure _)
      | some name =>
          by_cases hname : name ∈ used
          · have hend : wrap env used text c remaining =
                (do reportTemplate env .error (cycleMessage name); return (text, c)) := by
              cases remaining <;> simp only [wrap, hc, if_pos hname]
            simp only [if_pos hname]
            rw [hend]
            exact hreport _
          · simp only [if_neg hname]
            cases remaining with
            | zero =>
                have hdeep : env.settings.maxDepth ≤ used.length := by omega
                simp only [if_pos hdeep, wrap, hc, if_neg hname]
                exact hreport _
            | succ remaining =>
                have hnot : ¬ env.settings.maxDepth ≤ used.length := by omega
                simp only [if_neg hnot, wrap, hc, if_neg hname]
                refine (Ends.of_reaches (.loadLayout name)).bind fun r => ?_
                cases r with
                | none => exact .of_reaches (.pure _)
                | some source =>
                    refine (Ends.comp hpred (ends_renderContainer henv _ _)).bind fun result => ?_
                    refine ends_wrap remaining _ _ _ ?_ hpred
                    rw [List.length_cons]
                    omega

/-- The rendering of a page ends. -/
theorem ends_page (source : String) :
    Ends env (fun k stop => pageWithin env k stop source) (page env source) := by
  refine (ends_renderContainer henv source ∅).bind fun result => ?_
  exact ends_wrap henv env.settings.maxDepth [] _ _ (Nat.zero_add _) tendsto_id

end pages

end Rendering

/-- With everything known from the start every rendering ends, whatever the settings, the loader
and the variables are: for each source there is a time in which all the calls are made that its
rendering makes.  The error of the clock, whichever it is, does not come up then, and the result is
that of the rendering. -/
theorem Template.renderWithin_eq_render (settings : Settings) (loader : Loader) (globals : Scope)
    (slots : NameMap String) (source : String) :
    let t : Template := { toolkit := .builtin, settings, loader, globals, slots }
    ∃ time, ∀ n, time ≤ n → ∀ stop, t.renderWithin n stop source = t.render source := by
  intro t
  apply eventually_atTop.mp
  unfold renderWithin render
  cases hs : TagScanner.ofTags t.toolkit.tags t.settings.delimiters with
  | error e => exact .of_forall fun _ _ => rfl
  | ok scanner =>
      have henv : (⟨t.toolkit, scanner, t.settings, t.loader⟩ : Environment).IsOrderly :=
        ⟨TagScanner.advances_ofTags_builtin hs, fun _ => Preparer.isLocal_of_mem_builtins⟩
      have hpage := (Rendering.ends_page henv source).inTime _ (.start t.globals)
      filter_upwards [hpage] with n hn stop
      exact congrArg t.rendered (hn stop)

end TagTemplate
