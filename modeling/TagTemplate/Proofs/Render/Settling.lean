import Mathlib.Order.Filter.AtTopBot.Basic
import TagTemplate.Proofs.Render.Clock
import TagTemplate.Proofs.Render.Confinement

/-! # Steps that settle

Rendering by the clock gives what rendering gives, as soon as there is time enough.  The time that a
step needs depends on the state from which it begins, so it is found step by step: a step that
settles gives in time what the step of the program gives, and then the next step begins in a known
state.

* `Rendering.InTime`: a step by the clock gives in time what a step gives.
* `Rendering.Settles`: the same for a step of a node, in every state that keeps the node.
* `settles_ruleWithin`: the rule of a node settles if what the node holds does, and what is one level
  deeper. -/

namespace TagTemplate

open Filter

/-- What holds from some time on after a call holds from some time on. -/
theorem eventually_of_succ {p : Nat → Prop} (h : ∀ᶠ n in atTop, p (n + 1)) :
    ∀ᶠ n in atTop, p n := by
  rwa [← map_add_atTop_eq_nat 1, eventually_map]

theorem mapM_eq_some_map {α β : Type} {f : α → Option β} {g : α → β} :
    ∀ {l : List α}, (∀ a ∈ l, f a = some (g a)) → l.mapM f = some (l.map g)
  | [], _ => rfl
  | a :: l, h => by
      have ih := mapM_eq_some_map fun b hb => h b (List.mem_cons_of_mem a hb)
      rw [List.mapM_cons, h a List.mem_cons_self, ih]
      rfl

/-! ### Going up and down in a document -/

namespace Document

variable {d : Document}

/-- The way up from a node of a sound document ends. -/
theorem Sound.walkWithin_eventually (h : d.Sound) {id : Nat} (hid : id < d.size) :
    ∀ᶠ n in atTop, d.walkWithin n id = some (d.ancestors id) := by
  refine h.parent_induction
    (P := fun id => ∀ᶠ n in atTop, d.walkWithin n id = some (d.ancestors id)) ?_ id hid
  intro id hid ih
  apply eventually_of_succ
  rw [h.ancestors_eq_cons hid]
  cases hp : (d.node id).parent with
  | none =>
      refine .of_forall fun n => ?_
      rw [walkWithin, hp]
      rfl
  | some parent =>
      filter_upwards [ih parent hp] with n hn
      rw [walkWithin, hp]
      dsimp only
      rw [hn]
      rfl

/-- What lies below a node is found in as many calls as there are numbers up to its own. -/
theorem familyWithin_eq (h : ∀ i, ∀ c ∈ (d.node i).children, c < i) :
    ∀ {n id : Nat} (parent : Option Nat), id < n →
      d.familyWithin n parent id = some (d.family parent id)
  | 0, _, _, hn => absurd hn (Nat.not_lt_zero _)
  | n + 1, id, parent, hn => by
      have hbelow : ∀ c ∈ (d.node id).children, d.familyWithin n (some id) c =
          some (if _h : c < id then d.family (some id) c else []) := by
        intro c hc
        have hlt := h id c hc
        rw [dif_pos hlt]
        exact familyWithin_eq h (some id) (by omega)
      rw [familyWithin, mapM_eq_some_map hbelow, family, List.flatMap_def]
      rfl

end Document

/-- The scanner goes forward, and preparers change no more of a node than what belongs to it. -/
structure Environment.IsOrderly (env : Environment) : Prop where
  advances : env.scanner.Advances
  isLocal : ∀ p ∈ env.toolkit.preparers, p.IsLocal

namespace Rendering

/-! ### Building fragments -/

theorem readFragmentWithin_eventually {s : TagScanner} (h : s.Advances) (d : Document)
    (source : String) :
    ∀ᶠ n in atTop, d.readFragmentWithin n s source = some (d.readFragment s source) := by
  let text := source.toList.toArray
  filter_upwards [eventually_gt_atTop (text.size + (text.size - 0))] with n hn
  have hread := h.readWithin_eq 0 0 hn
  unfold Document.readFragmentWithin Document.readFragment TagScanner.read
  rw [hread]
  dsimp only [Option.bind_eq_bind, Option.bind_some]
  split <;> rfl

theorem buildWithin_eventually {env : Environment} (henv : env.IsOrderly) {s : RenderState}
    (hs : s.document.Sound) {parent : Option Nat} (hp : ∀ p, parent = some p → p < s.document.size)
    (source : String) (inherited : Scope) (paths : SearchPaths) :
    ∀ᶠ n in atTop, ∀ stop, buildWithin env n stop source parent inherited paths s =
      build env source parent inherited paths s := by
  have hread := readFragmentWithin_eventually henv.advances s.document source
  by_cases herrors : (env.scanner.read source).errors = []
  · have hfragment := s.document.readFragment_of_no_errors parent herrors
    have hsound := hs.grow_fragment grounded_untouched hp (env.scanner.read source).parts
      ⟨0, source.utf8ByteSize⟩
    have hroot := eventually_gt_atTop
      (s.document.size + Part.countAll (env.scanner.read source).parts)
    filter_upwards [hread, hroot] with n hn hlt stop
    have hfamily := Document.familyWithin_eq (fun i c hc => hsound.child_lt hc) parent hlt
    unfold buildWithin build
    rw [hn, hfragment]
    dsimp only
    rw [Document.prepareWithin, hfamily]
    rfl
  · have hfragment := s.document.readFragment_of_errors herrors
    filter_upwards [hread] with n hn stop
    unfold buildWithin build
    rw [hn, hfragment]

/-! ### Steps in time -/

/-- From every state with the property the step by the clock gives in time what the step gives. -/
def InTime {α : Type} (P : RenderState → Prop) (x : Nat → RenderError → Rendering α)
    (y : Rendering α) : Prop :=
  ∀ s, P s → ∀ᶠ k in atTop, ∀ stop, x k stop s = y s

namespace InTime

variable {α β : Type} {P : RenderState → Prop} {x : Nat → RenderError → Rendering α}
  {y : Rendering α}

/-- A step without calls. -/
theorem refl (P : RenderState → Prop) (y : Rendering α) : InTime P (fun _ _ => y) y :=
  fun _ _ => .of_forall fun _ _ => rfl

theorem comp {g : Nat → Nat} (hg : Tendsto g atTop atTop) (h : InTime P x y) :
    InTime P (fun k stop => x (g k) stop) y :=
  fun s hs => hg.eventually (h s hs)

theorem call {z : Nat → RenderError → Nat → Rendering α} {g : Nat → Nat}
    (hg : Tendsto g atTop atTop) (h : InTime P (fun k stop => z k stop (g k - 1 + 1)) y) :
    InTime P (fun k stop => z k stop (g k)) y := by
  intro s hs
  filter_upwards [hg.eventually (eventually_ge_atTop 1), h s hs] with k hk hstep stop
  rw [← hstep stop, Nat.sub_add_cancel hk]

/-- The second step begins in the state that the first one leads to. -/
theorem bind (hx : InTime P x y) (hy : ∀ s, P s → P (y s).2)
    {f : Nat → RenderError → α → Rendering β} {g : α → Rendering β}
    (hf : ∀ a, InTime P (fun k stop => f k stop a) (g a)) :
    InTime P (fun k stop => x k stop >>= f k stop) (y >>= g) := by
  intro s hs
  have hkeeps := hy s hs
  have hfirst := hx s hs
  cases hr : y s with
  | mk r t =>
      rw [hr] at hkeeps hfirst
      cases r with
      | error e =>
          filter_upwards [hfirst] with k hk stop
          rw [bind_of_error (hk stop), bind_of_error hr]
      | ok a =>
          filter_upwards [hfirst, hf a t hkeeps] with k hk hk' stop
          rw [bind_of_ok (hk stop), bind_of_ok hr]
          exact hk' stop

end InTime

/-! ### Steps of a node -/

/-- A sound state that has the node, and in which the node is what `n` was. -/
structure Keeps (id : Nat) (n : Node) (s : RenderState) : Prop where
  sound : s.document.Sound
  lt : id < s.document.size
  stays : n.Stays (s.node id)

theorem Keeps.acts {env : Environment} (henv : env.IsOrderly) {id : Nat} {n : Node}
    {s t : RenderState} (hs : Keeps id n s) (h : Acts env id s t) : Keeps id n t where
  sound := h.sound henv.isLocal hs.sound hs.lt
  lt := Nat.lt_of_lt_of_le hs.lt h.stays.size_le
  stays := hs.stays.trans (h.stays.node hs.lt)

/-- The step is a sequence of acts of the node, and from every state that keeps the node the step
by the clock gives in time what the step gives. -/
structure Settles {α : Type} (env : Environment) (id : Nat) (n : Node)
    (x : Nat → RenderError → Rendering α) (y : Rendering α) : Prop where
  follows : Follows env id n y
  inTime : env.IsOrderly → InTime (Keeps id n) x y

namespace Settles

variable {α β : Type} {env : Environment} {id : Nat} {n : Node}
  {x x' : Nat → RenderError → Rendering α} {y y' : Rendering α}

theorem of_follows (hy : Follows env id n y) : Settles env id n (fun _ _ => y) y :=
  ⟨hy, fun _ => .refl _ y⟩

theorem pure (a : α) : Settles env id n (fun _ _ => pure a) (pure a) :=
  of_follows (.pure a)

theorem call {z : Nat → RenderError → Nat → Rendering α} {g : Nat → Nat}
    (hg : Tendsto g atTop atTop) (h : Settles env id n (fun k stop => z k stop (g k - 1 + 1)) y) :
    Settles env id n (fun k stop => z k stop (g k)) y :=
  ⟨h.follows, fun henv => .call hg (h.inTime henv)⟩

theorem congr_right (hy : ∀ s : RenderState, n.Stays (s.node id) → y s = y' s)
    (h : Settles env id n x y') : Settles env id n x y := by
  refine ⟨fun s hid hn => ?_, fun henv s hs => ?_⟩
  · rw [hy s hn]
    exact h.follows s hid hn
  · rw [hy s hs.stays]
    exact h.inTime henv s hs

theorem bind (hx : Settles env id n x y) {f : Nat → RenderError → α → Rendering β}
    {g : α → Rendering β} (hf : ∀ a, Settles env id n (fun k stop => f k stop a) (g a)) :
    Settles env id n (fun k stop => x k stop >>= f k stop) (y >>= g) := by
  refine ⟨hx.follows.bind fun a => (hf a).follows, fun henv => ?_⟩
  have hkeeps : ∀ s, Keeps id n s → Keeps id n (y s).2 :=
    fun s hs => hs.acts henv (hx.follows s hs.lt hs.stays).acts
  exact (hx.inTime henv).bind hkeeps fun a => (hf a).inTime henv

theorem step_bind (hy : Follows env id n y) {f : Nat → RenderError → α → Rendering β}
    {g : α → Rendering β} (hf : ∀ a, Settles env id n (fun k stop => f k stop a) (g a)) :
    Settles env id n (fun k stop => y >>= f k stop) (y >>= g) :=
  (of_follows hy).bind hf

theorem map (f : α → β) (hx : Settles env id n x y) :
    Settles env id n (fun k stop => f <$> x k stop) (f <$> y) := by
  refine ⟨.map f hx.follows, fun henv s hs => ?_⟩
  filter_upwards [hx.inTime henv s hs] with k hk stop
  rw [map_apply, map_apply, hk stop]

theorem node_bind {f : Nat → RenderError → Node → Rendering β} {g : Node → Rendering β}
    (hf : ∀ m, n.Stays m → Settles env id n (fun k stop => f k stop m) (g m)) :
    Settles env id n (fun k stop => node id >>= f k stop) (node id >>= g) :=
  ⟨.node_bind fun m hm => (hf m hm).follows,
    fun henv s hs => (hf (s.node id) hs.stays).inTime henv s hs⟩

theorem get_bind {f : Nat → RenderError → RenderState → Rendering β}
    {g : RenderState → Rendering β}
    (hf : ∀ s, n.Stays (s.node id) → Settles env id n (fun k stop => f k stop s) (g s)) :
    Settles env id n (fun k stop => get >>= f k stop) (get >>= g) :=
  ⟨.get_bind fun s hs => (hf s hs).follows, fun henv s hs => (hf s hs.stays).inTime henv s hs⟩

theorem ite {c : Prop} [Decidable c] (hx : Settles env id n x y) (hx' : Settles env id n x' y') :
    Settles env id n (fun k stop => if c then x k stop else x' k stop) (if c then y else y') := by
  by_cases hc : c
  · simp only [if_pos hc]
    exact hx
  · simp only [if_neg hc]
    exact hx'

/-- An event under a condition, before the rest of a step. -/
theorem report_if {c : Prop} [Decidable c] (kind : EventKind) (detail : String)
    {f : Nat → RenderError → Unit → Rendering β} {g : Unit → Rendering β}
    (hf : Settles env id n (fun k stop => f k stop ⟨⟩) (g ⟨⟩)) :
    Settles env id n
      (fun k stop => if c then report id kind detail >>= f k stop else f k stop ⟨⟩)
      (if c then report id kind detail >>= g else g ⟨⟩) :=
  .ite (.step_bind (.report kind detail) fun _ => hf) hf

theorem ensuring {f : RenderState → RenderState} (hx : Settles env id n x y)
    (hf : ∀ s, n.Stays (s.node id) → Act id s (f s)) :
    Settles env id n (fun k stop => Rendering.ensuring (x k stop) f) (y.ensuring f) := by
  refine ⟨.ensuring hx.follows hf, fun henv s hs => ?_⟩
  filter_upwards [hx.inTime henv s hs] with k hk stop
  rw [ensuring_apply, ensuring_apply, hk stop]

theorem mapM {γ : Type} {f : Nat → RenderError → γ → Rendering β} {g : γ → Rendering β}
    (l : List γ) (hf : ∀ c ∈ l, Settles env id n (fun k stop => f k stop c) (g c)) :
    Settles env id n (fun k stop => l.mapM (f k stop)) (l.mapM g) := by
  induction l with
  | nil => exact .pure _
  | cons c l ih =>
      simp only [List.mapM_cons]
      refine (hf c List.mem_cons_self).bind fun b => ?_
      exact (ih fun d hd => hf d (List.mem_cons_of_mem c hd)).bind fun bs => .pure _

/-- The way up from the node is gone in time, before a step that settles. -/
theorem climb_bind (hx : Settles env id n x y) :
    Settles env id n (fun k stop => climbWithin k stop id >>= fun _ => x k stop) y := by
  refine ⟨hx.follows, fun henv s hs => ?_⟩
  have hwalk := hs.sound.walkWithin_eventually hs.lt
  filter_upwards [hwalk, hx.inTime henv s hs] with k hk hk' stop
  have hclimb : climbWithin k stop id s = (.ok ⟨⟩, s) := by
    have hnot : ¬ (s.document.walkWithin k id).isNone = true := by
      rw [hk]
      exact Bool.false_ne_true
    rw [climbWithin, bind_of_ok (get_apply s), if_neg hnot]
    rfl
  rw [bind_of_ok hclimb]
  exact hk' stop

end Settles

/-! ### The rules of a node -/

section rules
variable {α : Type} {env : Environment} {id : Nat} {n : Node}
  {body : Nat → RenderError → Rendering String} {body' : Rendering String}

theorem settles_conditional (hb : Settles env id n body body') :
    Settles env id n (fun k stop => conditional id (body k stop)) (conditional id body') :=
  .get_bind fun _ _ => .ite hb (.pure _)

/-- A loop that counts up to its limit ends, by a clock of its own. -/
theorem settles_whileWithin (hb : Settles env id n body body') :
    ∀ (remaining done : Nat) {g : Nat → Nat}, Tendsto g atTop atTop → Settles env id n
      (fun k stop => whileWithin stop id (body k stop) (done + remaining) (g k) done)
      (whileTexts id body' remaining)
  | remaining, done, g, hg => by
      have hpred : Tendsto (fun k => g k - 1) atTop atTop := (tendsto_sub_atTop_nat 1).comp hg
      refine .call
        (z := fun k stop m => whileWithin stop id (body k stop) (done + remaining) m done) hg ?_
      simp only [whileWithin]
      cases remaining with
      | zero =>
          have hnot : ¬ done < done + 0 := Nat.lt_irrefl done
          simp only [if_neg hnot]
          exact .get_bind fun s _ => .report_if _ _ (.pure _)
      | succ remaining =>
          have hlt : done < done + (remaining + 1) := by omega
          have hlimit : done + (remaining + 1) = done + 1 + remaining := by omega
          simp only [if_pos hlt]
          refine .get_bind fun s _ => .ite (hb.bind fun text => ?_) (.pure _)
          rw [hlimit]
          exact (settles_whileWithin hb remaining (done + 1) hpred).bind fun _ => .pure _

theorem settles_eachTexts (hk : n.kind = .eachLoop) (hb : Settles env id n body body') :
    ∀ (index : Nat) (entries : List LoopEntry), Settles env id n
      (fun k stop => eachTexts id (body k stop) index entries) (eachTexts id body' index entries)
  | _, [] => .pure _
  | index, e :: rest => by
      refine .step_bind (.modify fun s hn => .entry _ (hn.kind.trans hk)) fun _ => ?_
      refine hb.bind fun _ => ?_
      exact (settles_eachTexts hk hb (index + 1) rest).bind fun _ => .pure _

theorem settles_eachLoop (hk : n.kind = .eachLoop) (hb : Settles env id n body body') :
    Settles env id n (fun k stop => eachLoop id (body k stop)) (eachLoop id body') := by
  refine .get_bind fun s _ => .bind (.ensuring (settles_eachTexts hk hb 0 _) ?_) fun _ => .pure _
  exact fun t hn => .entry _ (hn.kind.trans hk)

theorem settles_attemptsFrom (hk : n.kind = .untilLoop) (hb : Settles env id n body body')
    (accepts : Validator) : ∀ attempt count, Settles env id n
      (fun k stop => attemptsFrom id (body k stop) accepts attempt count)
      (attemptsFrom id body' accepts attempt count)
  | attempt, 0 => by
      refine .step_bind (.modify fun s hn => .attempt _ (hn.kind.trans hk)) fun _ => ?_
      exact hb.bind fun _ => .report_if _ _ (.pure _)
  | attempt, count + 1 => by
      refine .step_bind (.modify fun s hn => .attempt _ (hn.kind.trans hk)) fun _ => ?_
      refine hb.bind fun _ => .ite (.pure _) ?_
      exact settles_attemptsFrom hk hb accepts (attempt + 1) count

theorem settles_untilLoop (hk : n.kind = .untilLoop) (hb : Settles env id n body body')
    (validators : NameMap Validator) : Settles env id n
      (fun k stop => untilLoop id (body k stop) validators) (untilLoop id body' validators) := by
  refine .node_bind fun m _ => ?_
  split
  · exact settles_attemptsFrom hk hb _ 1 _
  · exact hb

theorem settles_await (hb : Settles env id n body body') :
    Settles env id n (fun k stop => await id (body k stop)) (await id body') := by
  refine .node_bind fun m _ => ?_
  refine .step_bind (.report _ _) fun _ => .step_bind (.report _ _) fun _ => ?_
  exact hb.bind fun _ => .step_bind (.report _ _) fun _ => .pure _

theorem settles_layout (hk : n.kind = .layout) (hb : Settles env id n body body') :
    Settles env id n (fun k stop => layout id (body k stop)) (layout id body') := by
  refine .node_bind fun m _ => ?_
  have hf (content : Option String) (name : String) : Follows env id n (modify fun s =>
      s.updateContainer id fun c =>
        { layout := some name, slots := content.elim c.slots (c.slots.insert contentSlot) }) :=
    .modify fun s hn => .fill _ (.inl (hn.kind.trans hk))
  split
  · split
    · refine .step_bind (.pure _) fun content => ?_
      exact .step_bind (hf content _) fun _ => .pure _
    · refine .bind (.map _ hb) fun content => ?_
      exact .step_bind (hf content _) fun _ => .pure _
  · exact .pure _

theorem settles_slot (hk : n.kind = .slot) (hb : Settles env id n body body') :
    Settles env id n (fun k stop => slot id (body k stop)) (slot id body') := by
  refine hb.bind fun text => .of_follows (.node_bind fun m _ => ?_)
  split
  · exact .bind (.modify fun s hn => .fill _ (.inr (hn.kind.trans hk))) fun _ => .pure _
  · exact .pure _

theorem settles_runProgram (hk : n.kind = .custom) (hb : Settles env id n body body') :
    ∀ p : TagProgram α, Settles env id n
      (fun k stop => runProgram id (body k stop) p) (runProgram id body' p)
  | .done a => .pure a
  | .fail e => .of_follows (.throw e)
  | .look _ => .get_bind fun _ _ => settles_runProgram hk hb _
  | .assign a next => .step_bind (.modify fun _ hn => .assign a (.custom (hn.kind.trans hk)))
      fun _ => settles_runProgram hk hb next
  | .report kind detail next =>
      .step_bind (.report kind detail) fun _ => settles_runProgram hk hb next
  | .renderChildren next => hb.bind fun text => settles_runProgram hk hb (next text)

theorem settles_customRule (hk : n.kind = .custom) (hb : Settles env id n body body') :
    Settles env id n (fun k stop => customRule env id (body k stop)) (customRule env id body') := by
  refine .node_bind fun m _ => ?_
  split
  · exact settles_runProgram hk hb _
  · exact .bind (settles_runProgram hk hb _) fun _ => .pure _
  · exact hb

/-- All rules that produce text by themselves but loops under a condition. -/
theorem settles_ownText (hk : n.kind ≠ .whileLoop) (hb : Settles env id n body body') :
    Settles env id n (fun k stop => ownText env id (body k stop)) (ownText env id body') := by
  refine .node_bind fun m hm => ?_
  have hkind := hm.kind
  split
  · exact .pure _
  · exact .of_follows (.get_bind fun _ _ => .pure _)
  · exact settles_conditional hb
  · next h => exact absurd (hkind ▸ h) hk
  · next h => exact settles_eachLoop (hkind ▸ h) hb
  · next h => exact settles_untilLoop (hkind ▸ h) hb _
  · exact settles_await hb
  · exact .pure _
  · exact hb

/-! ### Nodes that bring in a source -/

/-- Rendering the node is a sequence of its acts, and by the clock it is done in time, in every
state with a sound document that has the node. -/
structure NodeSettles (env : Environment) (id : Nat) (x : Nat → RenderError → Rendering String)
    (y : Rendering String) : Prop where
  deeds (s : RenderState) (hid : id < s.document.size) : Deeds env (Unread (y s).1) id s (y s).2
  inTime : env.IsOrderly → InTime (fun s => s.document.Sound ∧ id < s.document.size) x y

/-- Rendering one level deeper by the clock, where there is one. -/
inductive NestedSettles (env : Environment) :
    (Nat → RenderError → Option (Nat → Rendering String)) → Option (Nat → Rendering String) → Prop
  | none : NestedSettles env (fun _ _ => none) none
  | some {render : Nat → RenderError → Nat → Rendering String} {render' : Nat → Rendering String}
      (h : ∀ root, NodeSettles env root (fun k stop => render k stop root) (render' root)) :
      NestedSettles env (fun k stop => some (render k stop)) (some render')

/-- A fragment is built in time, and then its root is rendered in time. -/
theorem settles_build {render : Nat → RenderError → Nat → Rendering String}
    {render' : Nat → Rendering String}
    (hr : ∀ root, NodeSettles env root (fun k stop => render k stop root) (render' root))
    {parent : Option Nat} (hk : Builds id n.kind parent) (source : String) (inherited : Scope)
    (paths : SearchPaths) {f : Nat → String → Rendering α}
    (hf : ∀ root text, Follows env id n (f root text)) :
    Settles env id n
      (fun k stop => do
        let root ← buildWithin env k stop source parent inherited paths
        let text ← render k stop root
        f root text)
      (do
        let root ← build env source parent inherited paths
        let text ← render' root
        f root text) := by
  have hnested : Nested env (some render') := by
    rintro _ ⟨⟩ root s hroot
    exact (hr root).deeds s hroot
  refine ⟨follows_build hnested rfl hk source inherited paths hf, fun henv s hs => ?_⟩
  have hparent := (hs.stays.kind ▸ hk : Builds id (s.node id).kind parent).parent_lt hs.lt
  have hbuild := buildWithin_eventually henv hs.sound hparent source inherited paths
  cases hb : build env source parent inherited paths s with
  | mk r t =>
      rw [hb] at hbuild
      cases r with
      | error e =>
          filter_upwards [hbuild] with k hk stop
          rw [bind_of_error (hk stop), bind_of_error hb]
      | ok root =>
          have hbuilt := built_of_build henv.isLocal hs.sound hparent hb
          have hrender := (hr root).inTime henv t ⟨hbuilt.sound, hbuilt.root_lt⟩
          filter_upwards [hbuild, hrender] with k hk hk' stop
          rw [bind_of_ok (hk stop), bind_of_ok hb, bind_apply, bind_apply, hk' stop]

variable {nested : Nat → RenderError → Option (Nat → Rendering String)}
  {nested' : Option (Nat → Rendering String)}

theorem settles_renderSource (hn : NestedSettles env nested nested')
    (hk : Builds id n.kind (some id)) (source : String) (bindings : Scope) (paths : SearchPaths) :
    Settles env id n
      (fun k stop => renderSourceWithin env k stop id (nested k stop) source bindings paths)
      (renderSource env id nested' source bindings paths) := by
  cases hn with
  | none => exact .of_follows follows_tooDeep
  | some h => exact settles_build h hk source bindings paths fun _ _ => .pure _

theorem settles_invocation (hn : NestedSettles env nested nested') (hk : n.kind = .invocation) :
    Settles env id n (fun k stop => invocationWithin env k stop id (nested k stop))
      (invocation env id nested') := by
  refine .get_bind fun s _ => ?_
  dsimp only
  cases s.macros.get? (s.node id).givenName with
  | some m => exact settles_renderSource hn (by rw [hk]; exact .invocation) _ _ _
  | none => exact .of_follows (.bind (.report _ _) fun _ => .pure _)

theorem settles_inclusion (hn : NestedSettles env nested nested') (hk : n.kind = .inclusion) :
    Settles env id n (fun k stop => inclusionWithin env k stop id (nested k stop))
      (inclusion env id nested') := by
  refine .step_bind (follows_loadFor _) fun r => ?_
  split
  · exact .pure _
  · refine .get_bind fun s _ => ?_
    exact settles_renderSource hn (by rw [hk]; exact .inclusion) _ _ _

theorem settles_moduleUse (hn : NestedSettles env nested nested') (hk : n.kind = .moduleUse) :
    Settles env id n (fun k stop => moduleUseWithin env k stop id (nested k stop))
      (moduleUse env id nested') := by
  refine .step_bind (follows_loadFor _) fun r => ?_
  split
  · exact .pure _
  · cases hn with
    | none => exact .of_follows follows_tooDeep
    | some h =>
        refine .node_bind fun m _ => ?_
        refine settles_build h (by rw [hk]; exact .moduleUse) _ _ _ fun root _ => ?_
        exact .bind (.modify fun s hn => .adopt _ (hn.kind.trans hk)) fun _ => .pure _

theorem settles_ruleWithin (hn : NestedSettles env nested nested')
    (hb : Settles env id n body body') : Settles env id n
      (fun k stop => ruleWithin env k stop id (nested k stop) (body k stop) n.kind)
      (rule env id body' nested' n.kind.dispatch) := by
  cases hk : n.kind with
  | root | literal | reference | conditional | eachLoop | untilLoop | await | comment =>
      exact settles_ownText (by rw [hk]; decide) hb
  | whileLoop =>
      have hloop := settles_whileWithin hb env.settings.maxIterations 0 tendsto_id
      simp only [Nat.zero_add] at hloop
      refine .congr_right (fun s hs => ?_) (hloop.bind fun texts => .pure (String.join texts))
      have hkind : (s.node id).kind = .whileLoop := hs.kind.trans hk
      show ownText env id body' s = _
      rw [ownText, bind_of_ok (node_apply id s), hkind]
      rfl
  | layout => exact settles_layout hk hb
  | slot => exact settles_slot hk hb
  | output => exact .of_follows (.get_bind fun _ _ => .pure _)
  | binding => exact .of_follows (.bind (follows_binding hk) fun _ => .pure _)
  | expression => exact .of_follows (.bind (follows_expression hk) fun _ => .pure _)
  | definition => exact .of_follows (.bind (follows_definition hk) fun _ => .pure _)
  | invocation => exact (settles_invocation hn hk).bind fun _ => .pure _
  | inclusion => exact (settles_inclusion hn hk).bind fun _ => .pure _
  | moduleUse => exact (settles_moduleUse hn hk).bind fun _ => .pure _
  | custom => exact settles_customRule hk hb

theorem settles_withLifecycle {x : Nat → RenderError → Rendering String} {y : Rendering String}
    (hx : Settles env id n x y) :
    Settles env id n (fun k stop => withLifecycle id (x k stop)) (withLifecycle id y) :=
  .node_bind fun _ _ => .report_if _ _ (hx.bind fun _ => .of_follows (.report_if _ _ (.pure _)))

end rules

end Rendering

end TagTemplate
