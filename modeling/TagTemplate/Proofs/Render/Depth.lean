import TagTemplate.Proofs.Render.Plans

/-! # The depth of fragments

A rendering knows how many fragments it is in.  Here it does not know it from the way it is called:
it keeps a counter, which it raises before it renders a fragment and lowers afterwards, and it looks
at the counter where a fragment must not be nested too deep.  Next to the counter stand the
fragments that are being rendered, which the rendering never looks at, and all calls that have
returned.

* `Counting.node`: the text of a node, with the counter.
* `Counting.Counts`: a step with the counter does what a step of a rendering does, and leaves the
  counter as it was.
* `Counting.counts_page`: so does the rendering of a page, and the counter is always right. -/

namespace TagTemplate

/-- A call that has rendered a node: the fragments that were being rendered then, and the counter
when the call was made and when it returned. -/
structure Call where
  id : Nat
  fragments : List Nat
  entered : Nat
  left : Nat

/-- The counter was the number of fragments being rendered, which was not too large, and it was the
same again when the call returned. -/
structure Call.IsRight (limit : Nat) (k : Call) : Prop where
  entered : k.entered = k.fragments.length
  le : k.entered ≤ limit
  left : k.left = k.entered

/-- A state with a counter. -/
structure CountedState where
  state : RenderState
  depth : Nat := 0
  fragments : List Nat := []
  calls : List Call := []

/-- A step of a rendering that keeps a counter. -/
abbrev Counting := ExceptT RenderError (StateM CountedState)

namespace Counting

variable {α β : Type}

/-- A step that does not look at the counter. -/
def lift (x : Rendering α) : Counting α := fun c =>
  let (r, s) := x c.state
  (r, { c with state := s })

/-- The step that runs `x` and then, whether it succeeded or not, changes the state. -/
def ensuring (x : Counting α) (f : CountedState → CountedState) : Counting α := fun c =>
  let (r, c) := x c
  (r, f c)

/-- The rendering of a fragment, which is noted as long as it goes on. -/
def within (root : Nat) (x : Counting α) : Counting α := do
  modify fun c => { c with fragments := root :: c.fragments }
  x.ensuring fun c => { c with fragments := c.fragments.tail }

/-- The call that renders a node, which is noted when it returns. -/
def call (id : Nat) (x : Counting α) : Counting α := fun c =>
  let (r, t) := x c
  (r, { t with calls := t.calls ++ [⟨id, c.fragments, c.depth, t.depth⟩] })

/-- Carries out a plan, where `render` renders a node of a fragment. -/
def carryOut (env : Environment) (body : Counting String) (render : Nat → Counting String) :
    {α : Type} → Plan α → Counting α
  | _, .done a => pure a
  | _, .own x next => lift x >>= fun b => carryOut env body render (next b)
  | _, .body next => body >>= fun text => carryOut env body render (next text)
  | _, .ensuring x f next =>
    (carryOut env body render x).ensuring (fun c => { c with state := f c.state }) >>= fun b =>
      carryOut env body render (next b)
  | _, .fragment source parent inherited paths tooDeep next => do
    if (← get).depth < env.settings.maxDepth then
      let root ← lift (Rendering.build env source parent inherited paths)
      modify fun c => { c with depth := c.depth + 1 }
      let text ← (within root (render root)).ensuring fun c => { c with depth := c.depth - 1 }
      carryOut env body render (next root text)
    else carryOut env body render tooDeep

/-- The text of a node.  Fragments are rendered `room` deep at most, which is no bound if the
settings allow no more. -/
def node (env : Environment) (room id : Nat) : Counting String :=
  let body : Counting String := do
    let n ← lift (Rendering.node id)
    let texts ← n.children.mapM fun child =>
      if _h : child < id then node env room child else pure ""
    return String.join texts
  let render (root : Nat) : Counting String :=
    if _h : 0 < room then node env (room - 1) root else pure ""
  call id (carryOut env body render (Plan.node env id))
termination_by (room, id)
decreasing_by
  · exact Prod.Lex.right _ _h
  · exact Prod.Lex.left _ _ (by omega)

/-! ### Pages -/

/-- Renders a source as a container that has slots already. -/
def renderContainer (env : Environment) (room : Nat) (source : String) (slots : NameMap String) :
    Counting (String × Container) := do
  let root ← lift (Rendering.build env source none ∅ env.settings.paths)
  lift (modify fun s => { s with document := s.document.setContainer root { slots } })
  let text ← node env room root
  return (text, ((← lift (Rendering.node root)).container).getD {})

/-- Puts layouts around a text as long as containers ask for them. -/
def wrap (env : Environment) (room : Nat) (used : List String) (text : String) (c : Container) :
    Nat → Counting (String × Container)
  | 0 => lift (Rendering.wrap env used text c 0)
  | remaining + 1 =>
    match c.layout with
    | none => return (text, c)
    | some name =>
      if name ∈ used then do
        lift (Rendering.reportTemplate env .error (Rendering.cycleMessage name))
        return (text, c)
      else do
        match ← lift (Rendering.loadLayout env name) with
        | none => return (text, c)
        | some source =>
          let (text, c) ← renderContainer env room source (c.slots.insert contentSlot text)
          wrap env room (name :: used) text c remaining

/-- Renders a page with all its layouts. -/
def page (env : Environment) (room : Nat) (source : String) : Counting (String × Container) := do
  let (text, c) ← renderContainer env room source ∅
  wrap env room [] text c env.settings.maxDepth

/-! ### Running steps -/

theorem bind_apply (x : Counting α) (f : α → Counting β) (c : CountedState) :
    (x >>= f) c = match x c with
      | (.ok a, t) => f a t
      | (.error e, t) => (.error e, t) := by
  simp only [Bind.bind, ExceptT.bind, ExceptT.mk, StateT.bind]
  cases x c with
  | mk r t => cases r <;> rfl

theorem bind_of_ok {x : Counting α} {f : α → Counting β} {c t : CountedState} {a : α}
    (h : x c = (.ok a, t)) : (x >>= f) c = f a t := by
  rw [bind_apply, h]

theorem modify_apply (f : CountedState → CountedState) (c : CountedState) :
    (modify f : Counting Unit) c = (.ok ⟨⟩, f c) :=
  rfl

theorem get_apply (c : CountedState) : (get : Counting CountedState) c = (.ok c, c) :=
  rfl

def held (render : Nat → Counting String) (id : Nat) : Counting String := do
  let n ← lift (Rendering.node id)
  let texts ← n.children.mapM fun child => if child < id then render child else pure ""
  return String.join texts

theorem node_eq (env : Environment) (room id : Nat) :
    node env room id = call id (carryOut env (held (node env room) id)
      (fun root => if 0 < room then node env (room - 1) root else pure "") (Plan.node env id)) := by
  rw [node]
  rfl

/-! ### The counter is right -/

/-- In a state in which `depth` fragments are being rendered, the step does what the second one
does, and it leaves behind nothing else but calls, in which the counter is right. -/
def Counts (limit depth : Nat) (x : Counting α) (y : Rendering α) : Prop :=
  ∀ c : CountedState, c.depth = depth → c.fragments.length = depth →
    ∃ calls : List Call, (∀ k ∈ calls, k.IsRight limit) ∧
      x c = ((y c.state).1, { c with state := (y c.state).2, calls := c.calls ++ calls })

namespace Counts

variable {limit depth : Nat} {x : Counting α} {y : Rendering α}

theorem pure (a : α) : Counts limit depth (pure a) (pure a) := by
  intro c _ _
  refine ⟨[], List.forall_mem_nil _, ?_⟩
  rw [List.append_nil]
  rfl

theorem lift (x : Rendering α) : Counts limit depth (lift x) x := by
  intro c _ _
  refine ⟨[], List.forall_mem_nil _, ?_⟩
  rw [List.append_nil]
  rfl

theorem bind (hx : Counts limit depth x y) {f : α → Counting β} {g : α → Rendering β}
    (hf : ∀ a, Counts limit depth (f a) (g a)) : Counts limit depth (x >>= f) (y >>= g) := by
  intro c hdepth hfragments
  obtain ⟨calls, hright, hrun⟩ := hx c hdepth hfragments
  rw [bind_apply, Rendering.bind_apply, hrun]
  cases y c.state with
  | mk r s =>
      cases r with
      | error e => exact ⟨calls, hright, rfl⟩
      | ok a =>
          obtain ⟨more, hmore, hrest⟩ := hf a { c with state := s, calls := c.calls ++ calls }
            hdepth hfragments
          refine ⟨calls ++ more, List.forall_mem_append.mpr ⟨hright, hmore⟩, hrest.trans ?_⟩
          rw [List.append_assoc]

theorem ensuring (hx : Counts limit depth x y) (f : RenderState → RenderState) :
    Counts limit depth (x.ensuring fun c => { c with state := f c.state })
      (y.ensuring f) := by
  intro c hdepth hfragments
  obtain ⟨calls, hright, hrun⟩ := hx c hdepth hfragments
  refine ⟨calls, hright, ?_⟩
  rw [Counting.ensuring, hrun]
  rfl

theorem mapM {γ : Type} {f : γ → Counting β} {g : γ → Rendering β} :
    ∀ {l : List γ}, (∀ a ∈ l, Counts limit depth (f a) (g a)) →
      Counts limit depth (l.mapM f) (l.mapM g)
  | [], _ => .pure []
  | a :: l, h => by
      rw [List.mapM_cons, List.mapM_cons]
      refine (h a List.mem_cons_self).bind fun b => ?_
      exact (mapM fun d hd => h d (List.mem_cons_of_mem a hd)).bind fun bs => .pure (b :: bs)

theorem call (hx : Counts limit depth x y) (hle : depth ≤ limit) (id : Nat) :
    Counts limit depth (call id x) y := by
  intro c hdepth hfragments
  obtain ⟨calls, hright, hrun⟩ := hx c hdepth hfragments
  refine ⟨calls ++ [⟨id, c.fragments, c.depth, c.depth⟩], ?_, ?_⟩
  · refine List.forall_mem_append.mpr ⟨hright, List.forall_mem_singleton.mpr ?_⟩
    exact ⟨hdepth.trans hfragments.symm, hdepth ▸ hle, rfl⟩
  · rw [Counting.call, hrun, ← List.append_assoc]

/-- While a fragment is rendered the counter is one higher, and then it is lowered again, whether
the fragment has been rendered or has failed. -/
theorem within (hx : Counts limit (depth + 1) x y) (root : Nat) :
    Counts limit depth
      (do
        modify fun c : CountedState => { c with depth := c.depth + 1 }
        (within root x).ensuring fun c => { c with depth := c.depth - 1 })
      y := by
  intro c hdepth hfragments
  obtain ⟨calls, hright, hrun⟩ := hx
    { c with depth := c.depth + 1, fragments := root :: c.fragments } (congrArg Nat.succ hdepth)
    (congrArg Nat.succ hfragments)
  refine ⟨calls, hright, ?_⟩
  rw [bind_of_ok (modify_apply _ c), Counting.ensuring, Counting.within,
    bind_of_ok (modify_apply _ _), Counting.ensuring, hrun]
  rfl

end Counts

section plans
variable {env : Environment} {depth : Nat} {body : Counting String} {body' : Rendering String}
  {render : Nat → Counting String}

/-- A plan is carried out as it is run, if what it renders is. -/
theorem counts_carryOut (hbody : Counts env.settings.maxDepth depth body body')
    (hrender : depth < env.settings.maxDepth → ∀ root,
      Counts env.settings.maxDepth (depth + 1) (render root)
        (Rendering.renderNode env (depth + 1) root))
    (p : Plan α) : Counts env.settings.maxDepth depth (carryOut env body render p)
      (p.run env body' (Rendering.deeper env depth)) := by
  induction p with
  | done a => exact .pure a
  | own x next ih => exact (Counts.lift x).bind ih
  | body next ih => exact hbody.bind ih
  | ensuring x f next ihx ih => exact (ihx.ensuring f).bind ih
  | fragment source parent inherited paths tooDeep next ihDeep ih =>
      intro c hdepth hfragments
      by_cases hlt : depth < env.settings.maxDepth
      · have hdeeper : Rendering.deeper env depth = some (Rendering.renderNode env (depth + 1)) :=
          if_pos hlt
        have hfragment := (Counts.lift (Rendering.build env source parent inherited paths)).bind
          fun root => ((hrender hlt root).within root).bind fun text => ih root text
        simp only [bind_assoc] at hfragment
        rw [carryOut, bind_of_ok (get_apply c), if_pos (hdepth ▸ hlt : c.depth < _)]
        rw [hdeeper] at hfragment ⊢
        exact hfragment c hdepth hfragments
      · have hdeeper : Rendering.deeper env depth = none := if_neg hlt
        rw [carryOut, bind_of_ok (get_apply c), if_neg (hdepth ▸ hlt : ¬ c.depth < _)]
        rw [hdeeper] at ihDeep ⊢
        exact ihDeep c hdepth hfragments

end plans

/-- Rendering a node with the counter is rendering it where the counter says. -/
theorem counts_node (env : Environment) (depth id : Nat) : ∀ room : Nat,
    depth ≤ env.settings.maxDepth → env.settings.maxDepth ≤ room + depth →
      Counts env.settings.maxDepth depth (node env room id)
        (Rendering.renderNode env depth id) := by
  refine Rendering.depth_induction env.settings.maxDepth (P := fun depth id => ∀ room : Nat,
    depth ≤ env.settings.maxDepth → env.settings.maxDepth ≤ room + depth →
      Counts env.settings.maxDepth depth (node env room id) (Rendering.renderNode env depth id))
    (fun depth id hbefore hdeeper room hle hroom => ?_) depth id
  have hheld : Counts env.settings.maxDepth depth (held (node env room) id)
      (Rendering.held (Rendering.renderNode env depth) id) := by
    refine (Counts.lift (Rendering.node id)).bind fun n => ?_
    refine (Counts.mapM fun child _ => ?_).bind fun texts => .pure (String.join texts)
    split
    · next hlt => exact hbefore child hlt room hle hroom
    · exact .pure ""
  rw [node_eq, Rendering.renderNode_eq_run]
  refine .call (counts_carryOut hheld (fun hlt root => ?_) _) hle id
  rw [if_pos (by omega)]
  exact hdeeper hlt root (room - 1) hlt (by omega)

/-! ### Pages -/

section pages
variable {env : Environment} {room : Nat} (hroom : env.settings.maxDepth ≤ room)
include hroom

theorem counts_renderContainer (source : String) (slots : NameMap String) :
    Counts env.settings.maxDepth 0 (renderContainer env room source slots)
      (Rendering.renderContainer env source slots) := by
  refine (Counts.lift _).bind fun root => (Counts.lift _).bind fun _ => ?_
  refine (counts_node env 0 root room (Nat.zero_le _) hroom).bind fun text => ?_
  exact (Counts.lift _).bind fun n => .pure _

theorem counts_wrap : ∀ (remaining : Nat) (used : List String) (text : String) (c : Container),
    Counts env.settings.maxDepth 0 (wrap env room used text c remaining)
      (Rendering.wrap env used text c remaining)
  | 0, used, text, c => .lift _
  | remaining + 1, used, text, c => by
      rw [wrap, Rendering.wrap]
      cases c.layout with
      | none => exact .pure _
      | some name =>
          dsimp only
          split
          · exact (Counts.lift _).bind fun _ => .pure _
          · refine (Counts.lift _).bind fun r => ?_
            cases r with
            | none => exact .pure _
            | some source =>
                exact (counts_renderContainer hroom source _).bind fun p =>
                  counts_wrap remaining (name :: used) p.1 p.2

/-- Rendering a page with the counter is rendering it. -/
theorem counts_page (source : String) :
    Counts env.settings.maxDepth 0 (page env room source) (Rendering.page env source) :=
  (counts_renderContainer hroom source ∅).bind fun p =>
    counts_wrap hroom env.settings.maxDepth [] p.1 p.2

end pages

end Counting

end TagTemplate
