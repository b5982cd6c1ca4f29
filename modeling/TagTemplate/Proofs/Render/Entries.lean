import TagTemplate.Proofs.Render.Mirrors
import TagTemplate.Proofs.Scanning.RoundTrip

/-! # Entries of a loop

A loop renders its body once for each entry, each time with no other variables of its own than
those of the entry.  The blocks inside the body keep their variables from one entry to the next.

* `RenderState.entryState`: the state that an entry finds, but for what was read meanwhile.
* `renderNode_eachLoop`: the text of a loop is made of the texts that its body has for each entry
  alone. -/

namespace TagTemplate

/-! ### Variables below a node -/

namespace RenderState

variable {s r t : RenderState} {id : Nat}

theorem node_setScope {i : Nat} (hi : i < s.document.size) (id : Nat) (scope : Scope) :
    (s.setScope id scope).node i = if id = i then { s.node i with scope } else s.node i :=
  Document.node_update _ _ _ _ hi

theorem size_setScope (s : RenderState) (id : Nat) (scope : Scope) :
    (s.setScope id scope).document.size = s.document.size :=
  Document.size_update _ _ _

theorem setScope_sound (h : s.document.Sound) (id : Nat) (scope : Scope) :
    (s.setScope id scope).document.Sound :=
  (Document.Stays.setScope _ _ _).sound (size_setScope s id scope) h

/-- The state with the variables that the nodes below `id` have in another one. -/
def withScopesBelow (s : RenderState) (id : Nat) (r : RenderState) : RenderState :=
  { s with document := ⟨s.document.nodes.mapIdx fun i n =>
      if i ∈ s.document.descendants id ∧ i ≠ id then { n with scope := (r.node i).scope } else n⟩ }

@[simp] theorem size_withScopesBelow (s : RenderState) (id : Nat) (r : RenderState) :
    (s.withScopesBelow id r).document.size = s.document.size := by
  simp [withScopesBelow, Document.size]

theorem node_withScopesBelow {i : Nat} (hi : i < s.document.size) :
    (s.withScopesBelow id r).node i =
      if i ∈ s.document.descendants id ∧ i ≠ id then
        { s.node i with scope := (r.node i).scope }
      else s.node i := by
  obtain ⟨n, hn⟩ : ∃ n, s.document.nodes[i]? = some n := ⟨_, Array.getElem?_eq_getElem hi⟩
  simp only [withScopesBelow, node, Document.node, Document.get?, Array.getElem?_mapIdx, hn,
    Option.map_some, Option.getD_some]

theorem withScopesBelow_self (s : RenderState) (id : Nat) : s.withScopesBelow id s = s := by
  have hdocument : (s.withScopesBelow id s).document = s.document := by
    refine Document.ext_get? fun i => ?_
    simp only [withScopesBelow, Document.get?, Array.getElem?_mapIdx]
    cases hn : s.document.nodes[i]? with
    | none => rfl
    | some n =>
        have hnode : s.node i = n := by simp only [node, Document.node, Document.get?, hn,
          Option.getD_some]
        rw [Option.map_some, hnode, ite_self]
  show { s with document := (s.withScopesBelow id s).document } = s
  rw [hdocument]

theorem withScopesBelow_stays (s : RenderState) (id : Nat) (r : RenderState) :
    s.document.Stays (s.withScopesBelow id r).document := by
  refine ⟨Nat.le_of_eq (size_withScopesBelow s id r).symm, fun {i} hi => ?_⟩
  have hnode := @node_withScopesBelow s r id i hi
  rw [node, node] at hnode
  rw [hnode]
  split
  · exact ⟨rfl, rfl⟩
  · exact .refl _

theorem withScopesBelow_sound (h : s.document.Sound) (id : Nat) (r : RenderState) :
    (s.withScopesBelow id r).document.Sound :=
  (s.withScopesBelow_stays id r).sound (size_withScopesBelow s id r) h

end RenderState

/-! ### An entry alone -/

namespace Rendering

/-- What the body of a loop does for one entry, from a state on. -/
def entryRun (env : Environment) (depth id index : Nat) (e : LoopEntry) :
    RenderState → Except RenderError String × RenderState :=
  fun s => held (renderNode env depth) id (s.setScope id (e.scope index))

/-- The state of a loop before an entry, if each entry is run alone: the state `s` where the loop
begins, with the variables that the entry before has left in the nodes below. -/
def entryState (env : Environment) (depth id : Nat) (s : RenderState) : Nat → RenderState
  | 0 => s
  | index + 1 =>
    match (s.loopEntries id)[index]? with
    | some e =>
      s.withScopesBelow id (entryRun env depth id index e (entryState env depth id s index)).2
    | none => s

/-- The texts of all entries, joined, where each entry is run alone from a state of its own. -/
def loopText (env : Environment) (depth id : Nat) (s : RenderState) (states : Nat → RenderState) :
    Except RenderError String :=
  ((s.loopEntries id).zipIdx.mapM fun p => (entryRun env depth id p.2 p.1 (states p.2)).1).map
    ((s.node id).attributeText "glue").intercalate

end Rendering

/-! ### Quiet runs -/

/-- The second state has the variables of the template, the macros and the containers of the
first. -/
structure Quiet (s t : RenderState) : Prop where
  globals : t.globals = s.globals
  macros : t.macros = s.macros
  container {i : Nat} (hi : i < s.document.size) : (t.node i).container = (s.node i).container

/-- The node changes local variables at most, and brings in no other source. -/
def Node.isQuiet (n : Node) : Bool :=
  match n.kind with
  | .layout | .slot | .definition | .invocation | .inclusion | .moduleUse | .custom => false
  | .binding => !((n.attributes.get? "global").map fun v => v.toValue.isTruthy).getD false
  | .expression =>
    !((Expression.parse (n.attributes.expression.getD "")).toOption.map (·.global)).getD false
  | _ => true

theorem Node.Stays.isQuiet {n m : Node} (h : n.Stays m) : m.isQuiet = n.isQuiet := by
  unfold Node.isQuiet
  rw [h.kind, h.attributes]

section quiet
variable {env : Environment} {id : Nat} {s t : RenderState}

theorem Orders.local_of_isQuiet {a : Assignment} (h : Orders s id a)
    (hq : (s.node id).isQuiet = true) : a.global = false := by
  cases h with
  | binding hk hg =>
      rw [Node.isQuiet, hk] at hq
      rw [hg]
      exact Bool.not_eq_true' _ |>.mp hq
  | expression expr hk hp hg =>
      rw [Node.isQuiet, hk, hp] at hq
      rw [hg]
      exact Bool.not_eq_true' _ |>.mp hq
  | custom hk =>
      rw [Node.isQuiet, hk] at hq
      cases hq

theorem Act.quiet (h : Act id s t) (hq : (s.node id).isQuiet = true) : Quiet s t := by
  have hscope (i : Nat) (f : Scope → Scope) {j : Nat} (hj : j < s.document.size) :
      ((s.document.update i fun n => { n with scope := f n.scope }).node j).container
        = (s.node j).container := by
    rw [Document.node_update _ _ _ _ hj]
    split <;> rfl
  cases h with
  | report kind detail =>
      refine ⟨s.report_globals id kind detail, s.report_macros id kind detail, fun _ => ?_⟩
      rw [RenderState.node, RenderState.report_document]
      rfl
  | assign a ho =>
      rw [RenderState.assign_of_local (ho.local_of_isQuiet hq)]
      exact ⟨rfl, rfl, hscope (s.target id) fun scope => scope.insert a.name a.value⟩
  | entry scope hk => exact ⟨rfl, rfl, hscope id fun _ => scope⟩
  | attempt v hk => exact ⟨rfl, rfl, hscope id fun scope => scope.insert "@attempt" v⟩
  | define name m hk =>
      rw [Node.isQuiet, hk] at hq
      cases hq
  | fill f hk =>
      rcases hk with hk | hk <;> rw [Node.isQuiet, hk] at hq <;> cases hq
  | adopt scope hk =>
      rw [Node.isQuiet, hk] at hq
      cases hq

/-- Nothing but local variables changes while only quiet nodes act. -/
theorem Acts.quiet (h : Acts env id s t) : id < s.document.size →
    (∀ i ∈ s.document.descendants id, (s.node i).isQuiet = true) → Quiet s t := by
  induction h with
  | refl id s => exact fun _ _ => ⟨rfl, rfl, fun _ => rfl⟩
  | @trans id s t u h₁ _ ih₁ ih₂ =>
      intro hid hq
      have hst := ih₁ hid hq
      have htu := ih₂ (Nat.lt_of_lt_of_le hid h₁.stays.size_le) fun i hi => by
        have hmem := (h₁.stays.mem_descendants hid).mp hi
        have hi' := Nat.lt_of_le_of_lt (Document.le_of_mem_descendants hmem) hid
        rw [RenderState.node, (h₁.stays.node hi').isQuiet]
        exact hq i hmem
      refine ⟨htu.globals.trans hst.globals, htu.macros.trans hst.macros, fun hi => ?_⟩
      exact (htu.container (Nat.lt_of_lt_of_le hi h₁.stays.size_le)).trans (hst.container hi)
  | own h => exact fun _ hq => h.quiet (hq _ (Document.mem_descendants_self _ _))
  | child hc hlt _ ih =>
      intro hid hq
      exact ih (Nat.lt_trans hlt hid) fun i hi =>
        hq i (Document.descendants_of_child hc hlt hi)
  | failed hk _ | fragment hk _ _ _ =>
      intro _ hq
      have hself := hq _ (Document.mem_descendants_self _ _)
      rw [Node.isQuiet] at hself
      revert hself
      generalize (RenderState.node _ _).kind = k at hk ⊢
      cases hk <;> simp

end quiet

/-- The second state is the first one with other nodes behind it, up to the variables of `id`. -/
structure Aligned (id : Nat) (s t : RenderState) : Prop where
  sound : s.document.Sound
  sound' : t.document.Sound
  size_le : s.document.size ≤ t.document.size
  node {i : Nat} (hi : i < s.document.size) (scope : Scope) :
    (t.setScope id scope).node i = (s.setScope id scope).node i
  globals : t.globals = s.globals
  macros : t.macros = s.macros

namespace Aligned

variable {id : Nat} {s t : RenderState}

theorem report (id : Nat) (h : s.document.Sound) (kind : EventKind) (detail : String) :
    Aligned id s (s.report id kind detail) := by
  have hdocument := s.report_document id kind detail
  refine ⟨h, by rwa [hdocument], by rw [hdocument], fun _ _ => ?_,
    s.report_globals id kind detail, s.report_macros id kind detail⟩
  rw [RenderState.node, RenderState.setScope, hdocument]
  rfl

/-- With the same variables for `id` the states differ by a rift. -/
theorem spread (h : Aligned id s t) (scope : Scope) :
    RenderState.Spread ⟨s.document.size, t.document.size - s.document.size⟩
      (s.setScope id scope) (t.setScope id scope) := by
  refine ⟨?_, RenderState.setScope_sound h.sound id scope,
    RenderState.setScope_sound h.sound' id scope, h.globals, h.macros⟩
  have hprefix := Document.Spread.of_prefix (RenderState.setScope_sound h.sound id scope)
    (e := (t.setScope id scope).document)
    (by rw [RenderState.size_setScope, RenderState.size_setScope]; exact h.size_le)
    fun i hi => h.node (by rwa [RenderState.size_setScope] at hi) scope
  rwa [RenderState.size_setScope, RenderState.size_setScope] at hprefix

end Aligned

/-! ### Entry after entry -/

namespace Rendering

section entries
variable {env : Environment} (hlocal : ∀ p ∈ env.toolkit.preparers, p.IsLocal)
  {depth id : Nat} {s t a : RenderState} (hid : id < s.document.size)
  (hk : (s.node id).kind = .eachLoop)
include hlocal hid hk

/-- The body of a loop binds variables in the loop and in the nodes below only. -/
theorem node_entryRun (hs : s.document.Sound) {index : Nat} {e : LoopEntry} {u : RenderState}
    (hu : (entryRun env depth id index e s).2 = u) (hq : Quiet s u) {i : Nat}
    (hi : i < s.document.size) :
    u.node i = { s.node i with scope := (u.node i).scope } ∧
      (i ∉ s.document.descendants id → (u.node i).scope = (s.node i).scope) := by
  let start := s.setScope id (e.scope index)
  have hsize : start.document.size = s.document.size := RenderState.size_setScope _ _ _
  have hnode : start.node i = if id = i then { s.node i with scope := e.scope index } else s.node i :=
    RenderState.node_setScope hi id _
  have hacts : Acts env id start u := by
    rw [← hu]
    exact held_acts env depth id start (hsize ▸ hid)
  have hconfined := hacts.confined hlocal (RenderState.setScope_sound hs _ _) (hsize ▸ hid)
  refine ⟨(hconfined.stays.node (hsize ▸ hi)).eq.trans ?_, fun hbelow => ?_⟩
  · have hcontainer := hq.container hi
    rw [RenderState.node] at hcontainer hnode
    rw [hcontainer, hnode]
    split <;> rfl
  · have hne : id ≠ i := fun h => hbelow (h ▸ Document.mem_descendants_self _ _)
    rw [if_neg hne] at hnode
    rw [← hnode]
    by_contra hscope
    rcases hconfined.scope (hsize ▸ hi) hscope with hd | ⟨hbinds, _⟩
    · exact hbelow (((Document.Stays.setScope _ _ _).mem_descendants hid).mp hd)
    · rw [RenderState.node_setScope hid, if_pos rfl, hk] at hbinds
      cases hbinds

end entries

theorem exists_entryState (env : Environment) (depth id : Nat) (s : RenderState) (index : Nat) :
    ∃ r, entryState env depth id s index = s.withScopesBelow id r := by
  cases index with
  | zero => exact ⟨s, (s.withScopesBelow_self id).symm⟩
  | succ index =>
      rw [entryState]
      split
      · exact ⟨_, rfl⟩
      · exact ⟨s, (s.withScopesBelow_self id).symm⟩

section quiet
variable {env : Environment} {depth id : Nat} {s : RenderState}

theorem quiet_entryRun (hid : id < s.document.size)
    (hq : ∀ i ∈ s.document.descendants id, (s.node i).isQuiet = true) (index : Nat)
    (e : LoopEntry) : Quiet s (entryRun env depth id index e s).2 := by
  let start := s.setScope id (e.scope index)
  have hstays : s.document.Stays start.document := .setScope _ _ _
  have hsize : id < start.document.size := by rwa [RenderState.size_setScope]
  have hacts : Acts env id start (entryRun env depth id index e s).2 :=
    held_acts env depth id start hsize
  have hrun := hacts.quiet hsize fun i hi => by
    have hmem := (hstays.mem_descendants hid).mp hi
    rw [RenderState.node, (hstays.node (Nat.lt_of_le_of_lt
      (Document.le_of_mem_descendants hmem) hid)).isQuiet]
    exact hq i hmem
  refine ⟨hrun.globals, hrun.macros, fun hi => ?_⟩
  rw [hrun.container (by rwa [RenderState.size_setScope]), RenderState.node_setScope hi]
  split <;> rfl

theorem quiet_entryRun_entryState (hid : id < s.document.size)
    (hq : ∀ i ∈ s.document.descendants id, (s.node i).isQuiet = true) (index : Nat)
    (e : LoopEntry) : Quiet (entryState env depth id s index)
      (entryRun env depth id index e (entryState env depth id s index)).2 := by
  obtain ⟨r, hr⟩ := exists_entryState env depth id s index
  have hstays := s.withScopesBelow_stays id r
  rw [hr]
  refine quiet_entryRun (by rwa [RenderState.size_withScopesBelow]) (fun i hi => ?_) index e
  have hmem := (hstays.mem_descendants hid).mp hi
  rw [RenderState.node, (hstays.node (Nat.lt_of_le_of_lt
    (Document.le_of_mem_descendants hmem) hid)).isQuiet]
  exact hq i hmem

end quiet

/-- A node that keeps all but its variables, and these too unless it stands below, is the node with
the variables below, whatever is bound in `id` then. -/
theorem node_setScope_withScopesBelow {id : Nat} {s u b : RenderState} {i : Nat}
    (hi : i < s.document.size) (hib : i < b.document.size) (hb : b.node i = u.node i)
    (hnode : u.node i = { s.node i with scope := (u.node i).scope })
    (hscope : i ∉ s.document.descendants id → (u.node i).scope = (s.node i).scope) (scope : Scope) :
    (b.setScope id scope).node i = ((s.withScopesBelow id u).setScope id scope).node i := by
  rw [RenderState.node_setScope hib,
    RenderState.node_setScope (by rwa [RenderState.size_withScopesBelow]),
    RenderState.node_withScopesBelow hi, hb]
  by_cases hself : id = i
  · rw [if_pos hself, if_pos hself, if_neg fun hin => hin.2 hself.symm, hnode]
  · rw [if_neg hself, if_neg hself]
    by_cases hin : i ∈ s.document.descendants id
    · rw [if_pos ⟨hin, Ne.symm hself⟩]
      exact hnode
    · rw [if_neg fun h => hin h.1]
      rwa [hscope hin] at hnode

section loop
variable {env : Environment} (hlocal : ∀ p ∈ env.toolkit.preparers, p.IsLocal)
  (hblind : env.toolkit.IsBlind) {depth id : Nat} {s t r a : RenderState}
include hlocal hblind

/-- An entry has the same text, and leaves a state with the same rift, wherever it is run. -/
theorem entryRun_spread (hid : id < t.document.size) (h : Aligned id t a) (index : Nat)
    (e : LoopEntry) :
    (entryRun env depth id index e a).1 = (entryRun env depth id index e t).1 ∧
      RenderState.Spread ⟨t.document.size, a.document.size - t.document.size⟩
        (entryRun env depth id index e t).2 (entryRun env depth id index e a).2 := by
  let g : Rift := ⟨t.document.size, a.document.size - t.document.size⟩
  have hmirrors : Mirrors g id (held (renderNode env depth) id)
      (held (renderNode env depth) (g.across id)) :=
    mirrors_held fun c _ => renderNode_mirrors hlocal hblind g depth c
  rw [g.across_of_lt hid] at hmirrors
  obtain ⟨htext, hspread, _⟩ := hmirrors _ _ (h.spread (e.scope index))
    (by rwa [RenderState.size_setScope])
  exact ⟨htext, hspread⟩

/-- After an entry the variables below are those that it leaves when it is run alone. -/
theorem aligned_entryRun (hs : s.document.Sound) (hid : id < s.document.size)
    (hk : (s.node id).kind = .eachLoop) (ht : t = s.withScopesBelow id r) (h : Aligned id t a)
    {index : Nat} {e : LoopEntry} (hq : Quiet t (entryRun env depth id index e t).2) :
    Aligned id (s.withScopesBelow id (entryRun env depth id index e t).2)
      (entryRun env depth id index e a).2 := by
  have hsize : t.document.size = s.document.size := by
    rw [ht, RenderState.size_withScopesBelow]
  have hnode {i : Nat} (hi : i < s.document.size) : t.node i =
      if i ∈ s.document.descendants id ∧ i ≠ id then { s.node i with scope := (r.node i).scope }
      else s.node i := by
    rw [ht, RenderState.node_withScopesBelow hi]
  have hkind : (t.node id).kind = .eachLoop := by
    rw [hnode hid, if_neg (fun h => h.2 rfl), hk]
  have hbelow {i : Nat} : i ∈ t.document.descendants id ↔ i ∈ s.document.descendants id := by
    rw [ht]
    exact (s.withScopesBelow_stays id r).mem_descendants hid
  obtain ⟨-, hspread⟩ : (entryRun env depth id index e a).1 = _ ∧ _ :=
    entryRun_spread hlocal hblind (hsize ▸ hid) h index e
  generalize hu : (entryRun env depth id index e t).2 = u at hq hspread ⊢
  generalize (entryRun env depth id index e a).2 = b at hspread ⊢
  have hrun {i : Nat} (hi : i < s.document.size) :=
    node_entryRun hlocal (hsize ▸ hid) hkind h.sound hu hq (hsize ▸ hi)
  have hglobals : t.globals = s.globals := by rw [ht]; rfl
  have hmacros : t.macros = s.macros := by rw [ht]; rfl
  have hle : t.document.size ≤ u.document.size := hspread.document.start_le
  refine ⟨RenderState.withScopesBelow_sound hs id u, hspread.sound', ?_, fun {i} hi scope => ?_,
    hspread.globals.trans (hq.globals.trans hglobals),
    hspread.macros.trans (hq.macros.trans hmacros)⟩
  · rw [RenderState.size_withScopesBelow, hspread.document.size]
    omega
  rw [RenderState.size_withScopesBelow] at hi
  obtain ⟨heq, hscope⟩ := hrun hi
  have hb : b.node i = u.node i := by
    refine hspread.document.node_eq (hsize ▸ hi) (fun p hp => ?_) fun c hc => ?_
    · rw [← RenderState.node, heq] at hp
      exact h.sound.parent_lt (hsize ▸ hi) hp
    · rw [← RenderState.node, heq] at hc
      exact h.sound.lt_size_of_child (hsize ▸ hi) hc
  have hib : i < b.document.size := by
    have := hspread.document.size
    omega
  refine node_setScope_withScopesBelow hi hib hb (heq.trans ?_) (fun hin => ?_) scope
  · rw [hnode hi]
    split <;> rfl
  · rw [hscope (mt hbelow.mp hin), hnode hi, if_neg fun h => hin h.1]

/-- The texts of the entries from one on, in a document that has taken in other fragments. -/
theorem eachTexts_eq (hs : s.document.Sound) (hid : id < s.document.size)
    (hk : (s.node id).kind = .eachLoop)
    (hq : ∀ index e, (s.loopEntries id)[index]? = some e →
      Quiet (entryState env depth id s index)
        (entryRun env depth id index e (entryState env depth id s index)).2) :
    ∀ (rest : List LoopEntry) (index : Nat) (a : RenderState),
      (s.loopEntries id).drop index = rest → Aligned id (entryState env depth id s index) a →
      (eachTexts id (held (renderNode env depth) id) index rest a).1 = (rest.zipIdx index).mapM fun p =>
        (entryRun env depth id p.2 p.1 (entryState env depth id s p.2)).1
  | [], _, _, _, _ => rfl
  | e :: rest, index, a, hrest, ha => by
      obtain ⟨r, hr⟩ := exists_entryState env depth id s index
      have he : (s.loopEntries id)[index]? = some e := by
        have := congrArg (fun l => l[0]?) hrest
        rwa [List.getElem?_drop] at this
      have hrest' : (s.loopEntries id).drop (index + 1) = rest := by
        rw [← List.tail_drop, hrest, List.tail_cons]
      have hlt : id < (entryState env depth id s index).document.size := by
        rw [hr, RenderState.size_withScopesBelow]
        exact hid
      obtain ⟨htext, -⟩ : (entryRun env depth id index e a).1 = _ ∧ _ :=
        entryRun_spread hlocal hblind hlt ha index e
      have hnext : entryState env depth id s (index + 1) = s.withScopesBelow id
          (entryRun env depth id index e (entryState env depth id s index)).2 := by
        rw [entryState, he]
      have halign := aligned_entryRun hlocal hblind hs hid hk hr ha (hq index e he)
      rw [← hnext] at halign
      have hloop := eachTexts_eq hs hid hk hq rest (index + 1) _ hrest' halign
      have hbody : held (renderNode env depth) id (a.setScope id (e.scope index))
          = entryRun env depth id index e a := rfl
      rw [eachTexts, bind_of_ok (modify_apply _ _), bind_apply, hbody, List.zipIdx_cons,
        List.mapM_cons, ← htext, ← hloop]
      cases entryRun env depth id index e a with
      | mk q b =>
          cases q with
          | error e => rfl
          | ok text =>
              dsimp only
              rw [bind_apply]
              cases eachTexts id (held (renderNode env depth) id) (index + 1) rest b with
              | mk q' b' => cases q' <;> rfl

end loop

/-- The text of a loop is that of its entries. -/
theorem nodeWith_eachLoop {env : Environment} {id : Nat} {s : RenderState} (body : Rendering String)
    (nested : Option (Nat → Rendering String)) (hk : (s.node id).kind = .eachLoop) :
    (nodeWith env id body nested s).1 =
      (eachTexts id body 0 (s.loopEntries id) (s.report id .started "")).1.map
        ((s.node id).attributeText "glue").intercalate := by
  let start := s.report id .started ""
  have hnode : start.node id = s.node id := by
    rw [RenderState.node, RenderState.report_document]
    rfl
  have hentries : start.loopEntries id = s.loopEntries id := by
    simp only [start, RenderState.report]
    split <;> rfl
  have hown : rule env id body nested NodeKind.eachLoop.dispatch start = eachLoop id body start := by
    show ownText env id body start = _
    rw [ownText, bind_of_ok (node_apply id start), hnode, hk]
  have hlife : hasLifecycle .eachLoop = true := rfl
  rw [nodeWith, bind_of_ok (node_apply id s), hk, withLifecycle, bind_of_ok (node_apply id s), hk,
    if_pos hlife, bind_of_ok (report_apply id .started "" s)]
  dsimp only
  rw [bind_apply, hown, eachLoop, bind_of_ok (get_apply start), hnode, hentries,
    bind_apply, ensuring_apply]
  cases eachTexts id body 0 (s.loopEntries id) start with
  | mk r t => cases r <;> rfl

/-- The entries of a loop have the texts that they have alone, where an entry finds only those
variables of the entries before it that they have bound in nodes below the loop; and if they bind
none there, all entries have the texts that they have where the loop begins. -/
theorem renderNode_eachLoop (env : Environment)
    (hlocal : ∀ p ∈ env.toolkit.preparers, p.IsLocal) (hblind : env.toolkit.IsBlind)
    {s : RenderState} (hs : Reachable env s) {id : Nat} (hid : id < s.document.size)
    (hk : (s.node id).kind = .eachLoop) (depth : Nat)
    (hq : ∀ index e, (s.loopEntries id)[index]? = some e →
      Quiet (entryState env depth id s index)
        (entryRun env depth id index e (entryState env depth id s index)).2) :
    (renderNode env depth id s).1 = loopText env depth id s (entryState env depth id s) ∧
      ((∀ index e, (s.loopEntries id)[index]? = some e →
          s.withScopesBelow id (entryRun env depth id index e s).2 = s) →
        (renderNode env depth id s).1 = loopText env depth id s fun _ => s) := by
  have hsound := hs.sound hlocal
  have hrender : (renderNode env depth id s).1
      = loopText env depth id s (entryState env depth id s) := by
    rw [renderNode_eq, nodeWith_eachLoop _ _ hk,
      eachTexts_eq hlocal hblind hsound hid hk hq _ 0 _ (List.drop_zero) ?_]
    · rfl
    · exact .report id hsound .started ""
  refine ⟨hrender, fun hstill => ?_⟩
  have hstate (index : Nat) : entryState env depth id s index = s := by
    induction index with
    | zero => rfl
    | succ index ih =>
        rw [entryState, ih]
        split
        · next e he => exact hstill index e he
        · rfl
  rw [hrender, funext hstate]

/-! ### A loop that passes variables on -/

/-- The tags known from the start, no sources, and the usual settings. -/
def usualEnvironment : Environment :=
  ⟨.builtin, .builtin, {}, fun name _ => .error (.notFound name)⟩

/-- The text `{#each items=xs}{#if var=flag}{$x},{#let x=one}{/if}{/each}`. -/
def leakingLoop : Script :=
  let none : Gap := ⟨[], List.forall_mem_nil _⟩
  let comma : Gap := ⟨[','], List.forall_mem_singleton.mpr (by decide)⟩
  let shown : Leaf := .reference ⟨['x'], by decide⟩
  let bound : Leaf := .binding ⟨.pair ⟨['x'], by decide⟩ ⟨['o', 'n', 'e'], by decide⟩, []⟩
  let test : Heading :=
    .conditional ⟨.pair ⟨['v', 'a', 'r'], by decide⟩ ⟨['f', 'l', 'a', 'g'], by decide⟩, []⟩
  let loop : Heading :=
    .eachLoop ⟨.pair ⟨['i', 't', 'e', 'm', 's'], by decide⟩ ⟨['x', 's'], by decide⟩, []⟩
  .block none loop (.block none test (.leaf none shown (.leaf comma bound (.last none)))
    (.last none)) (.last none)

/-- The state in which the root of that text is rendered; there are two entries. -/
def leakingState : RenderState :=
  let globals : Scope := .ofList [("xs", .list [.text "a", .text "b"]), ("flag", .bool true)]
  let nodes := Part.fragment (Node.prepared Preparer.builtins
    ⟨none, ∅, ∅, usualEnvironment.settings.bubble⟩) 0 none (leakingLoop.parts 0)
    ⟨0, (String.ofList leakingLoop.print).utf8ByteSize⟩
  { globals, document := ((∅ : Document).append nodes).setContainer 5 {} }

theorem reachable_leakingState : Reachable usualEnvironment leakingState := by
  have hb := build_eq usualEnvironment (.ofList leakingLoop.print) none ∅
    usualEnvironment.settings.paths { globals := leakingState.globals }
  have hread : usualEnvironment.scanner.read (.ofList leakingLoop.print)
      = { parts := leakingLoop.parts 0 } := TagScanner.read_print leakingLoop
  rw [hread, if_pos rfl] at hb
  exact .container {} hb (.start _)

theorem leakingState_facts :
    4 < leakingState.document.size ∧ (leakingState.node 4).kind = .eachLoop ∧
      (∀ i ≤ 4, (leakingState.node i).isQuiet = true) := by
  decide +kernel

theorem quiet_leakingState :
    ∀ i ∈ leakingState.document.descendants 4, (leakingState.node i).isQuiet = true :=
  fun i hi => leakingState_facts.2.2 i (Document.le_of_mem_descendants hi)

/-- The text of the loop, with the variables that it passes on. -/
theorem renderNode_eachLoop_leakingState :
    Reachable usualEnvironment leakingState ∧
      (renderNode usualEnvironment 0 4 leakingState).1 = loopText usualEnvironment 0 4 leakingState
        (entryState usualEnvironment 0 4 leakingState) := by
  obtain ⟨hid, hk, _⟩ := leakingState_facts
  exact ⟨reachable_leakingState, (renderNode_eachLoop usualEnvironment
    (fun _ => Preparer.isLocal_of_mem_builtins) Toolkit.isBlind_builtin reachable_leakingState hid
    hk 0 fun index e _ => quiet_entryRun_entryState hid quiet_leakingState index e).1⟩

/-- An entry sees a variable that the entry before it has bound in a block below the loop. -/
theorem eachLoop_passes_variables_on :
    Reachable usualEnvironment leakingState ∧ 4 < leakingState.document.size ∧
      (leakingState.node 4).kind = .eachLoop ∧
      (∀ i ∈ leakingState.document.descendants 4, (leakingState.node i).isQuiet = true) ∧
      (renderNode usualEnvironment 0 4 leakingState).1.toOption = some ",one," ∧
      (loopText usualEnvironment 0 4 leakingState fun _ => leakingState).toOption = some ",," := by
  obtain ⟨hid, hk, _⟩ := leakingState_facts
  refine ⟨reachable_leakingState, hid, hk, quiet_leakingState, ?_, ?_⟩
  · rw [renderNode_eq_before usualEnvironment 0 (Nat.lt_succ_self 4)]
    decide +kernel
  · have hbefore : ∀ c < 4, renderNode usualEnvironment 0 c = renderBefore usualEnvironment 0 4 c :=
      fun c hc => renderNode_eq_before usualEnvironment 0 hc
    unfold loopText entryRun
    rw [held_congr hbefore]
    decide +kernel

end Rendering

end TagTemplate
