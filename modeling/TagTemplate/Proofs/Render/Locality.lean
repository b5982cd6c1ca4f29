import TagTemplate.Proofs.Body.Items
import TagTemplate.Proofs.Render.Fragments
import TagTemplate.Proofs.Render.Moves
import TagTemplate.Proofs.Render.Towers

/-! # What a rendering can change

Every move in the history of a node is made by the node, by one below it, or by one of the
fragments that have been built on the way.  It binds variables in the scopes of the node that makes
it and of what lies below, or in the scope of the parent where the node binds outside; only layouts
and slots fill containers; and the variables of the template change by a global assignment that the
node makes, and otherwise not at all.

* `Move.IsConfined`: what a move can change.
* `OwnMove.isConfined`: the moves of a node are confined.
* `renderNode_confined`: every rendering of a node is made of such moves. -/

namespace TagTemplate

/-! ### Confined moves -/

/-- The move changes what its node may change: variables of the node and of those below, of the
parent where the node binds outside; the nearest container, if the node is a layout or a slot; and
the variables of the template by a global assignment of the node. -/
structure Move.IsConfined (env : Environment) (p : Move) : Prop where
  confined : Confined p.id p.before p.after
  fills {j : Nat} (hj : j < p.before.document.size)
    (h : (p.after.node j).container ≠ (p.before.node j).container) :
    (p.before.node p.id).kind = .layout ∨ (p.before.node p.id).kind = .slot
  globals : p.after.globals = p.before.globals ∨
    ∃ a, Makes env p.before p.id a ∧ a.global = true ∧
      p.after.globals = p.before.globals.insert a.name a.value

section moves
variable {env : Environment} {id : Nat} {s t : RenderState}

namespace Move.IsConfined

/-- A move that changes neither nodes nor variables of the template. -/
theorem of_still (hd : t.document = s.document) (hg : t.globals = s.globals) :
    IsConfined env ⟨id, s, t⟩ := by
  refine ⟨.of_document_eq id hd, fun {j} _ h => absurd ?_ h, .inl hg⟩
  show (t.node j).container = (s.node j).container
  rw [RenderState.node, hd, RenderState.node]

theorem of_update_scope {k : Nat} {f : Node → Node}
    (hf : ∀ n, f n = { n with scope := (f n).scope })
    (hk : k = id ∨ (s.node id).kind.bindsOutside = true ∧ (s.node id).parent = some k) :
    IsConfined env ⟨id, s, { s with document := s.document.update k f }⟩ := by
  refine ⟨.of_update_scope hf hk, fun {j} _ h => absurd ?_ h, .inl rfl⟩
  exact s.document.container_update k (fun n => by rw [hf]) j

theorem of_assign {a : Assignment} (ha : Makes env s id a) (told : Array Event) :
    IsConfined env ⟨id, s, { s with events := told }.assign id a⟩ := by
  cases hglobal : a.global with
  | true =>
      rw [RenderState.assign_of_global hglobal]
      exact ⟨.of_document_eq id rfl, fun _ h => absurd rfl h, .inr ⟨a, ha, hglobal, rfl⟩⟩
  | false =>
      rw [RenderState.assign_of_local hglobal]
      have h : IsConfined env ⟨id, s,
          { s with document := s.document.bind (s.target id) a.name a.value }⟩ :=
        of_update_scope (fun _ => rfl) (RenderState.target_cases ha.bindsOutside)
      exact ⟨h.confined.congr rfl rfl, h.fills, .inl rfl⟩

end Move.IsConfined

/-- The moves of a node are confined. -/
theorem OwnMove.isConfined (h : OwnMove env id s t) : (⟨id, s, t⟩ : Move).IsConfined env := by
  cases h with
  | @tell events _ =>
      obtain ⟨_, htold⟩ := s.reports_eq id events
      rw [htold]
      exact .of_still rfl rfl
  | @assign events _ a ha =>
      obtain ⟨told, htold⟩ := s.reports_eq id events
      rw [htold]
      exact .of_assign ha told
  | entry scope _ => exact .of_update_scope (fun _ => rfl) (.inl rfl)
  | attempt v _ => exact .of_update_scope (fun _ => rfl) (.inl rfl)
  | define name m _ => exact .of_still rfl rfl
  | fill f hk =>
      refine ⟨(Act.fill f hk).confined, fun _ _ => hk, .inl ?_⟩
      rcases s.updateContainer_cases id f with h | ⟨root, c, _, _, h⟩ <;> rw [h]
  | adopt scope hk =>
      exact .of_update_scope (fun _ => rfl) (RenderState.target_cases (by rw [hk]; rfl))

/-- So is the building of a fragment, which only adds nodes. -/
theorem Move.OwnedBy.isConfined {d : Document} {p : Move} (h : p.OwnedBy env d id) :
    p.IsConfined env := by
  obtain ⟨_, s, t⟩ := p
  obtain ⟨hmove | ⟨ns, hgrow⟩, _⟩ := h
  · exact hmove.isConfined
  · have hgrow : t = s.grow ns := hgrow
    rw [hgrow]
    refine ⟨.grow _ s ns, fun {j} hj h => absurd ?_ h, .inl rfl⟩
    exact congrArg Node.container (Document.node_append_left hj)

end moves

/-! ### The variables of the template -/

/-- A variable of the template is left alone by a history of confined moves, or it has its value
from a global assignment made on the way. -/
theorem Leads.globals_cases {env : Environment} {s t : RenderState} {moves : List Move}
    (h : Leads s moves t) (hmoves : ∀ p ∈ moves, p.IsConfined env) (name : String) :
    t.globals.bindings.get? name = s.globals.bindings.get? name ∨
      ∃ p ∈ moves, ∃ a, Makes env p.before p.id a ∧ a.global = true ∧ a.name = name ∧
        t.globals.bindings.get? name = some a.value := by
  induction h with
  | nil s => exact .inl rfl
  | @cons id s t u moves _ ih =>
      rcases ih fun p hp => hmoves p (List.mem_cons_of_mem _ hp) with h | ⟨p, hp, h⟩
      · have hfirst := (hmoves ⟨id, s, t⟩ List.mem_cons_self).globals
        rcases hfirst with heq | ⟨a, ha, hglobal, heq⟩
        · have heq : t.globals = s.globals := heq
          exact .inl (by rw [h, heq])
        · have heq : t.globals = s.globals.insert a.name a.value := heq
          have hget := NameMap.get?_insert s.globals.bindings a.name name a.value
          rw [h, heq, Scope.insert]
          by_cases hname : a.name = name
          · rw [if_pos hname.symm] at hget
            exact .inr ⟨⟨id, s, t⟩, List.mem_cons_self, a, ha, hglobal, hname, hget⟩
          · rw [if_neg (Ne.symm hname)] at hget
            exact .inl hget
      · exact .inr ⟨p, List.mem_cons_of_mem _ hp, h⟩

/-! ### Locality -/

/-- The history of a node leaves its rendering alone, and whatever the outcome, it leads from the
state before to the state after.  Only what the node may change has changed: the scopes of the node
and of all below it, the scope of its parent if it is a binding, an expression, a module or a custom
tag, and the slots and the layout of the nearest container.  All moves on the way are made by the
node, by one below it or by a fragment built since; each changes no more than its own node may, and
binds a variable of the template only by a global assignment of that node.  So a variable of the
template has the value it had, or one that has been assigned so. -/
theorem renderNode_confined (env : Environment)
    (hlocal : ∀ p ∈ env.toolkit.preparers, p.IsLocal) {s : RenderState} (hs : Reachable env s)
    {id : Nat} (hid : id < s.document.size) (depth : Nat) :
    let history := (Rendering.recorded env depth id).moves s
    let t := (Rendering.renderNode env depth id s).2
    (Rendering.recorded env depth id).run = Rendering.renderNode env depth id ∧
      Leads s history t ∧ Confined id s t ∧
      (∀ p ∈ history, p.IsConfined env ∧
        (p.id ∈ s.document.descendants id ∨ s.document.size ≤ p.id)) ∧
      ∀ name, t.globals.bindings.get? name = s.globals.bindings.get? name ∨
        ∃ p ∈ history, ∃ a, Makes env p.before p.id a ∧ a.global = true ∧ a.name = name ∧
          t.globals.bindings.get? name = some a.value := by
  intro history t
  have hsound := hs.sound hlocal
  have hrun := Rendering.run_recorded env depth id
  have hleads : Leads s history t := by
    have h := (Rendering.recorded env depth id).leads s
    rwa [hrun] at h
  have howned := (Recorded.Own.node hlocal depth id s.document s hid ⟨.refl _, hsound⟩).owned
  exact ⟨hrun, hleads, (Rendering.renderNode_acts env depth id s hid).confined hlocal hsound hid,
    fun p hp => ⟨(howned p hp).isConfined, (howned p hp).mem⟩,
    hleads.globals_cases fun p hp => (howned p hp).isConfined⟩

/-! ### A page with a global binding and an inclusion -/

/-- The tag `{#let v=a global=b}`. -/
def globalBinding : Leaf :=
  .binding ⟨.pair ⟨['v'], rfl⟩ ⟨['a'], rfl⟩,
    [.pair ⟨['g', 'l', 'o', 'b', 'a', 'l'], rfl⟩ ⟨['b'], rfl⟩]⟩

/-- The tag `{#let w=c}`. -/
def localBinding : Leaf :=
  .binding ⟨.pair ⟨['w'], rfl⟩ ⟨['c'], rfl⟩, []⟩

/-- The tag `@include(part)`. -/
def inclusionOfPart : Leaf :=
  .inclusion ⟨.plain ⟨['p', 'a', 'r', 't'], rfl⟩, []⟩

/-- The page `{#let v=a global=b}@include(part)`. -/
def bindingAndInclusion : Script :=
  .leaf ⟨[], bland_nil⟩ globalBinding
    (.leaf ⟨[], bland_nil⟩ inclusionOfPart (.last ⟨[], bland_nil⟩))

/-- The source `{#let w=c}`. -/
def bindingAlone : Script :=
  .leaf ⟨[], bland_nil⟩ localBinding (.last ⟨[], bland_nil⟩)

/-- The loader of that source. -/
def partLoader : Loader :=
  .ofSources (.ofList [("part", .ofList bindingAlone.print)])

/-- The state before the page is rendered. -/
def bindingStart : RenderState :=
  Rendering.pageState ∅ (.ofList bindingAndInclusion.print) (bindingAndInclusion.parts 0)

/-- The state after the page's own binding. -/
def bindingDone : RenderState :=
  bindingStart.through 0 fun t =>
    t.assign 0 { name := "v", value := .text "a", «global» := true }

theorem renderNode_globalBinding :
    Rendering.renderNode (.usual partLoader) 0 0 bindingStart = (.ok "", bindingDone) := by
  have hattributes : (bindingStart.node 0).attributes =
      { pairs := [("v", .bare "a"), ("global", .bare "b")] } := by
    show (Attributes.ofBody globalBinding.tag.spec.attributes
      (.ofList globalBinding.body)).toOption.getD {} = _
    rw [globalBinding, Leaf.body, TagArguments.ofBody_text _ (by decide)]
    rfl
  have hpairs : ((bindingStart.node 0).attributes.pairs.filter fun p =>
      p.1 ∉ Rendering.bindingOptions) = [("v", .bare "a")] := by
    rw [hattributes]
    rfl
  refine Rendering.renderNode_of_binding rfl hpairs ?_ ?_
  · rw [hattributes]
    decide
  · rw [hattributes]
    decide

theorem bringsIn_part : BringsIn (.usual partLoader) bindingDone.macros (bindingDone.node 1)
    (.ofList bindingAlone.print) := by
  have hname : (bindingDone.node 1).givenName = "part" := by
    show (((Attributes.ofBody inclusionOfPart.tag.spec.attributes
      (.ofList inclusionOfPart.body)).toOption.getD {}).name).getD "" = "part"
    decide +kernel
  refine .inclusion rfl ?_
  rw [hname]
  rfl

section inclusion

/-- The state before the fragment of the included source is rendered. -/
def partStart (bindings : Scope) : RenderState :=
  (bindingDone.report 1 .started "").withFragment (.usual partLoader)
    ⟨some 1, bindings, (bindingDone.node 1).paths, true⟩ (.ofList bindingAlone.print)
    (bindingAlone.parts 0)

/-- The state after the binding of the included source. -/
def partDone (bindings : Scope) : RenderState :=
  (partStart bindings).through 3 fun t =>
    t.assign 3
      { name := "w", value := (partStart bindings).attributeValue 3 (.bare "c"), «global» := false }

theorem document_bindingDone_report :
    (bindingDone.report 1 .started "").document = bindingStart.document := by
  simp only [bindingDone, RenderState.through, RenderState.report_document,
    RenderState.assign_of_global]

theorem size_bindingDone_report : (bindingDone.report 1 .started "").document.size = 3 := by
  rw [document_bindingDone_report]
  rfl

variable (bindings : Scope)

theorem size_partStart : (partStart bindings).document.size = 5 := by
  show ((bindingDone.report 1 .started "").document.append _).size = 5
  rw [Document.size_append, size_bindingDone_report]
  rfl

theorem node_two_partStart : (partStart bindings).node 2 = bindingStart.node 2 := by
  have hold : (partStart bindings).node 2 = (bindingDone.report 1 .started "").node 2 :=
    Document.node_append_left (by rw [size_bindingDone_report]; decide)
  rw [hold, RenderState.node, document_bindingDone_report, RenderState.node]

/-- The tag of the included source. -/
theorem node_three_partStart : ∃ scope, (partStart bindings).node 3 =
    { Node.ofTag localBinding.tag.spec (.ofList localBinding.body)
        (.text (.ofList localBinding.print)) none ⟨0, 10⟩ with
      scope, paths := (bindingDone.node 1).paths, parent := some 4, subscribed := true
      closed := true } := by
  have hpreparers : (Environment.usual partLoader).toolkit.preparers = Preparer.builtins := rfl
  have h := (bindingDone.report 1 .started "").exists_node_withFragment hpreparers
    ⟨some 1, bindings, (bindingDone.node 1).paths, true⟩
    (.ofList bindingAlone.print) (bindingAlone.parts 0) 0
    (.ofTag localBinding.tag.spec (.ofList localBinding.body)
      (.text (.ofList localBinding.print)) none ⟨0, 10⟩) (some 4)
  rw [size_bindingDone_report] at h
  exact h rfl rfl rfl

/-- The root of the included source. -/
theorem node_four_partStart : ∃ scope, (partStart bindings).node 4 =
    { Node.root [3] ⟨0, 10⟩ with
      scope, paths := (bindingDone.node 1).paths, parent := some 1, subscribed := true
      closed := true } := by
  have hpreparers : (Environment.usual partLoader).toolkit.preparers = Preparer.builtins := rfl
  have h := (bindingDone.report 1 .started "").exists_node_withFragment hpreparers
    ⟨some 1, bindings, (bindingDone.node 1).paths, true⟩
    (.ofList bindingAlone.print) (bindingAlone.parts 0) 1 (.root [3] ⟨0, 10⟩) (some 1)
  rw [size_bindingDone_report] at h
  exact h rfl rfl rfl

theorem renderNode_partStart : Rendering.renderNode (.usual partLoader) 1 4 (partStart bindings) =
    (.ok "", partDone bindings) := by
  obtain ⟨_, hbinding⟩ := node_three_partStart bindings
  obtain ⟨_, hroot⟩ := node_four_partStart bindings
  have hpairs : ((partStart bindings).node 3).attributes.pairs = [("w", .bare "c")] := by
    rw [hbinding]
    show ((Attributes.ofBody localBinding.tag.spec.attributes
      (.ofList localBinding.body)).toOption.getD {}).pairs = _
    rw [localBinding, Leaf.body, TagArguments.ofBody_text _ (by decide)]
    rfl
  have hinner : Rendering.renderNode (.usual partLoader) 1 3 (partStart bindings) =
      (.ok "", partDone bindings) :=
    Rendering.renderNode_of_pair_alone (by rw [hbinding]; rfl) hpairs (by decide)
  have hchildren : ((partStart bindings).node 4).children = [3] := by
    rw [hroot]
    rfl
  rw [Rendering.renderNode_of_root (by rw [hroot]; rfl) hchildren (by decide)]
  exact Rendering.sequence_cons hinner (Rendering.sequence_nil _ (partDone bindings))

theorem document_partDone :
    (partDone bindings).document = (partStart bindings).document.bind 4 "w" (.text "c") := by
  obtain ⟨_, hbinding⟩ := node_three_partStart bindings
  have htarget : (partStart bindings).target 3 = 4 := by
    rw [RenderState.target, hbinding]
    rfl
  rw [← htarget]
  exact RenderState.document_through_assign rfl

end inclusion

/-- The page binds one variable of the template.  The source that it includes binds another one in
the fragment that it becomes, where the page does not see it. -/
theorem exists_renderNode_bindingAndInclusion : ∃ t,
    Rendering.renderNode (.usual partLoader) 0 2 bindingStart = (.ok "", t) ∧
      t.globals = (∅ : Scope).insert "v" (.text "a") ∧
      (t.node 2).scope = (bindingStart.node 2).scope ∧
      (t.node 4).scope.get? "w" = some (.text "c") := by
  have hdepth : 0 < (Environment.usual partLoader).settings.maxDepth := by decide
  obtain ⟨bindings, hinclusion⟩ := Rendering.renderNode_of_bringsIn bringsIn_part (by decide) hdepth
    (TagScanner.read_print bindingAlone)
  have hincluded := hinclusion "" (partDone bindings)
    (by rw [size_bindingDone_report]; exact renderNode_partStart bindings)
  refine ⟨(partDone bindings).report 1 .complete "", Rendering.renderNode_of_pair rfl rfl
    (by decide) (by decide) renderNode_globalBinding hincluded, ?_, ?_, ?_⟩
  · simp only [partDone, partStart, RenderState.through, RenderState.report_globals,
      RenderState.assign_of_local, RenderState.withFragment, RenderState.grow, bindingDone,
      RenderState.assign_of_global]
    rfl
  · rw [RenderState.node_report, RenderState.node, document_partDone, Document.bind,
      Document.node_update_of_ne _ _ (by decide)]
    exact congrArg Node.scope (node_two_partStart bindings)
  · rw [RenderState.node_report, RenderState.node, document_partDone]
    exact Document.get?_scope_bind (by rw [size_partStart]; decide) _ _

/-- The locality of the root of that page. -/
theorem renderNode_confined_page :
    let env := Environment.usual partLoader
    let history := (Rendering.recorded env 0 2).moves bindingStart
    Reachable env bindingStart ∧ 2 < bindingStart.document.size ∧
      ∃ t, Rendering.renderNode env 0 2 bindingStart = (.ok "", t) ∧
        t.globals = (∅ : Scope).insert "v" (.text "a") ∧
        (t.node 2).scope = (bindingStart.node 2).scope ∧
        (t.node 4).scope.get? "w" = some (.text "c") ∧
        Leads bindingStart history t ∧ Confined 2 bindingStart t ∧
        (∀ p ∈ history, p.IsConfined env ∧
          (p.id ∈ bindingStart.document.descendants 2 ∨ bindingStart.document.size ≤ p.id)) ∧
        ∃ p ∈ history, ∃ a, Makes env p.before p.id a ∧ a.global = true ∧ a.name = "v" ∧
          a.value = .text "a" := by
  intro env history
  have hreachable : Reachable env bindingStart :=
    Rendering.reachable_pageState (TagScanner.read_print bindingAndInclusion) ∅
  have hsize : 2 < bindingStart.document.size := by decide
  obtain ⟨t, hrender, hglobals, hpage, hfragment⟩ := exists_renderNode_bindingAndInclusion
  obtain ⟨_, hleads, hconfined, hwithin, hbag⟩ := renderNode_confined env
    (fun _ => Preparer.isLocal_of_mem_builtins) hreachable hsize 0
  rw [hrender] at hleads hconfined hbag
  have hend : t.globals.bindings.get? "v" = some (.text "a") := by
    rw [hglobals]
    rfl
  have hassigned : ∃ p ∈ history, ∃ a, Makes env p.before p.id a ∧ a.global = true ∧
      a.name = "v" ∧ a.value = .text "a" := by
    rcases hbag "v" with hold | ⟨p, hp, a, ha, hglobal, hname, hvalue⟩
    · exact absurd (hend.symm.trans hold) nofun
    · exact ⟨p, hp, a, ha, hglobal, hname, (Option.some.inj (hend.symm.trans hvalue)).symm⟩
  exact ⟨hreachable, hsize, t, hrender, hglobals, hpage, hfragment, hleads, hconfined, hwithin,
    hassigned⟩

end TagTemplate
