import TagTemplate.Proofs.Render.Acts

/-! # What single nodes render to

One equation for each kind of node that the pages of a few tags consist of: the text of the node,
and the state after it.

* `renderNode_of_root`: a root has the texts of the nodes that it holds, one after another.
* `renderNode_of_reference`, `renderNode_of_binding` and `renderNode_of_definition`: nodes that read
  or write one variable or macro.
* `renderNode_of_invocation`: an invocation has the text of the fragment that the body of the macro
  is read as. -/

namespace TagTemplate

namespace Document

/-- A variable that is bound in the parent of a node, and not in the node itself. -/
theorem lookup?_of_parent {d : Document} {id parent : Nat} {name : String} {v : Value}
    (hsize : 2 ≤ d.size) (hparent : (d.node id).parent = some parent)
    (hown : (d.node id).scope.get? name = none)
    (hv : (d.node parent).scope.get? name = some v) : d.lookup? id name = some v := by
  obtain ⟨n, hn⟩ := Nat.exists_eq_add_of_le' hsize
  rw [lookup?, ancestors, hn, ancestorsWithin, hparent]
  dsimp only
  rw [ancestorsWithin, List.findSome?_cons, hown]
  dsimp only
  rw [List.findSome?_cons, hv]

theorem get?_scope_bind {d : Document} {id : Nat} (hid : id < d.size) (name : String) (v : Value) :
    ((d.bind id name v).node id).scope.get? name = some v := by
  rw [bind, node_update _ _ _ _ hid, if_pos rfl, Scope.get?]
  dsimp only
  rw [Scope.insert, NameMap.get?_insert, if_pos rfl]

theorem container_update (d : Document) (id : Nat) {f : Node → Node}
    (hf : ∀ n, (f n).container = n.container) (i : Nat) :
    ((d.update id f).node i).container = (d.node i).container := by
  rw [node, get?_update, node]
  split
  · cases d.get? i with
    | none => rfl
    | some n => exact hf n
  · rfl

theorem container_bind (d : Document) (id : Nat) (name : String) (v : Value) (i : Nat) :
    ((d.bind id name v).node i).container = (d.node i).container := by
  refine d.container_update id ?_ i
  exact fun _ => rfl

end Document

namespace RenderState

/-- The state after a node that has carried out a step, with its events. -/
def through (s : RenderState) (id : Nat) (f : RenderState → RenderState) : RenderState :=
  (f (s.report id .started "")).report id .complete ""

theorem node_report (s : RenderState) (id : Nat) (kind : EventKind) (detail : String) (i : Nat) :
    (s.report id kind detail).node i = s.node i := by
  rw [node, report_document, node]

/-- The state after several events of a node. -/
def reports (s : RenderState) (id : Nat) (events : List (EventKind × String)) : RenderState :=
  events.foldl (fun s e => s.report id e.1 e.2) s

theorem reports_append (s : RenderState) (id : Nat) (events more : List (EventKind × String)) :
    s.reports id (events ++ more) = (s.reports id events).reports id more :=
  List.foldl_append

theorem node_reports (id : Nat) (events : List (EventKind × String)) (i : Nat) (s : RenderState) :
    (s.reports id events).node i = s.node i := by
  induction events generalizing s with
  | nil => rfl
  | cons e events ih => exact (ih _).trans (node_report s id e.1 e.2 i)

theorem reports_eq (s : RenderState) (id : Nat) (events : List (EventKind × String)) :
    ∃ told, s.reports id events = { s with events := told } := by
  induction events generalizing s with
  | nil => exact ⟨s.events, rfl⟩
  | cons e events ih =>
      obtain ⟨told, h⟩ := ih (s.report id e.1 e.2)
      refine ⟨told, h.trans ?_⟩
      rw [report]
      split <;> rfl

theorem lookup?_report (s : RenderState) (id : Nat) (kind : EventKind) (detail : String) (i : Nat)
    (name : String) : (s.report id kind detail).lookup? i name = s.lookup? i name := by
  rw [lookup?, report_document, report_globals, lookup?]

theorem attributeValue_report (s : RenderState) (id : Nat) (kind : EventKind) (detail : String)
    (i : Nat) (v : AttrValue) :
    (s.report id kind detail).attributeValue i v = s.attributeValue i v := by
  unfold attributeValue
  split
  · rw [lookup?_report]
  · rfl

/-- The state with a macro kept under a name. -/
def define (s : RenderState) (name : String) (m : MacroDefinition) : RenderState :=
  { s with macros := s.macros.insert name m }

theorem document_through_define (s : RenderState) (id : Nat) (name : String)
    (m : MacroDefinition) : (s.through id fun t => t.define name m).document = s.document := by
  rw [through, report_document]
  exact report_document s id .started ""

theorem get?_macros_through_define (s : RenderState) (id : Nat) (name : String)
    (m : MacroDefinition) : (s.through id fun t => t.define name m).macros.get? name = some m := by
  rw [through, report_macros, define]
  exact (NameMap.get?_insert _ _ _ _).trans (if_pos rfl)

theorem document_through_assign {s : RenderState} {id : Nat} {a : Assignment}
    (h : a.global = false) : (s.through id fun t => t.assign id a).document =
      s.document.bind (s.target id) a.name a.value := by
  rw [through, report_document, assign_of_local h, report_document, target, node_report, target]

end RenderState

def Node.toMacro (n : Node) : MacroDefinition where
  parameters := .ofList (n.attributes.pairs.map fun p => (p.1, p.2.toValue))
  body := n.text?.getD ""

namespace Rendering

variable {env : Environment} {depth id : Nat} {s t u : RenderState}

/-! ### Sequences -/

theorem sequence_nil (render : Nat → Rendering String) (s : RenderState) :
    sequence render [] s = (.ok "", s) :=
  rfl

theorem sequence_cons {render : Nat → Rendering String} {a : Nat} {ids : List Nat} {x y : String}
    (hx : render a s = (.ok x, t)) (hrest : sequence render ids t = (.ok y, u)) :
    sequence render (a :: ids) s = (.ok (x ++ y), u) := by
  rw [sequence, List.mapM_cons, bind_assoc, bind_of_ok hx]
  rw [sequence, bind_apply] at hrest
  rw [bind_assoc, bind_apply]
  cases h : ids.mapM render t with
  | mk r v =>
      rw [h] at hrest
      cases r with
      | error e => cases hrest
      | ok texts =>
          cases hrest
          show ((.ok (String.join (x :: texts)), u) : Except RenderError String × RenderState) = _
          rw [String.join_cons]

theorem sequence_congr {f g : Nat → Rendering String} {ids : List Nat}
    (h : ∀ c ∈ ids, f c = g c) : sequence f ids = sequence g ids := by
  have hmap : ids.mapM f = ids.mapM g := by
    induction ids with
    | nil => rfl
    | cons c ids ih =>
        rw [List.mapM_cons, List.mapM_cons, h c List.mem_cons_self,
          ih fun d hd => h d (List.mem_cons_of_mem c hd)]
  rw [sequence, hmap, sequence]

/-- A root has the texts of the nodes that it holds, one after another. -/
theorem renderNode_of_root {ids : List Nat} (hk : (s.node id).kind = .root)
    (hc : (s.node id).children = ids) (hlt : ∀ c ∈ ids, c < id) :
    renderNode env depth id s = sequence (renderNode env depth) ids s := by
  have hlife : hasLifecycle (s.node id).kind = false := by rw [hk]; rfl
  have hheld : held (renderNode env depth) id s = sequence (renderNode env depth) ids s := by
    rw [held, bind_of_ok (node_apply id s), hc, sequence_congr fun c hc => if_pos (hlt c hc)]
  have hown : ownText env id (held (renderNode env depth) id) s =
      held (renderNode env depth) id s := by
    rw [ownText, bind_of_ok (node_apply id s), hk]
  rw [renderNode_eq, nodeWith, bind_of_ok (node_apply id s), withLifecycle_of_not _ hlife, hk,
    ← hheld]
  exact hown

/-! ### Nodes with events -/

theorem forIn_report (id : Nat) (events : List (EventKind × String)) (s : RenderState) :
    (forIn events PUnit.unit fun e _ => do
      report id e.1 e.2
      pure (ForInStep.yield PUnit.unit) : Rendering PUnit) s = (.ok ⟨⟩, s.reports id events) := by
  induction events generalizing s with
  | nil => rfl
  | cons e events ih =>
      rw [List.forIn_cons, bind_assoc, bind_of_ok (report_apply id e.1 e.2 s)]
      exact ih _

/-- A node whose rule succeeds reports its start and its end. -/
theorem renderNode_of_rule {x : String} {f : RenderState → RenderState}
    (hlife : hasLifecycle (s.node id).kind = true)
    (hrule : rule env id (held (renderNode env depth) id) (deeper env depth)
      (s.node id).kind.dispatch (s.report id .started "") = (.ok x, f (s.report id .started ""))) :
    renderNode env depth id s = (.ok x, s.through id f) := by
  rw [renderNode_eq, nodeWith, bind_of_ok (node_apply id s), withLifecycle_apply _ hlife,
    bind_of_ok hrule, bind_of_ok (report_apply id .complete "" _)]
  rfl

theorem renderNode_of_reference (hk : (s.node id).kind = .reference) {name : String} {v : Value}
    (hname : (s.node id).attributes.name = some name) (hv : s.lookup? id name = some v)
    (hnull : v.isNull = false) :
    renderNode env depth id s = (.ok v.display, s.through id fun s => s) := by
  refine renderNode_of_rule (by rw [hk]; rfl) ?_
  have htext : (s.report id .started "").referenceText env.toolkit.generators id = v.display := by
    unfold RenderState.referenceText
    dsimp only
    rw [RenderState.node_report, hname]
    dsimp only
    rw [RenderState.lookup?_report, hv, Option.filter_some, hnull]
    rfl
  have hown : ownText env id (held (renderNode env depth) id) (s.report id .started "") =
      (.ok v.display, s.report id .started "") := by
    rw [ownText, bind_of_ok (node_apply id _), RenderState.node_report, hk]
    show ((.ok ((s.report id .started "").referenceText env.toolkit.generators id), _) :
      Except RenderError String × RenderState) = _
    rw [htext]
  rw [hk]
  exact hown

/-- A reference to a variable that is bound where the reference stands. -/
theorem renderNode_of_bound (hk : (s.node id).kind = .reference) {name : String} {v : Value}
    {parent : Nat} (hname : (s.node id).attributes.name = some name) (hsize : 2 ≤ s.document.size)
    (hparent : (s.node id).parent = some parent) (hown : (s.node id).scope.get? name = none)
    (hv : (s.node parent).scope.get? name = some v) (hnull : v.isNull = false) :
    renderNode env depth id s = (.ok v.display, s.through id fun s => s) := by
  refine renderNode_of_reference hk hname ?_ hnull
  rw [RenderState.lookup?, Document.lookup?_of_parent hsize hparent hown hv]

theorem rule_of_action {r : ActionRule} {body : Rendering String}
    {nested : Option (Nat → Rendering String)} {v : Value}
    (h : actionRule env id nested r s = (.ok v, t)) :
    rule env id body nested (.execute r) s = (.ok v.display, t) := by
  rw [rule, bind_of_ok h]
  rfl

theorem bindPair_apply (isGlobal : Bool) (key : String) (raw : AttrValue) (s : RenderState) :
    bindPair id none isGlobal key raw s = (.ok ⟨⟩,
      s.assign id { name := key, value := s.attributeValue id raw, «global» := isGlobal }) :=
  rfl

/-- A binding of one variable, which asks for no type, binds it as it is written. -/
theorem renderNode_of_binding (hk : (s.node id).kind = .binding) {key : String} {raw : AttrValue}
    {isGlobal : Bool}
    (hpairs : ((s.node id).attributes.pairs.filter fun p => p.1 ∉ bindingOptions) = [(key, raw)])
    (htype : (s.node id).attributes.text? "type" = none)
    (hglobal : (((s.node id).attributes.get? "global").map fun v => v.toValue.isTruthy).getD false =
      isGlobal) :
    renderNode env depth id s = (.ok "", s.through id fun t =>
      t.assign id { name := key, value := s.attributeValue id raw, «global» := isGlobal }) := by
  refine renderNode_of_rule (by rw [hk]; rfl) ?_
  rw [hk]
  refine rule_of_action (v := .null) ?_
  show binding env id (s.report id .started "") = _
  rw [binding, bind_of_ok (node_apply id _), RenderState.node_report, hglobal, htype, hpairs]
  have hloop : (forIn [(key, raw)] PUnit.unit fun p _ => do
      bindPair id none isGlobal p.1 p.2
      pure (ForInStep.yield PUnit.unit) : Rendering PUnit) (s.report id .started "") =
        (.ok ⟨⟩, (s.report id .started "").assign id
          { name := key, value := s.attributeValue id raw, «global» := isGlobal }) := by
    rw [List.forIn_cons, bind_assoc, bind_of_ok (bindPair_apply isGlobal key raw _),
      RenderState.attributeValue_report]
    rfl
  exact bind_of_ok hloop

/-- A binding that is written with one variable and nothing else binds it in the parent. -/
theorem renderNode_of_pair_alone (hk : (s.node id).kind = .binding) {key : String} {raw : AttrValue}
    (hpairs : (s.node id).attributes.pairs = [(key, raw)]) (hkey : key ∉ bindingOptions) :
    renderNode env depth id s = (.ok "", s.through id fun t =>
      t.assign id { name := key, value := s.attributeValue id raw, «global» := false }) := by
  have hne : key ≠ "global" ∧ key ≠ "type" := by
    simpa [bindingOptions] using hkey
  refine renderNode_of_binding hk ?_ ?_ ?_
  · rw [hpairs, List.filter_cons_of_pos (by simpa using hkey), List.filter_nil]
  · rw [Attributes.text?, Attributes.get?, hpairs, NameMap.find?, if_neg hne.2, NameMap.find?]
    rfl
  · rw [Attributes.get?, hpairs, NameMap.find?, if_neg hne.1, NameMap.find?]
    rfl

theorem renderNode_of_definition (hk : (s.node id).kind = .definition) {name : String}
    (hname : (s.node id).attributes.name = some name) :
    renderNode env depth id s =
      (.ok "", s.through id fun t => t.define name (s.node id).toMacro) := by
  refine renderNode_of_rule (by rw [hk]; rfl) ?_
  rw [hk]
  refine rule_of_action (v := .null) ?_
  show definition id (s.report id .started "") = _
  rw [definition, bind_of_ok (node_apply id _), RenderState.node_report, hname]
  rfl

/-- An invocation has the text of the fragment that the body of the macro is read as. -/
theorem renderNode_of_invocation (hk : (s.node id).kind = .invocation) {m : MacroDefinition}
    (hm : s.macros.get? (s.node id).givenName = some m) (hdepth : depth < env.settings.maxDepth)
    {parts : List Part} (hread : env.scanner.read m.body = { parts }) {x : String}
    (hbody : renderNode env (depth + 1) (s.document.size + Part.countAll parts)
      ((s.report id .started "").grow (Part.fragment (Node.prepared env.toolkit.preparers
          ⟨some id, m.parameters.extend (s.arguments id), (s.node id).paths, env.settings.bubble⟩)
        s.document.size (some id) parts ⟨0, m.body.utf8ByteSize⟩)) = (.ok x, u)) :
    renderNode env depth id s = (.ok x, u.report id .complete "") := by
  have hbuild := build_eq env m.body (some id) (m.parameters.extend (s.arguments id))
    (s.node id).paths (s.report id .started "")
  rw [hread, if_pos rfl, RenderState.report_document] at hbuild
  have harguments : (s.report id .started "").arguments id = s.arguments id := by
    unfold RenderState.arguments
    rw [RenderState.node_report]
    simp only [RenderState.attributeValue_report]
  have hsource : renderSource env id (some (renderNode env (depth + 1))) m.body
      (m.parameters.extend (s.arguments id)) (s.node id).paths (s.report id .started "") =
        (.ok (.text x), u) := by
    rw [renderSource]
    refine (bind_of_ok hbuild).trans ?_
    exact bind_of_ok hbody
  have haction : actionRule env id (deeper env depth) .invocation (s.report id .started "") =
      (.ok (.text x), u) := by
    show invocation env id (deeper env depth) (s.report id .started "") = _
    rw [invocation, bind_of_ok (get_apply _), RenderState.node_report, RenderState.report_macros,
      hm, deeper, if_pos hdepth, harguments]
    exact hsource
  refine renderNode_of_rule (f := fun _ => u) (by rw [hk]; rfl) ?_
  rw [hk]
  exact rule_of_action haction

end Rendering

end TagTemplate
