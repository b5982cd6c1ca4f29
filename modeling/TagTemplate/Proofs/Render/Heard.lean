import TagTemplate.Proofs.Document.Hearing
import TagTemplate.Proofs.Document.Rift
import TagTemplate.Proofs.Render.Acts

/-! # States that are heard or not

A state whose document reports all events has a counterpart that differs only in who listens: all
that a rule sees of it is the same, and a change that does not look at the listeners changes both
in the same way.

* `Document.Audible`: the events of all nodes are reported.
* `RenderState.Heard`: the second state is the first one, heard or not.
* `RenderState.IsSilent`: a change of a state that reports nothing. -/

namespace TagTemplate

/-! ### Documents -/

/-- The events of all nodes are reported. -/
def Document.Audible (d : Document) : Prop :=
  d.hear true = d

/-- The second document has all nodes of the first one, with their labels. -/
structure Document.Keeps (d e : Document) : Prop where
  size_le : d.size ≤ e.size
  label {j : Nat} (h : j < d.size) : (e.node j).label = (d.node j).label

namespace Document.Keeps

variable {d e f : Document}

theorem refl (d : Document) : d.Keeps d :=
  ⟨Nat.le_refl _, fun _ => rfl⟩

theorem trans (h : d.Keeps e) (h' : e.Keeps f) : d.Keeps f :=
  ⟨Nat.le_trans h.size_le h'.size_le,
    fun hj => (h'.label (Nat.lt_of_lt_of_le hj h.size_le)).trans (h.label hj)⟩

theorem of_stays (h : d.Stays e) : d.Keeps e :=
  ⟨h.size_le, fun hj => by rw [(h.node hj).eq]; rfl⟩

theorem update (d : Document) (id : Nat) {f : Node → Node} (h : ∀ n, (f n).label = n.label) :
    d.Keeps (d.update id f) := by
  refine ⟨Nat.le_of_eq (size_update d id f).symm, fun {j} hj => ?_⟩
  rw [node_update _ _ _ _ hj]
  split
  · exact h _
  · rfl

end Document.Keeps

/-! ### States -/

namespace RenderState

/-- The second state is the first one with the events of all nodes reported, or none; the events so
far do not matter. -/
structure Heard (b : Bool) (s t : RenderState) : Prop where
  document : t.document = s.document.hear b
  globals : t.globals = s.globals
  macros : t.macros = s.macros

/-- The state after an event, if it is reported. -/
def tell (b : Bool) (e : Event) (s : RenderState) : RenderState :=
  if b then { s with events := s.events.push e } else s

/-- A change of a state that reports nothing, keeps the nodes and does not depend on who listens. -/
structure IsSilent (f : RenderState → RenderState) : Prop where
  events (s : RenderState) : (f s).events = s.events
  keeps (s : RenderState) : s.document.Keeps (f s).document
  heard {b : Bool} {s t : RenderState} (h : s.Heard b t) : (f s).Heard b (f t)

variable {b : Bool} {s t : RenderState}

theorem heard_of_audible (h : s.document.Audible) : s.Heard true s :=
  ⟨h.symm, rfl, rfl⟩

theorem exists_heard (b : Bool) (s : RenderState) : ∃ t, s.Heard b t :=
  ⟨{ s with document := s.document.hear b }, rfl, rfl, rfl⟩

section tell
variable (c : Bool) (e : Event) (s : RenderState)

@[simp] theorem tell_document : (s.tell c e).document = s.document := by
  cases c <;> rfl

@[simp] theorem tell_globals : (s.tell c e).globals = s.globals := by
  cases c <;> rfl

@[simp] theorem tell_macros : (s.tell c e).macros = s.macros := by
  cases c <;> rfl

theorem tell_events :
    (s.tell c e).events.toList = s.events.toList ++ if c then [e] else [] := by
  cases c with
  | false => exact (List.append_nil _).symm
  | true => exact Array.toList_push

end tell

theorem subscribed_of_audible (h : s.document.Audible) {id : Nat} (hid : id < s.document.size) :
    (s.node id).subscribed = true := by
  have hnode := s.document.node_hear true hid
  rw [h] at hnode
  exact congrArg Node.subscribed hnode

/-- An event of a node in an audible document. -/
theorem report_of_audible (h : s.document.Audible) {id : Nat} (hid : id < s.document.size)
    (kind : EventKind) (detail : String) :
    s.report id kind detail = s.tell true ⟨kind, (s.node id).label, detail⟩ := by
  rw [report, subscribed_of_audible h hid]
  rfl

namespace IsSilent

variable {f : RenderState → RenderState}

theorem audible (hf : IsSilent f) (h : s.document.Audible) : (f s).document.Audible :=
  (hf.heard (heard_of_audible h)).document.symm

/-- A change of one node, apart from who listens and from its label. -/
theorem update (id : RenderState → Nat) (g : RenderState → Node → Node)
    (hid : ∀ {b s t}, s.Heard b t → id t = id s) (hlabel : ∀ s n, (g s n).label = n.label)
    (hg : ∀ {b s t}, s.Heard b t → ∀ n, (g s n).hear b = g t (n.hear b)) :
    IsSilent fun s => { s with document := s.document.update (id s) (g s) } where
  events _ := rfl
  keeps s := .update _ _ (hlabel s)
  heard h := ⟨by
    dsimp only
    rw [h.document, hid h, Document.hear_update _ _ _ (hg h)], h.globals, h.macros⟩

theorem setScope (id : Nat) (scope : Scope) : IsSilent (·.setScope id scope) :=
  update (fun _ => id) (fun _ n => { n with scope }) (fun _ => rfl) (fun _ _ => rfl)
    fun _ _ => rfl

theorem bind (id : Nat) (name : String) (value : Value) : IsSilent (·.bind id name value) :=
  update (fun _ => id) (fun _ n => { n with scope := n.scope.insert name value }) (fun _ => rfl)
    (fun _ _ => rfl) fun _ _ => rfl

end IsSilent

namespace Heard

variable {id : Nat}

theorem node (h : s.Heard b t) (hid : id < s.document.size) : t.node id = (s.node id).hear b := by
  rw [RenderState.node, h.document, Document.node_hear _ _ hid]
  rfl

theorem of_node (h : s.Heard b t) {α : Type} {f : Node → α} (hf : ∀ n, f (n.hear b) = f n)
    (id : Nat) : f (t.node id) = f (s.node id) := by
  rw [RenderState.node, h.document, Document.of_node_hear _ _ hf]
  rfl

theorem tell (h : s.Heard b t) (c c' : Bool) (e e' : Event) :
    (s.tell c e).Heard b (t.tell c' e') := by
  constructor <;> simp only [tell_document, tell_globals, tell_macros]
  · exact h.document
  · exact h.globals
  · exact h.macros

theorem report (h : s.Heard b t) (hid : id < s.document.size) (kind : EventKind)
    (detail : String) : t.report id kind detail = t.tell b ⟨kind, (s.node id).label, detail⟩ := by
  rw [RenderState.report, h.node hid]
  rfl

theorem target (h : s.Heard b t) (id : Nat) : t.target id = s.target id := by
  unfold RenderState.target
  rw [h.of_node (Node.hear_parent b)]

theorem assign (h : s.Heard b t) (id : Nat) (a : Assignment) :
    (s.assign id a).Heard b (t.assign id a) := by
  cases ha : a.global with
  | true =>
      rw [assign_of_global ha, assign_of_global ha, h.globals]
      exact ⟨h.document, rfl, h.macros⟩
  | false =>
      rw [assign_of_local ha, assign_of_local ha, h.target]
      exact (IsSilent.bind _ a.name a.value).heard h

theorem lookup? (h : s.Heard b t) (id : Nat) (name : String) :
    t.lookup? id name = s.lookup? id name := by
  unfold RenderState.lookup?
  rw [h.document, Document.lookup?_hear, h.globals]

theorem attributeValue (h : s.Heard b t) (id : Nat) (v : AttrValue) :
    t.attributeValue id v = s.attributeValue id v := by
  unfold RenderState.attributeValue
  simp only [h.lookup?]

theorem arguments (h : s.Heard b t) (id : Nat) : t.arguments id = s.arguments id := by
  unfold RenderState.arguments
  rw [h.of_node (Node.hear_attributes b)]
  simp only [h.attributeValue]

theorem referenceText (h : s.Heard b t) (id : Nat) :
    t.referenceText Toolkit.builtin.generators id
      = s.referenceText Toolkit.builtin.generators id := by
  have hgenerator : ∀ {name f}, Generator.builtins.get? name = some f →
      f (t.node id) = f (s.node id) := by
    intro name f hf
    rcases Generator.eq_of_builtins hf with rfl | rfl <;> exact h.of_node (fun _ => rfl) id
  unfold RenderState.referenceText
  simp only [h.of_node (Node.hear_attributes b), h.lookup?]
  split
  · rfl
  · split
    · rfl
    · split
      · rfl
      · cases hf : ((s.node id).attributes.text? "generator").bind
            Toolkit.builtin.generators.get? with
        | none => rfl
        | some f =>
            obtain ⟨name, _, hname⟩ := Option.bind_eq_some_iff.mp hf
            exact hgenerator hname

theorem condition (h : s.Heard b t) (id : Nat) : t.condition id = s.condition id := by
  unfold RenderState.condition
  simp only [h.of_node (Node.hear_attributes b), h.lookup?, h.attributeValue]

theorem loopEntries (h : s.Heard b t) (id : Nat) : t.loopEntries id = s.loopEntries id := by
  unfold RenderState.loopEntries
  simp only [h.of_node (Node.hear_attributes b), h.lookup?]

theorem container? (h : s.Heard b t) (id : Nat) : t.container? id = s.container? id := by
  unfold RenderState.container?
  rw [h.document, Document.nearestContainer?_hear]
  refine congrArg (Option.bind _) (funext fun root => ?_)
  rw [h.of_node (Node.hear_container b)]

theorem updateContainer (h : s.Heard b t) (id : Nat) (f : Container → Container) :
    (s.updateContainer id f).Heard b (t.updateContainer id f) := by
  unfold RenderState.updateContainer
  rw [h.container? id]
  split
  · next root c _ =>
    refine ⟨?_, h.globals, h.macros⟩
    dsimp only
    rw [h.document, Document.hear_setContainer]
  · exact h

end Heard

namespace IsSilent

theorem assign (id : Nat) (a : Assignment) : IsSilent (·.assign id a) :=
  ⟨fun s => s.assign_events id a, fun s => .of_stays (s.assign_stays id a),
    fun h => h.assign id a⟩

theorem updateContainer (id : Nat) (f : Container → Container) :
    IsSilent (·.updateContainer id f) :=
  ⟨fun s => s.updateContainer_events id f, fun s => .of_stays (s.updateContainer_stays id f),
    fun h => h.updateContainer id f⟩

end IsSilent

end RenderState

namespace Rendering

theorem reportTemplate_apply (env : Environment) (kind : EventKind) (detail : String)
    (s : RenderState) :
    reportTemplate env kind detail s
      = (.ok ⟨⟩, s.tell env.settings.bubble ⟨kind, "template", detail⟩) := by
  unfold reportTemplate RenderState.tell
  cases env.settings.bubble <;> rfl

end Rendering

end TagTemplate
