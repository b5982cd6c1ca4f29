import TagTemplate.Proofs.Render.Entries
import TagTemplate.Proofs.Render.Leaves
import TagTemplate.Proofs.Value.Maps

/-! # Rounds of a loop

A loop renders what it holds in rounds, each from the state that the one before has left.  What a
loop does is told by its rounds and by what ends them, whatever the rounds do to the state.

* `Rounds`: rounds one after another, with their texts.
* `EachRun`: the rounds of a loop over entries, up to the last one or to one that fails.
* `renderNode_eachLoop_rounds`: the entries of such a loop are those at its start, and its node has
  its own variables again at the end. -/

namespace TagTemplate

/-! ### Entries -/

/-- A loop goes over the list that is written in its tag, or over the value of a variable; one that
is not bound counts as null. -/
inductive RenderState.LoopsOver (s : RenderState) (id : Nat) : Value → Prop
  | nothing (h : (s.node id).attributes.get? "items" = none) : LoopsOver s id .null
  | written {items : List AttrValue}
      (h : (s.node id).attributes.get? "items" = some (.list items)) :
      LoopsOver s id (.list (AttrValue.itemValues items))
  | variable {v : AttrValue} (h : (s.node id).attributes.get? "items" = some v)
      (hv : ∀ items, v ≠ .list items) :
      LoopsOver s id ((s.lookup? id (v.referenced?.getD v.asText)).getD .null)

namespace LoopEntry

/-- The entries of a value. -/
inductive Lists : Value → List LoopEntry → Prop
  | null : Lists .null []
  | items (values : List Value) : Lists (.list values) (values.map fun v => { value := v })
  | fields (fields : NameMap Value) :
      Lists (.map fields) (fields.entries.map fun e => { key := some e.1, value := e.2 })
  | single {v : Value} (hnull : v ≠ .null) (hlist : ∀ values, v ≠ .list values)
      (hmap : ∀ fields, v ≠ .map fields) : Lists v [{ value := v }]

theorem lists_ofValue (v : Value) : Lists v (ofValue v) := by
  cases v with
  | null => exact .null
  | list values => exact .items values
  | map fields => exact .fields fields
  | bool _ | number _ | text _ => exact .single nofun nofun nofun

theorem Lists.keys_ordered {fields : NameMap Value} {entries : List LoopEntry}
    (h : Lists (.map fields) entries) (hordered : fields.Ordered) :
    ∃ keys : List String, entries.map (·.key) = keys.map some ∧ keys.Pairwise (· < ·) := by
  cases h with
  | fields =>
      refine ⟨fields.names, ?_, List.pairwise_map.mpr hordered⟩
      rw [NameMap.names, List.map_map, List.map_map]
      rfl
  | single hnull hlist hmap => exact absurd rfl (hmap fields)

/-- The variables of an entry, in the order of their names. -/
def bindings (e : LoopEntry) (index : Nat) : List (String × Value) :=
  [("@current", e.value), ("@index", Function.ofNat index)] ++
    (e.key.map fun key => ("@key", .text key)).toList

theorem toList_scope (e : LoopEntry) (index : Nat) : (e.scope index).toList = e.bindings index := by
  obtain ⟨key, value⟩ := e
  cases key with
  | none => rfl
  | some key => rfl

end LoopEntry

theorem RenderState.exists_loopsOver (s : RenderState) (id : Nat) :
    ∃ v, s.LoopsOver id v ∧ LoopEntry.Lists v (s.loopEntries id) := by
  rw [loopEntries]
  split
  · next h => exact ⟨.null, .nothing h, .null⟩
  · next items h => exact ⟨_, .written h, .items _⟩
  · next v hv h => exact ⟨_, .variable h hv, LoopEntry.lists_ofValue _⟩

theorem RenderState.lt_size_of_kind {s : RenderState} {id : Nat} (h : (s.node id).kind ≠ .root) :
    id < s.document.size := by
  by_contra hnot
  refine h ?_
  rw [node, Document.node_of_size_le (Nat.le_of_not_lt hnot)]
  rfl

/-! ### Rounds -/

/-- Rounds one after another: the texts of those from a number on, from a state on, and the state
that they leave. -/
inductive Rounds (round : Nat → RenderState → Except RenderError String → RenderState → Prop) :
    Nat → RenderState → List String → RenderState → Prop
  | nil {first : Nat} {s : RenderState} : Rounds round first s [] s
  | cons {first : Nat} {s t u : RenderState} {text : String} {texts : List String}
      (h : round first s (.ok text) t) (rest : Rounds round (first + 1) t texts u) :
      Rounds round first s (text :: texts) u

/-- A round of a loop over entries: the variables of the entry are the only ones of the node when
the rendering of the body begins. -/
inductive EntryRound (body : Rendering String) (id : Nat) (entries : List LoopEntry) (index : Nat)
    (s : RenderState) : Except RenderError String → RenderState → Prop
  | intro {e : LoopEntry} {start t : RenderState} {r : Except RenderError String}
      (he : entries[index]? = some e) (hstart : start = s.setScope id (e.scope index))
      (hscope : (start.node id).scope.toList = e.bindings index) (hrun : body start = (r, t)) :
      EntryRound body id entries index s r t

/-- The rounds of a loop over entries from a number on: one for each entry, up to the last one or
to one that fails. -/
inductive EachRun (body : Rendering String) (id : Nat) (entries : List LoopEntry) (first : Nat)
    (s : RenderState) : Except RenderError (List String) → RenderState → Prop
  | finished {texts : List String} {t : RenderState}
      (rounds : Rounds (EntryRound body id entries) first s texts t)
      (hall : first + texts.length = entries.length) :
      EachRun body id entries first s (.ok texts) t
  | broken {texts : List String} {t u : RenderState} {x : RenderError}
      (rounds : Rounds (EntryRound body id entries) first s texts t)
      (hlast : EntryRound body id entries (first + texts.length) t (.error x) u) :
      EachRun body id entries first s (.error x) u

theorem EachRun.cons {body : Rendering String} {id : Nat} {entries : List LoopEntry} {first : Nat}
    {s t u : RenderState} {text : String} {r : Except RenderError (List String)}
    (h : EntryRound body id entries first s (.ok text) t)
    (rest : EachRun body id entries (first + 1) t r u) :
    EachRun body id entries first s (r.map (text :: ·)) u := by
  cases rest with
  | @finished texts _ rounds hall =>
      refine .finished (.cons h rounds) ?_
      rw [← hall, List.length_cons]
      omega
  | @broken texts _ _ _ rounds hlast =>
      refine .broken (.cons h rounds) ?_
      rwa [List.length_cons, Nat.add_comm texts.length, ← Nat.add_assoc]

namespace Rendering

/-! ### The rounds of a loop over entries -/

/-- The step keeps a node in the document. -/
def KeepsNode (id : Nat) (x : Rendering String) : Prop :=
  ∀ s : RenderState, id < s.document.size → id < (x s).2.document.size

theorem keepsNode_held (env : Environment) (depth id : Nat) :
    KeepsNode id (held (renderNode env depth) id) := fun s hid =>
  Nat.lt_of_lt_of_le hid (held_acts env depth id s hid).stays.size_le

section entries
variable {id : Nat} {body : Rendering String} (hbody : KeepsNode id body)
include hbody

/-- The body is rendered for the entries that come after those already done. -/
theorem eachTexts_run {entries : List LoopEntry} : ∀ {before rest : List LoopEntry}
    {s : RenderState}, entries = before ++ rest → id < s.document.size →
      ∃ r t, EachRun body id entries before.length s r t ∧ id < t.document.size ∧
        eachTexts id body before.length rest s = (r, t)
  | before, [], s, hentries, hid => by
      refine ⟨.ok [], s, .finished .nil ?_, hid, rfl⟩
      rw [hentries, List.append_nil, List.length_nil, Nat.add_zero]
  | before, e :: rest, s, hentries, hid => by
      let start := s.setScope id (e.scope before.length)
      have hsize : id < start.document.size := by rwa [RenderState.size_setScope]
      have he : entries[before.length]? = some e := by simp [hentries]
      have hscope : (start.node id).scope.toList = e.bindings before.length := by
        rw [RenderState.node_setScope hid, if_pos rfl]
        exact e.toList_scope before.length
      have hkeep := hbody start hsize
      rw [eachTexts, bind_of_ok (modify_apply _ s)]
      cases hrun : body start with
      | mk r t =>
          have hround : EntryRound body id entries before.length s r t := ⟨he, rfl, hscope, hrun⟩
          rw [hrun] at hkeep
          cases r with
          | error x => exact ⟨.error x, t, .broken .nil hround, hkeep, bind_of_error hrun⟩
          | ok text =>
              have hnext : entries = (before ++ [e]) ++ rest :=
                hentries.trans (List.append_assoc before [e] rest).symm
              obtain ⟨r, u, hrest, hu, hloop⟩ := eachTexts_run hnext hkeep
              rw [List.length_append] at hrest hloop
              refine ⟨r.map (text :: ·), u, .cons hround hrest, hu, (bind_of_ok hrun).trans ?_⟩
              rw [bind_apply]
              exact hloop ▸ (by cases r <;> rfl)

/-- A loop over entries leaves the variables of its node as they were, also after a failure. -/
theorem eachLoop_run {s : RenderState} (hid : id < s.document.size) :
    ∃ r t, EachRun body id (s.loopEntries id) 0 s r t ∧ id < t.document.size ∧
      eachLoop id body s = (r.map ((s.node id).attributeText "glue").intercalate,
        t.setScope id (s.node id).scope) := by
  have hentries : s.loopEntries id = [] ++ s.loopEntries id := (List.nil_append _).symm
  obtain ⟨r, t, hrun, ht, hloop⟩ := eachTexts_run hbody hentries hid
  refine ⟨r, t, hrun, ht, ?_⟩
  rw [eachLoop, bind_of_ok (get_apply s)]
  rw [List.length_nil] at hloop
  rw [bind_apply, ensuring_apply, hloop]
  cases r <;> rfl

end entries

/-! ### Nodes with a rule of their own -/

/-- The end of a node: its last event is left out if the rule has failed. -/
def closing (id : Nat) : Except RenderError String × RenderState →
    Except RenderError String × RenderState
  | (.ok text, t) => (.ok text, t.report id .complete "")
  | (.error x, t) => (.error x, t)

theorem node_closing (id : Nat) (p : Except RenderError String × RenderState) (i : Nat) :
    (closing id p).2.node i = p.2.node i := by
  obtain ⟨r, t⟩ := p
  cases r with
  | ok text => exact RenderState.node_report t id .complete "" i
  | error x => rfl

/-- A node whose rule produces text by itself, by the text of that rule. -/
theorem renderNode_of_own {env : Environment} {depth id : Nat} {s : RenderState}
    (hlife : hasLifecycle (s.node id).kind = true)
    (hown : (s.node id).kind.dispatch = .render .own) :
    renderNode env depth id s =
      closing id (ownText env id (held (renderNode env depth) id) (s.report id .started "")) := by
  have hrule : rule env id (held (renderNode env depth) id) (deeper env depth) (.render .own) =
      ownText env id (held (renderNode env depth) id) := rfl
  rw [renderNode_eq, nodeWith, bind_of_ok (node_apply id s), withLifecycle_apply _ hlife, hown,
    hrule, bind_apply]
  cases ownText env id (held (renderNode env depth) id) (s.report id .started "") with
  | mk r t => cases r <;> rfl

/-- A loop over entries.  Its entries and its glue are those before the first round.  Each entry
has one round, in order, up to the first that fails, and in a round the node has no variables but
those of the entry.  At the end, also after a failure, it has the variables it had at the start. -/
theorem renderNode_eachLoop_rounds (env : Environment) (depth : Nat) {id : Nat} {s : RenderState}
    (hk : (s.node id).kind = .eachLoop) :
    (∃ v, s.LoopsOver id v ∧ LoopEntry.Lists v (s.loopEntries id) ∧
      ∀ fields : NameMap Value, v = .map fields → fields.Ordered →
        ∃ keys : List String, (s.loopEntries id).map (·.key) = keys.map some ∧
          keys.Pairwise (· < ·)) ∧
    (∃ r t, EachRun (held (renderNode env depth) id) id (s.loopEntries id) 0
        (s.report id .started "") r t ∧
      renderNode env depth id s = closing id (r.map ((s.node id).attributeText "glue").intercalate,
        t.setScope id (s.node id).scope)) ∧
    ((renderNode env depth id s).2.node id).scope = (s.node id).scope := by
  let start := s.report id .started ""
  have hid : id < s.document.size := RenderState.lt_size_of_kind (by rw [hk]; exact nofun)
  have hdocument : start.document = s.document := s.report_document id .started ""
  have hnode : start.node id = s.node id := s.node_report id .started "" id
  have hentries : start.loopEntries id = s.loopEntries id := by
    unfold RenderState.loopEntries
    rw [hnode]
    simp only [start, RenderState.lookup?_report]
  obtain ⟨r, t, hrun, ht, hloop⟩ := eachLoop_run (keepsNode_held env depth id) (hdocument ▸ hid)
  rw [hentries] at hrun
  have hrender : renderNode env depth id s = closing id
      (r.map ((s.node id).attributeText "glue").intercalate, t.setScope id (s.node id).scope) := by
    rw [renderNode_of_own (by rw [hk]; rfl) (by rw [hk]; rfl), ownText,
      bind_of_ok (node_apply id _), hnode, hk]
    dsimp only
    rw [hloop, hnode]
  obtain ⟨v, hv, hlists⟩ := s.exists_loopsOver id
  refine ⟨⟨v, hv, hlists, fun fields heq => ?_⟩, ⟨r, t, hrun, hrender⟩, ?_⟩
  · subst heq
    exact hlists.keys_ordered
  · rw [hrender, node_closing, RenderState.node_setScope ht, if_pos rfl]

/-- The state of a loop over a map, with its fields not given in order. -/
def tableState : RenderState :=
  { leakingState with globals := .ofList [("xs", .map (.ofList [("b", .text "two"),
    ("a", .text "one")])), ("flag", .bool true)] }

/-- That loop has one round for each field, in the order of the keys. -/
theorem renderNode_eachLoop_rounds_tableState :
    (tableState.node 4).kind = .eachLoop ∧
      (tableState.loopEntries 4).map (·.key) = [some "a", some "b"] ∧
      (∃ r t, EachRun (held (renderNode usualEnvironment 0) 4) 4 (tableState.loopEntries 4) 0
          (tableState.report 4 .started "") r t ∧
        renderNode usualEnvironment 0 4 tableState =
          closing 4 (r.map ((tableState.node 4).attributeText "glue").intercalate,
            t.setScope 4 (tableState.node 4).scope)) ∧
      ((renderNode usualEnvironment 0 4 tableState).2.node 4).scope =
        (tableState.node 4).scope := by
  have hk : (tableState.node 4).kind = .eachLoop := by decide +kernel
  obtain ⟨_, hrun, hscope⟩ := renderNode_eachLoop_rounds usualEnvironment 0 hk
  exact ⟨hk, by decide +kernel, hrun, hscope⟩

end Rendering

end TagTemplate
