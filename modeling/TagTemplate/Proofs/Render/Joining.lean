import TagTemplate.Proofs.Body.Items
import TagTemplate.Proofs.Render.Entries
import TagTemplate.Proofs.Render.Leaves
import TagTemplate.Proofs.Render.Pages

/-! # Lists in loops

A loop over a list of texts in quotes shows the texts, with the glue between neighbours.  The
pattern of the tag goes over any text in quotes, but the list ends at the first closing bracket,
also if the bracket stands in quotes.

* `read_listPage`: the tag of the loop ends where it is meant to end, whatever the texts are.
* `Rendering.eachTexts_current`: a loop around `{@current}` has the entries as its texts.
* `Rendering.result_render_listPage`: the page shows the texts, if they have no closing bracket. -/

namespace TagTemplate

open Pattern BuiltinTag

/-! ### The page -/

/-- The body `items=["…", …, "…"] glue="…"`. -/
def listBody (items : List (List Char)) (glue : List Char) : List Char :=
  ['i', 't', 'e', 'm', 's', '=', '['] ++
    (Text.joined [',', ' '] (items.map (Text.quoted '"')) ++
      ([']', ' ', 'g', 'l', 'u', 'e', '='] ++ Text.quoted '"' glue))

/-- The page `{#each items=["…", …, "…"] glue="…"}{@current}{/each}`. -/
def listPage (items : List (List Char)) (glue : List Char) : List Char :=
  ['\x7b', '#', 'e', 'a', 'c', 'h', ' '] ++ (listBody items glue ++ (['\x7d'] ++
    (['\x7b', '@', 'c', 'u', 'r', 'r', 'e', 'n', 't', '\x7d'] ++
      ['\x7b', '/', 'e', 'a', 'c', 'h', '\x7d'])))

/-- The inside of the loop. -/
def currentScript : Script :=
  .leaf ⟨[], bland_nil⟩ (.loopValue .current) (.last ⟨[], bland_nil⟩)

/-- An opening tag of a loop over a list. -/
def eachHeading : Heading :=
  .eachLoop ⟨.plain ⟨['x'], rfl⟩, []⟩

theorem listPage_eq (items : List (List Char)) (glue : List Char) : listPage items glue =
    eachLoop.text (listBody items glue) ++
      (currentScript.print ++ (eachHeading.closing ++ [])) := by
  have hinside : currentScript.print = ['\x7b', '@', 'c', 'u', 'r', 'r', 'e', 'n', 't', '\x7d'] :=
    rfl
  have hclose : eachHeading.closing = ['\x7b', '/', 'e', 'a', 'c', 'h', '\x7d'] := rfl
  rw [hinside, hclose, listPage, text, lead, name]
  simp

def listParts (items : List (List Char)) (glue : List Char) : List Part :=
  let opened := eachLoop.text (listBody items glue)
  [.block eachLoop.spec (.ofList (listBody items glue)) (.ofList currentScript.print)
    (currentScript.parts (0 + Text.byteLength opened))
    ⟨0, 0 + Text.byteLength opened + Text.byteLength currentScript.print +
      Text.byteLength eachHeading.closing⟩]

/-! ### Reading the page -/

theorem repeats_joined {p : Pattern} {z : Char} {glue : List Char} (hglue : Repeats p z glue) :
    ∀ {l : List (List Char)}, (∀ a ∈ l, Repeats p z a) → Repeats p z (Text.joined glue l)
  | [], _ => .nil
  | [a], h => h a List.mem_cons_self
  | a :: b :: rest, h => by
      rw [Text.joined]
      exact ((h a List.mem_cons_self).append hglue).append
        (repeats_joined hglue fun c hc => h c (List.mem_cons_of_mem a hc))

theorem repeats_of_not_mem {b : List Char} (h : '"' ∉ b ∧ '\'' ∉ b ∧ '\n' ∉ b ∧ '\x7d' ∉ b) :
    Repeats bodyItem '\x7d' b := by
  obtain ⟨hdouble, hsingle, hline, hbrace⟩ := h
  have hne {d c : Char} (hd : d ∉ b) (hc : c ∈ b) : c ≠ d := fun heq => hd (heq ▸ hc)
  refine .of_takes fun c hc => ⟨takes_item (hne hdouble hc) (hne hsingle hc) ?_, hne hbrace hc⟩
  simpa [CharClass.contains] using (hne hline hc).symm

section reading
variable {items : List (List Char)} {glue : List Char} (hitems : ∀ s ∈ items, '\n' ∉ s)
  (hglue : '\n' ∉ glue)
include hitems hglue

theorem repeats_listBody : Repeats bodyItem '\x7d' (listBody items glue) := by
  have hquoted {s : List Char} (hs : '\n' ∉ s) : Repeats bodyItem '\x7d' (Text.quoted '"' s) :=
    repeats_quoted (.inl rfl) hs (by decide)
  have hjoined : Repeats bodyItem '\x7d' (Text.joined [',', ' '] (items.map (Text.quoted '"'))) := by
    refine repeats_joined (repeats_of_not_mem (by decide)) fun a ha => ?_
    obtain ⟨s, hs, rfl⟩ := List.mem_map.mp ha
    exact hquoted (hitems s hs)
  exact (repeats_of_not_mem (by decide)).append
    (hjoined.append ((repeats_of_not_mem (by decide)).append (hquoted hglue)))

omit hitems hglue in
theorem isTidy_listBody : isTidy (listBody items glue) = true := by
  have htext : listBody items glue = around (['i', 't', 'e', 'm', 's', '=', '['] ++
      (Text.joined [',', ' '] (items.map (Text.quoted '"')) ++
        [']', ' ', 'g', 'l', 'u', 'e', '='])) '"' glue [] := by
    simp [listBody, around]
  rw [htext]
  exact isTidy_around (.inl rfl) rfl rfl

/-- The tag of the loop ends at its own brace, and the loop at its own closing tag. -/
theorem read_listPage :
    TagScanner.builtin.read (.ofList (listPage items glue)) = { parts := listParts items glue } := by
  have hl := TagScanner.located_toArray 0 (listPage items glue)
  rw [listPage_eq] at hl
  have hreads : eachLoop.opener.Reads (eachLoop.text (listBody items glue)) :=
    reads_hash (.inl rfl) (repeats_listBody hitems hglue)
  have hopens : TagScanner.OpensAt eachHeading.tag (eachLoop.text (listBody items glue)) _ 0 :=
    TagScanner.opensAt_of_reads hreads hl.remains
  have hbody : eachLoop.spec.body {} (eachLoop.text (listBody items glue)) = listBody items glue :=
    (body_braces (toList_lead eachLoop) isTidy_listBody).2
  rw [TagScanner.read, String.toList_ofList, listPage_eq,
    hl.readFrom_block eachHeading currentScript hopens]
  dsimp only
  rw [hl.pass.pass.pass.readFrom_nil]
  show ({ parts := [.block eachLoop.spec (.ofList (eachLoop.spec.body {} _)) _ _ _] } : Reading) = _
  rw [hbody]
  rfl

end reading

/-! ### The attributes of the loop -/

/-- The pairs of the loop's tag as they are written. -/
def listItems (items : List (List Char)) (glue : List Char) (h : ∀ s ∈ items, ']' ∉ s) :
    List (BodyItem × ItemGap) :=
  [(.pair ⟨['i', 't', 'e', 'm', 's'], ⟨by decide, List.all_eq_true.mp rfl⟩,
        .list (quotedSlots items) (not_mem_printList h)⟩,
      .space),
    (.pair ⟨['g', 'l', 'u', 'e'], ⟨by decide, List.all_eq_true.mp rfl⟩,
      .lone ⟨.quoted .double glue, trivial⟩⟩, .nothing)]

theorem ofBody_listBody {items : List (List Char)} (h : ∀ s ∈ items, ']' ∉ s) (glue : List Char) :
    Attributes.ofBody eachLoop.spec.attributes (.ofList (listBody items glue)) = .ok
      { pairs := [("items", .list (items.map fun s => .quoted (.ofList s))),
          ("glue", .quoted (.ofList glue))] } := by
  have htext : listBody items glue = [] ++ printItems (listItems items glue h) := by
    have hlist := printList_quotedSlots items
    simp [listBody, listItems, printItems, BodyItem.print, BodyValue.print, ItemGap.print,
      ItemGap.space, ItemGap.nothing, LoneText.print, QuoteMark.char, hlist]
  have hseparated : Separated (listItems items glue h) := by
    intro x hx
    cases List.mem_singleton.mp hx
    exact List.cons_ne_nil ' ' []
  have hvalues : (quotedSlots items).map (·.item.value) =
      items.map fun s => AttrValue.quoted (.ofList s) := by
    cases items with
    | nil => rfl
    | cons s rest =>
        rw [quotedSlots, List.map_cons, List.map_map]
        rfl
  rw [htext, Attributes.ofBody_printItems _ (by decide) (List.forall_mem_nil _) hseparated]
  show Except.ok ({ pairs := [("items", .list ((quotedSlots items).map (·.item.value))), _] } :
    Attributes) = _
  rw [hvalues]
  rfl

/-- With nothing to inherit, preparing a fresh node tells it its parent and whether to report. -/
theorem Node.prepared_ofTag (t : TagDefinition) (body : String) (content : Content)
    (source : Option String) (span : Span) (root parent : Option Nat) (b : Bool) :
    (Node.ofTag t body content source span).prepared Preparer.builtins ⟨root, ∅, ∅, b⟩ parent =
      { Node.ofTag t body content source span with parent, subscribed := b, closed := true } := by
  let n := Node.ofTag t body content source span
  have hscope : (if Preparer.scopes.supports n = true then
      Preparer.scopes.prepare ⟨root, ∅, ∅, b⟩ parent n else n) = n := by
    split <;> rfl
  have hclosed : ¬ n.closed = true := Bool.false_ne_true
  rw [prepared, if_neg hclosed, preparedBy, Preparer.builtins, List.foldl_cons, hscope]
  rfl

/-! ### The texts of the loop -/

theorem Scope.get?_empty (name : String) : (∅ : Scope).get? name = none := by
  rw [get?]
  show (splitName? name).bind _ = none
  cases splitName? name <;> rfl

theorem LoopEntry.get?_scope_current (e : LoopEntry) (index : Nat) :
    (e.scope index).get? "@current" = some e.value := by
  have hbound : (e.scope index).bindings.get? "@current" = some e.value := by
    rw [scope]
    cases e.key with
    | none => simp [Scope.insert, NameMap.get?_insert]
    | some key => simp [Scope.insert, NameMap.get?_insert]
  rw [Scope.get?, hbound]

namespace Rendering

/-- The node `child` is all that the loop `id` holds, and shows the entry of the loop. -/
structure ShowsCurrent (s : RenderState) (id child : Nat) : Prop where
  size : 2 ≤ s.document.size
  inside : id < s.document.size
  children : (s.node id).children = [child]
  before : child < id
  kind : (s.node child).kind = .reference
  name : (s.node child).attributes.name = some "@current"
  parent : (s.node child).parent = some id
  own : (s.node child).scope.get? "@current" = none

variable {env : Environment} {depth id child : Nat} {s : RenderState}

namespace ShowsCurrent

theorem congr {t : RenderState} (h : ShowsCurrent s id child)
    (hsize : t.document.size = s.document.size) (hnode : ∀ i, t.node i = s.node i) :
    ShowsCurrent t id child :=
  ⟨hsize ▸ h.size, hsize ▸ h.inside, hnode id ▸ h.children, h.before, hnode child ▸ h.kind,
    hnode child ▸ h.name, hnode child ▸ h.parent, hnode child ▸ h.own⟩

theorem node_setScope (h : ShowsCurrent s id child) (scope : Scope) :
    (s.setScope id scope).node id = { s.node id with scope } ∧
      (s.setScope id scope).node child = s.node child := by
  have hchild : child < s.document.size := Nat.lt_trans h.before h.inside
  rw [RenderState.node_setScope h.inside, RenderState.node_setScope hchild, if_pos rfl,
    if_neg (Nat.ne_of_gt h.before)]
  exact ⟨rfl, rfl⟩

theorem setScope (h : ShowsCurrent s id child) (scope : Scope) :
    ShowsCurrent (s.setScope id scope) id child := by
  obtain ⟨hloop, hchild⟩ := h.node_setScope scope
  have hsize := RenderState.size_setScope s id scope
  exact ⟨hsize ▸ h.size, hsize ▸ h.inside, hloop ▸ h.children, h.before, hchild ▸ h.kind,
    hchild ▸ h.name, hchild ▸ h.parent, hchild ▸ h.own⟩

end ShowsCurrent

theorem held_current (h : ShowsCurrent s id child) (e : LoopEntry) (index : Nat)
    (hnull : e.value.isNull = false) :
    held (renderNode env depth) id (s.setScope id (e.scope index)) =
      (.ok e.value.display, (s.setScope id (e.scope index)).through child fun t => t) := by
  let round := s.setScope id (e.scope index)
  have hround : ShowsCurrent round id child := h.setScope _
  have hvalue : (round.node id).scope.get? "@current" = some e.value := by
    rw [(h.node_setScope (e.scope index)).1]
    exact e.get?_scope_current index
  have hshown : renderNode env depth child round =
      (.ok e.value.display, round.through child fun t => t) :=
    renderNode_of_bound hround.kind hround.name hround.size hround.parent hround.own hvalue hnull
  have htexts := sequence_cons hshown (sequence_nil (renderNode env depth) _)
  rw [held, bind_of_ok (node_apply id round), hround.children,
    sequence_congr fun c hc => if_pos (List.mem_singleton.mp hc ▸ h.before), htexts,
    String.append_empty]

theorem eachTexts_current : ∀ {entries : List LoopEntry} (index : Nat) {s : RenderState},
    ShowsCurrent s id child → (∀ e ∈ entries, e.value.isNull = false) →
      (eachTexts id (held (renderNode env depth) id) index entries s).1 =
        .ok (entries.map (·.value.display))
  | [], _, _, _, _ => rfl
  | e :: entries, index, s, h, hnull => by
      let round := s.setScope id (e.scope index)
      have hnext : ShowsCurrent (round.through child fun t => t) id child := by
        refine (h.setScope (e.scope index)).congr ?_ fun i => ?_
        · rw [RenderState.through, RenderState.report_document, RenderState.report_document]
        · rw [RenderState.through, RenderState.node_report, RenderState.node_report]
      have hrest := eachTexts_current (index + 1) hnext
        fun d hd => hnull d (List.mem_cons_of_mem e hd)
      rw [eachTexts, bind_of_ok (modify_apply _ _),
        bind_of_ok (held_current h e index (hnull e List.mem_cons_self)), bind_apply]
      generalize eachTexts id (held (renderNode env depth) id) (index + 1) entries
        (round.through child fun t => t) = r at hrest
      obtain ⟨_, t⟩ := r
      cases hrest
      rfl

/-! ### The text of the page -/

section page
variable {items : List (List Char)} {glue : List Char} (loader : Loader) (globals : Scope)
  (slots : NameMap String)

/-- The state in which the root of the page is rendered. -/
def listState (globals : Scope) (items : List (List Char)) (glue : List Char) : RenderState :=
  pageState globals (.ofList (listPage items glue)) (listParts items glue)

theorem node_zero_listState (items : List (List Char)) (glue : List Char) :
    ∃ span, (listState globals items glue).node 0 =
      { Node.ofTag BuiltinTag.loopVar.spec (.ofList LoopValue.current.text)
          (.text (.ofList currentScript.print)) none span with
        parent := some 1, subscribed := true, closed := true } := by
  have hcount (start : Nat) : 0 + Part.countAll (currentScript.parts start) = 1 := rfl
  obtain ⟨start, span, hnode⟩ : ∃ start span, (listState globals items glue).node 0 =
      (Node.ofTag BuiltinTag.loopVar.spec (.ofList LoopValue.current.text)
        (.text (.ofList currentScript.print)) none span).prepared Preparer.builtins
          ⟨none, ∅, ∅, true⟩ (some (0 + Part.countAll (currentScript.parts start))) :=
    ⟨_, _, rfl⟩
  exact ⟨span, by rw [hnode, hcount, Node.prepared_ofTag]⟩

theorem node_one_listState (items : List (List Char)) (glue : List Char) :
    ∃ span, (listState globals items glue).node 1 =
      { Node.ofTag BuiltinTag.eachLoop.spec (.ofList (listBody items glue)) (.children [0])
          (some (.ofList currentScript.print)) span with
        parent := some 2, subscribed := true, closed := true } := by
  obtain ⟨span, hnode⟩ : ∃ span, (listState globals items glue).node 1 =
      (Node.ofTag BuiltinTag.eachLoop.spec (.ofList (listBody items glue)) (.children [0])
        (some (.ofList currentScript.print)) span).prepared Preparer.builtins
          ⟨none, ∅, ∅, true⟩ (some 2) :=
    ⟨_, rfl⟩
  exact ⟨span, by rw [hnode, Node.prepared_ofTag]⟩

theorem showsCurrent_listState : ShowsCurrent (listState globals items glue) 1 0 := by
  obtain ⟨_, hcurrent⟩ := node_zero_listState globals items glue
  obtain ⟨_, hloop⟩ := node_one_listState globals items glue
  have hsize : (listState globals items glue).document.size = 3 := rfl
  have hname : ((Attributes.ofBody BuiltinTag.loopVar.spec.attributes
      (.ofList LoopValue.current.text)).toOption.getD {}).name = some "@current" := by
    decide +kernel
  refine ⟨?_, ?_, ?_, Nat.zero_lt_one, ?_, ?_, ?_, ?_⟩
  · rw [hsize]
    decide
  · rw [hsize]
    decide
  · rw [hloop]
    rfl
  · rw [hcurrent]
    rfl
  · rw [hcurrent]
    exact hname
  · rw [hcurrent]
  · rw [hcurrent]
    exact Scope.get?_empty "@current"

/-- The node of the loop is a loop, and its attributes are those of the body of its tag. -/
theorem loop_listState (items : List (List Char)) (glue : List Char) :
    ((listState globals items glue).node 1).kind = .eachLoop ∧
      ((listState globals items glue).node 1).attributes =
        (Attributes.ofBody BuiltinTag.eachLoop.spec.attributes
          (.ofList (listBody items glue))).toOption.getD {} := by
  obtain ⟨_, hloop⟩ := node_one_listState globals items glue
  rw [hloop]
  exact ⟨rfl, rfl⟩

theorem attributes_listState (h : ∀ s ∈ items, ']' ∉ s) :
    ((listState globals items glue).node 1).attributes =
      { pairs := [("items", .list (items.map fun s => .quoted (.ofList s))),
          ("glue", .quoted (.ofList glue))] } := by
  rw [(loop_listState globals items glue).2, ofBody_listBody h]
  rfl

theorem loopEntries_listState (h : ∀ s ∈ items, ']' ∉ s) :
    (listState globals items glue).loopEntries 1 =
      items.map fun s => { value := .text (.ofList s) } := by
  rw [RenderState.loopEntries, attributes_listState globals h]
  show (AttrValue.itemValues (items.map fun s => AttrValue.quoted (.ofList s))).map _ = _
  rw [AttrValue.itemValues_eq_map, List.map_map, List.map_map]
  rfl

/-- The loop shows the texts, with the glue between neighbours. -/
theorem renderNode_listState (h : ∀ s ∈ items, ']' ∉ s) :
    (renderNode (.usual loader) 0 1 (listState globals items glue)).1 =
      .ok ((String.ofList glue).intercalate (items.map .ofList)) := by
  have hk := (loop_listState globals items glue).1
  have hglue : ((listState globals items glue).node 1).attributeText "glue" = .ofList glue := by
    rw [Node.attributeText, attributes_listState globals h]
    rfl
  have hshows : ShowsCurrent ((listState globals items glue).report 1 .started "") 1 0 :=
    (showsCurrent_listState globals).congr (by rw [RenderState.report_document])
      fun i => RenderState.node_report _ _ _ _ i
  have hentries : ∀ e ∈ items.map fun s => ({ value := .text (.ofList s) } : LoopEntry),
      e.value.isNull = false := by
    intro e he
    obtain ⟨s, -, rfl⟩ := List.mem_map.mp he
    rfl
  rw [renderNode_eq, nodeWith_eachLoop _ _ hk, loopEntries_listState globals h, hglue,
    eachTexts_current 0 hshows hentries, List.map_map]
  rfl

theorem quiet_listState : ∀ i ∈ (listState globals items glue).document.descendants 1,
    ((listState globals items glue).node i).isQuiet = true := by
  obtain ⟨_, hcurrent⟩ := node_zero_listState globals items glue
  obtain ⟨_, hloop⟩ := node_one_listState globals items glue
  intro i hi
  have hle := Document.le_of_mem_descendants hi
  match i, hle with
  | 0, _ =>
      rw [hcurrent]
      rfl
  | 1, _ =>
      rw [hloop]
      rfl

theorem result_render_of_loop {text : String} (hitems : ∀ s ∈ items, '\n' ∉ s) (hglue : '\n' ∉ glue)
    (h : (renderNode (.usual loader) 0 1 (listState globals items glue)).1 = .ok text) :
    (Template.render { loader, globals, slots } (.ofList (listPage items glue))).result =
      .ok text := by
  let start := listState globals items glue
  let done := (renderNode (.usual loader) 0 1 start).2
  have hloop : renderNode (.usual loader) 0 1 start = (.ok text, done) := Prod.ext h rfl
  have hk : (start.node 2).kind = .root := rfl
  have hchildren : (start.node 2).children = [1] := rfl
  have hroot : renderNode (.usual loader) 0 2 start = (.ok (text ++ ""), done) :=
    (renderNode_of_root hk hchildren (by decide)).trans
      (sequence_cons hloop (sequence_nil _ _))
  rw [String.append_empty] at hroot
  have hsize : start.document.size = 3 := rfl
  have hquiet : Quiet start done :=
    (renderNode_acts (.usual loader) 0 1 start (by rw [hsize]; decide)).quiet
      (by rw [hsize]; decide) (quiet_listState globals)
  have hlayout : ∀ c ∈ (done.node 2).container, c.layout = none := by
    have hcontainer : (start.node 2).container = some {} := rfl
    rw [hquiet.container (by rw [hsize]; decide), hcontainer]
    rintro c ⟨⟩
    rfl
  exact result_render slots (read_listPage hitems hglue) hroot hlayout

/-- A list of texts in quotes shows the texts, with the glue between neighbours, whatever else the
texts contain but line breaks and closing brackets. -/
theorem result_render_listPage (hitems : ∀ s ∈ items, '\n' ∉ s ∧ ']' ∉ s) (hglue : '\n' ∉ glue) :
    (Template.render { loader, globals, slots } (.ofList (listPage items glue))).result =
      .ok ((String.ofList glue).intercalate (items.map .ofList)) :=
  result_render_of_loop loader globals slots (fun s hs => (hitems s hs).1) hglue
    (renderNode_listState loader globals fun s hs => (hitems s hs).2)

theorem renderNode_listState_of_malformed (h : (Attributes.ofBody BuiltinTag.eachLoop.spec.attributes
    (.ofList (listBody items glue))).toOption = none) :
    (renderNode (.usual loader) 0 1 (listState globals items glue)).1 = .ok "" := by
  obtain ⟨hk, hloop⟩ := loop_listState globals items glue
  have hattributes : ((listState globals items glue).node 1).attributes = {} := by
    rw [hloop, h]
    rfl
  have hentries : (listState globals items glue).loopEntries 1 = [] := by
    rw [RenderState.loopEntries, hattributes]
    rfl
  rw [renderNode_eq, nodeWith_eachLoop _ _ hk, hentries, Node.attributeText, hattributes]
  rfl

end page

/-- Commas, braces, brackets, quotes and backslashes, in two texts and an empty one. -/
theorem result_render_listPage_signs :
    let items := ["a, b".toList, "[\x7b\x22\\x27\x7d".toList, []]
    ((∀ s ∈ items, '\n' ∉ s ∧ ']' ∉ s) ∧ '\n' ∉ "];".toList) ∧
      (Template.render { loader := .ofSources ∅, globals := ∅, slots := ∅ }
        (.ofList (listPage items "];".toList))).result =
          .ok ((String.ofList "];".toList).intercalate (items.map .ofList)) := by
  intro items
  have hitems : ∀ s ∈ items, '\n' ∉ s ∧ ']' ∉ s := by decide
  have hglue : '\n' ∉ "];".toList := by decide
  exact ⟨⟨hitems, hglue⟩, result_render_listPage (.ofSources ∅) ∅ ∅ hitems hglue⟩

/-- A closing bracket in quotes ends the list: of `a]b` nothing is shown. -/
theorem listPage_loses_bracket :
    let items := ["a]b".toList]
    (∀ s ∈ items, '\n' ∉ s) ∧ '\n' ∉ [','] ∧
      (String.ofList [',']).intercalate (items.map .ofList) = "a]b" ∧
      (Template.render { loader := .ofSources ∅, globals := ∅, slots := ∅ }
        (.ofList (listPage items [',']))).result = .ok "" := by
  intro items
  have hitems : ∀ s ∈ items, '\n' ∉ s := by decide
  have hglue : '\n' ∉ [','] := by decide
  have hmalformed : (Attributes.ofBody BuiltinTag.eachLoop.spec.attributes
      (.ofList (listBody items [',']))).toOption = none := by
    rw [← Option.isNone_iff_eq_none]
    decide +kernel
  exact ⟨hitems, hglue, by decide, result_render_of_loop (.ofSources ∅) ∅ ∅ hitems hglue
    (renderNode_listState_of_malformed (.ofSources ∅) ∅ hmalformed)⟩

end Rendering

end TagTemplate
