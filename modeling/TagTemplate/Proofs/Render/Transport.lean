import TagTemplate.Proofs.Body.Around
import TagTemplate.Proofs.Render.Expressions

/-! # Text in quotes goes through unchanged

A text without line breaks can be written in quotes in the body of a tag, with a backslash before
each backslash and each quote of it.  The pattern of the tag ends behind the closing quote, one of
the tokens of the body holds the text, and the text becomes the value of a variable, an argument or
a parameter of a macro.

* `read_bindingPage`, `read_callPage` and `read_macroPage`: the tags of the pages end where they are
  meant to end.
* `result_render_quoted`: a binding, a call and an invocation of a macro show the text. -/

namespace TagTemplate

open Pattern BuiltinTag Piece

/-! ### The pages -/

/-- The page `{#let v=Q}{$v}`, where `Q` is the text in quotes. -/
def bindingPage (q : Char) (s : List Char) : List Char :=
  ['\x7b', '#', 'l', 'e', 't', ' ', 'v', '='] ++ Text.quoted q s ++
    ['\x7d', '\x7b', '$', 'v', '\x7d']

/-- The page `{=concat(Q)}`. -/
def callPage (q : Char) (s : List Char) : List Char :=
  ['\x7b', '=', 'c', 'o', 'n', 'c', 'a', 't', '('] ++ Text.quoted q s ++ [')', '\x7d']

/-- The page `@macro(m){$p}@endmacro@invoke(m p=Q)`. -/
def macroPage (q : Char) (s : List Char) : List Char :=
  ['@', 'm', 'a', 'c', 'r', 'o', '(', 'm', ')', '\x7b', '$', 'p', '\x7d'] ++
    ['@', 'e', 'n', 'd', 'm', 'a', 'c', 'r', 'o'] ++
    ['@', 'i', 'n', 'v', 'o', 'k', 'e', '(', 'm', ' ', 'p', '='] ++ Text.quoted q s ++ [')']

/-- The block `@macro(m){$p}@endmacro`. -/
def showMacro : RawBlock where
  heading := .definition ⟨.plain ⟨['m'], by decide⟩, []⟩
  inside := ['\x7b', '$', 'p', '\x7d']
  opens_not := by decide
  closes_not := by decide

def bindingBody (q : Char) (s : List Char) : List Char :=
  around ['v', '='] q s []

def callBody (q : Char) (s : List Char) : List Char :=
  around ['c', 'o', 'n', 'c', 'a', 't', '('] q s [')']

def invocationBody (q : Char) (s : List Char) : List Char :=
  around ['m', ' ', 'p', '='] q s []

theorem bindingPage_eq (q : Char) (s : List Char) : bindingPage q s =
    binding.text (bindingBody q s) ++ (var.text ['v'] ++ []) := by
  simp [bindingPage, bindingBody, around, text, lead, name]

theorem callPage_eq (q : Char) (s : List Char) : callPage q s =
    expr.text (callBody q s) ++ [] := by
  simp [callPage, callBody, around, text, lead]

theorem macroPage_eq (q : Char) (s : List Char) : macroPage q s =
    showMacro.heading.print ++ (showMacro.inside ++ (showMacro.heading.closing ++
      (invocation.text (invocationBody q s) ++ []))) := by
  have hopen : showMacro.heading.print = ['@', 'm', 'a', 'c', 'r', 'o', '(', 'm', ')'] := by decide
  have hclose : showMacro.heading.closing = ['@', 'e', 'n', 'd', 'm', 'a', 'c', 'r', 'o'] := rfl
  rw [hopen, hclose]
  simp [macroPage, showMacro, invocationBody, around, text, lead, name]

def bindingParts (q : Char) (s : List Char) : List Part :=
  let bound := binding.text (bindingBody q s)
  [TagScanner.leafPart binding bound 0,
    TagScanner.leafPart var (var.text ['v']) (0 + Text.byteLength bound)]

def callParts (q : Char) (s : List Char) : List Part :=
  [TagScanner.leafPart expr (expr.text (callBody q s)) 0]

def macroParts (q : Char) (s : List Char) : List Part :=
  [TagScanner.rawPart showMacro 0,
    TagScanner.leafPart invocation (invocation.text (invocationBody q s))
      (0 + Text.byteLength showMacro.heading.print + Text.byteLength showMacro.inside +
        Text.byteLength showMacro.heading.closing)]

section reading
variable {q : Char} {s : List Char} (hq : q = '"' ∨ q = '\'') (hs : '\n' ∉ s)

theorem reads_letter {c : Char} (hc : isWord [c] = true) :
    var.opener.Reads (var.text [c]) :=
  reads_text (t := var) hc

include hq hs

theorem reads_binding : binding.opener.Reads (binding.text (bindingBody q s)) := by
  refine reads_hash (.inl rfl)
    (repeats_around hq hs ?_ (repeats_of_isCalm (List.all_eq_true.mp ?_)) .nil)
  · rcases hq with rfl | rfl <;> decide
  · decide

theorem reads_call : expr.opener.Reads (expr.text (callBody q s)) := by
  refine reads_body (repeats_around hq hs ?_ (repeats_of_isCalm (List.all_eq_true.mp ?_))
    (repeats_of_isCalm (List.all_eq_true.mp ?_)))
  · rcases hq with rfl | rfl <;> decide
  · decide
  · decide

theorem reads_invocation :
    invocation.opener.Reads (invocation.text (invocationBody q s)) := by
  refine reads_directive
    (repeats_around hq hs ?_ (repeats_of_isPlain (List.all_eq_true.mp ?_)) .nil)
  · rcases hq with rfl | rfl <;> decide
  · decide

theorem read_bindingPage :
    TagScanner.builtin.read (.ofList (bindingPage q s)) = { parts := bindingParts q s } := by
  have hl := TagScanner.located_toArray 0 (bindingPage q s)
  rw [bindingPage_eq] at hl
  have hfirst := TagScanner.opensAt_of_reads (reads_binding hq hs) hl.remains
  have hsecond := TagScanner.opensAt_of_reads (reads_letter (by decide)) hl.pass.remains
  rw [TagScanner.read, String.toList_ofList, bindingPage_eq, hl.readFrom_leaf hfirst rfl,
    hl.pass.readFrom_leaf hsecond rfl, hl.pass.pass.readFrom_nil]
  rfl

theorem read_callPage :
    TagScanner.builtin.read (.ofList (callPage q s)) = { parts := callParts q s } := by
  have hl := TagScanner.located_toArray 0 (callPage q s)
  rw [callPage_eq] at hl
  have hfirst := TagScanner.opensAt_of_reads (reads_call hq hs) hl.remains
  rw [TagScanner.read, String.toList_ofList, callPage_eq, hl.readFrom_leaf hfirst rfl,
    hl.pass.readFrom_nil]
  rfl

theorem read_macroPage :
    TagScanner.builtin.read (.ofList (macroPage q s)) = { parts := macroParts q s } := by
  have hl := TagScanner.located_toArray 0 (macroPage q s)
  rw [macroPage_eq] at hl
  have hinvocation := hl.pass.pass.pass
  have hsecond := TagScanner.opensAt_of_reads (reads_invocation hq hs) hinvocation.remains
  rw [TagScanner.read, String.toList_ofList, macroPage_eq, hl.readFrom_raw showMacro]
  dsimp only
  rw [hinvocation.readFrom_leaf hsecond rfl, hinvocation.pass.readFrom_nil]
  rfl

omit hq hs in
theorem read_inside : TagScanner.builtin.read (.ofList showMacro.inside) =
    { parts := [TagScanner.leafPart var (var.text ['p']) 0] } := by
  have hl := TagScanner.located_toArray 0 (var.text ['p'] ++ [])
  have hfirst := TagScanner.opensAt_of_reads (reads_letter (by decide)) hl.remains
  have htext : showMacro.inside = var.text ['p'] ++ [] := rfl
  rw [TagScanner.read, String.toList_ofList, htext, hl.readFrom_leaf hfirst rfl,
    hl.pass.readFrom_nil]

end reading

/-! ### The nodes of the pages -/

section nodes
variable {q : Char} {s : List Char} (hq : q = '"' ∨ q = '\'') (n start : Nat)

theorem attributes_letter {c : Char} (hc : isWord [c] = true) (hword : Token.isWordPart c = true)
    (hdash : c ≠ '-') : (Part.own n (TagScanner.leafPart var (var.text [c]) start)).attributes =
      { name := some (.ofList [c]) } := by
  show (Attributes.ofBody var.spec.attributes
    (.ofList (var.spec.body {} (var.text [c])))).toOption.getD {} = _
  rw [body_text (t := var) hc, Attributes.ofBody_name (by decide) hc hword hdash]
  rfl

theorem attributes_showMacro :
    (Part.own n (TagScanner.rawPart showMacro start)).attributes = { name := some "m" } := by
  show (Attributes.ofBody definition.spec.attributes (.ofList ['m'])).toOption.getD {} = _
  rw [Attributes.ofBody_name (by decide) (by decide) (by decide) (by decide)]
  rfl

include hq

theorem expression_call :
    (Part.own n (TagScanner.leafPart expr (expr.text (callBody q s))
      start)).attributes.expression.getD "" = .ofList (callBody q s) := by
  have htidy : isTidy (callBody q s) = true := isTidy_around hq rfl rfl
  have hbody : expr.spec.body {} (expr.text (callBody q s)) = callBody q s :=
    (body_braces (toList_lead expr) htidy).1
  refine (Rendering.expression_ofTag _ _ _ _).trans ?_
  rw [hbody, trim_of_isTidy htidy]

theorem attributes_binding :
    (Part.own n (TagScanner.leafPart binding (binding.text (bindingBody q s)) start)).attributes =
      { pairs := [("v", .quoted (.ofList s))] } := by
  have hbody : binding.spec.body {} (binding.text (bindingBody q s)) = bindingBody q s :=
    (body_braces (toList_lead binding) (isTidy_around hq rfl rfl)).2
  show (Attributes.ofBody binding.spec.attributes
    (.ofList (binding.spec.body {} (binding.text (bindingBody q s))))).toOption.getD {} = _
  rw [hbody, bindingBody, Attributes.ofBody_pair hq (by decide) (by decide) (by decide)
    (by decide)]
  rfl

theorem attributes_invocation :
    (Part.own n (TagScanner.leafPart invocation (invocation.text (invocationBody q s))
      start)).attributes = { name := some "m", pairs := [("p", .quoted (.ofList s))] } := by
  have hbody : invocation.spec.body {} (invocation.text (invocationBody q s)) =
      invocationBody q s :=
    body_directive (toList_lead invocation) (isTidy_around hq rfl rfl)
  show (Attributes.ofBody invocation.spec.attributes
    (.ofList (invocation.spec.body {} (invocation.text (invocationBody q s))))).toOption.getD {} = _
  rw [hbody, invocationBody, Attributes.ofBody_name_pair hq (by decide) (by decide) (by decide)
    (by decide) (by decide) (by decide)]
  rfl

end nodes

/-! ### What the pages show -/

namespace Rendering

section pages
variable {q : Char} {s : List Char} (hq : q = '"' ∨ q = '\'') (hs : '\n' ∉ s)
  (loader : Loader) (globals : Scope) (slots : NameMap String)
include hq hs

theorem result_render_bindingPage :
    (Template.render { loader, globals, slots } (.ofList (bindingPage q s))).result =
      .ok (.ofList s) := by
  have hread := read_bindingPage hq hs
  let start := pageState globals (.ofList (bindingPage q s)) (bindingParts q s)
  let bound := start.through 0 fun t =>
    t.assign 0 ⟨"v", start.attributeValue 0 (.quoted (.ofList s)), false⟩
  have hsize : start.document.size = 3 := rfl
  have hdocument : bound.document = start.document.bind 2 "v" (.text (.ofList s)) :=
    RenderState.document_through_assign rfl
  have hnode : bound.node 1 = start.node 1 := by
    rw [RenderState.node, hdocument]
    exact Document.node_update_of_ne _ _ (by decide)
  have hbinding : renderNode (.usual loader) 0 0 start = (.ok "", bound) := by
    have hk : (start.node 0).kind = .binding := rfl
    have hattributes : (start.node 0).attributes = { pairs := [("v", .quoted (.ofList s))] } :=
      attributes_binding hq 0 0
    refine renderNode_of_pair_alone hk ?_ (by decide)
    rw [hattributes]
  have hreference : renderNode (.usual loader) 0 1 bound =
      (.ok (.ofList s), bound.through 1 fun t => t) := by
    have hname : (start.node 1).attributes = { name := some "v" } :=
      attributes_letter 0 0 (by decide) (by decide) (by decide)
    have hsize' : 2 ≤ bound.document.size := by
      rw [hdocument, Document.bind, Document.size_update, hsize]
      decide
    have hv : (bound.node 2).scope.get? "v" = some (.text (.ofList s)) := by
      rw [RenderState.node, hdocument]
      exact Document.get?_scope_bind (by rw [hsize]; decide) _ _
    refine renderNode_of_bound ?_ ?_ hsize' ?_ ?_ hv rfl
    · rw [hnode]
      rfl
    · rw [hnode, hname]
    · rw [hnode]
      rfl
    · rw [hnode]
      rfl
  have hroot : renderNode (.usual loader) 0 2 start =
      (.ok (.ofList s), bound.through 1 fun t => t) := by
    have hk : (start.node 2).kind = .root := rfl
    have hchildren : (start.node 2).children = [0, 1] := rfl
    have htexts := sequence_cons hbinding (sequence_cons hreference (sequence_nil _ _))
    have htext : "" ++ (String.ofList s ++ "") = .ofList s := by simp
    rw [htext] at htexts
    exact (renderNode_of_root hk hchildren (by decide)).trans htexts
  have hlayout : ∀ c ∈ ((bound.through 1 fun t => t).node 2).container, c.layout = none := by
    have hcontainer : (start.node 2).container = some {} := rfl
    rw [RenderState.through, RenderState.node_report, RenderState.node_report, RenderState.node,
      hdocument, Document.container_bind, ← RenderState.node, hcontainer]
    rintro c ⟨⟩
    rfl
  exact result_render slots hread hroot hlayout

omit hs in
theorem evaluate_callBody (lookup : String → Option Value) :
    Expression.evaluate Function.builtins lookup (.ofList (callBody q s)) =
      { result := .ok { value := .text (.ofList s) }
        events := [(.sent, "concat"), (.received, "concat")] } := by
  have htokens : tokens? (callBody q s) =
      some [.word "concat", .parenOpen, quotedToken q s, .parenClose] :=
    tokens?_call (w := ['o', 'n', 'c', 'a', 't']) hq (by decide) (by decide)
      (List.all_eq_true.mp (by decide))
  have hparse : (Expression.parse (.ofList (callBody q s))).toOption =
      some { function := some "concat", arguments := [.literal (.text (.ofList s))] } := by
    rw [Expression.toOption_parse, String.toList_ofList, htokens, Option.bind_some,
      Expression.ofTokens?_call _ (argument_quotedToken q s)]
  have hvalue : Function.concat [.text (.ofList s)] = .ok (.text (.ofList s)) := by
    have hjoin : String.join [String.ofList s] = .ofList s := by
      simp
    rw [Function.concat, List.map_singleton, Value.display, hjoin]
  exact Expression.evaluate_of_call hparse rfl hvalue

theorem result_render_callPage :
    (Template.render { loader, globals, slots } (.ofList (callPage q s))).result =
      .ok (.ofList s) := by
  have hread := read_callPage hq hs
  let start := pageState globals (.ofList (callPage q s)) (callParts q s)
  let called := start.through 0 fun t => t.reports 0 [(.sent, "concat"), (.received, "concat")]
  have hcall : renderNode (.usual loader) 0 0 start = (.ok (.ofList s), called) := by
    have hk : (start.node 0).kind = .expression := rfl
    have hexpression : (start.node 0).attributes.expression.getD "" = .ofList (callBody q s) :=
      expression_call hq 0 0
    rw [renderNode_of_expression 0 hk, hexpression]
    have hlife : hasLifecycle (start.node 0).kind = true := by rw [hk]; rfl
    have hvalue : Expression.evaluate (Environment.usual loader).toolkit.functions
        (start.lookup? 0) (.ofList (callBody q s)) =
          { result := .ok { value := .text (.ofList s) }
            events := [(.sent, "concat"), (.received, "concat")] } :=
      evaluate_callBody hq (start.lookup? 0)
    exact shown_of_value hlife hvalue
  have hroot : renderNode (.usual loader) 0 1 start = (.ok (.ofList s), called) := by
    have hk : (start.node 1).kind = .root := rfl
    have hchildren : (start.node 1).children = [0] := rfl
    have htexts := sequence_cons hcall (sequence_nil _ _)
    have htext : String.ofList s ++ "" = .ofList s := by simp
    rw [htext] at htexts
    exact (renderNode_of_root hk hchildren (by decide)).trans htexts
  have hlayout : ∀ c ∈ (called.node 1).container, c.layout = none := by
    have hcontainer : (start.node 1).container = some {} := rfl
    have hnode : called.node 1 = start.node 1 :=
      (RenderState.node_report _ 0 .complete "" 1).trans
        ((RenderState.node_reports 0 _ 1 _).trans (RenderState.node_report start 0 .started "" 1))
    rw [hnode, hcontainer]
    rintro c ⟨⟩
    rfl
  exact result_render slots hread hroot hlayout

/-- The fragment of the macro, where the parameter is the text. -/
def insideNodes (s : List Char) (n parent : Nat) (paths : SearchPaths) (span : Span) : List Node :=
  Part.fragment (Node.prepared Preparer.builtins
      ⟨some parent, .ofList [("p", .text (.ofList s))], paths, true⟩) n (some parent)
    [TagScanner.leafPart BuiltinTag.var (BuiltinTag.var.text ['p']) 0] span

omit hq hs in
theorem renderNode_insideNodes {t u : RenderState} {n depth parent : Nat} {paths : SearchPaths}
    {span : Span} (hn : t.document.size = n) (hu : u = t.grow (insideNodes s n parent paths span)) :
    renderNode (.usual loader) depth (n + 1) u = (.ok (.ofList s), u.through n fun t => t) := by
  subst hn hu
  let u := t.grow (insideNodes s t.document.size parent paths span)
  let around : Surroundings := ⟨some parent, .ofList [("p", .text (.ofList s))], paths, true⟩
  let reference := Node.prepared Preparer.builtins around (some (t.document.size + 1))
    (Part.own t.document.size
      (TagScanner.leafPart BuiltinTag.var (BuiltinTag.var.text ['p']) 0))
  let root := Node.prepared Preparer.builtins around (some parent)
    (Node.root [t.document.size] span)
  have hreference : u.node t.document.size = reference :=
    Document.node_append_right (i := 0) rfl
  have hroot : u.node (t.document.size + 1) = root :=
    Document.node_append_right (i := 1) rfl
  have hshown : renderNode (.usual loader) depth t.document.size u =
      (.ok (.ofList s), u.through t.document.size fun t => t) := by
    have hname : reference.attributes = { name := some "p" } :=
      attributes_letter t.document.size 0 (by decide) (by decide) (by decide)
    have hsize : 2 ≤ u.document.size := by
      show 2 ≤ (t.document.append _).size
      rw [Document.size_append]
      exact Nat.le_add_left 2 _
    have hv : (u.node (t.document.size + 1)).scope.get? "p" = some (.text (.ofList s)) := by
      rw [hroot]
      rfl
    refine renderNode_of_bound ?_ ?_ hsize ?_ ?_ hv rfl
    · rw [hreference]
      rfl
    · rw [hreference, hname]
    · rw [hreference]
      rfl
    · rw [hreference]
      rfl
  have hk : (u.node (t.document.size + 1)).kind = .root := by
    rw [hroot]
    rfl
  have hchildren : (u.node (t.document.size + 1)).children = [t.document.size] := by
    rw [hroot]
    rfl
  have hlt : ∀ c ∈ [t.document.size], c < t.document.size + 1 := by
    simp
  have htexts := sequence_cons hshown (sequence_nil _ _)
  have htext : String.ofList s ++ "" = .ofList s := by simp
  rw [htext] at htexts
  exact (renderNode_of_root hk hchildren hlt).trans htexts

/-- The macro that shows its parameter. -/
def showing : MacroDefinition where
  parameters := ∅
  body := .ofList showMacro.inside

/-- The state in which the page with the macro begins. -/
def macroStart (globals : Scope) (q : Char) (s : List Char) : RenderState :=
  pageState globals (.ofList (macroPage q s)) (macroParts q s)

/-- The state after the definition of the macro. -/
def macroDefined (globals : Scope) (q : Char) (s : List Char) : RenderState :=
  (macroStart globals q s).through 0 fun t => t.define "m" showing

/-- The state when the fragment of the macro is built, after the three nodes of the page. -/
def macroBuilt (globals : Scope) (q : Char) (s : List Char) : RenderState :=
  ((macroDefined globals q s).report 1 .started "").grow
    (insideNodes s 3 1 ((macroDefined globals q s).node 1).paths
      ⟨0, (String.ofList showMacro.inside).utf8ByteSize⟩)

/-- The state after the invocation of the macro. -/
def macroInvoked (globals : Scope) (q : Char) (s : List Char) : RenderState :=
  ((macroBuilt globals q s).through 3 fun t => t).report 1 .complete ""

omit hq hs in
theorem document_macroDefined :
    (macroDefined globals q s).document = (macroStart globals q s).document :=
  RenderState.document_through_define (macroStart globals q s) 0 "m" showing

omit hq hs in
theorem node_macroDefined (i : Nat) :
    (macroDefined globals q s).node i = (macroStart globals q s).node i := by
  rw [RenderState.node, document_macroDefined, RenderState.node]

omit hq hs in
theorem size_macroDefined : (macroDefined globals q s).document.size = 3 := by
  rw [document_macroDefined]
  rfl

omit hq hs in
theorem renderNode_showMacro :
    renderNode (.usual loader) 0 0 (macroStart globals q s) =
      (.ok "", macroDefined globals q s) := by
  have hk : ((macroStart globals q s).node 0).kind = .definition := rfl
  have hname : ((macroStart globals q s).node 0).attributes = { name := some "m" } :=
    attributes_showMacro 0 0
  have hkept : ((macroStart globals q s).node 0).toMacro = showing := by
    rw [Node.toMacro, hname]
    rfl
  have hgiven : ((macroStart globals q s).node 0).attributes.name = some "m" := by
    rw [hname]
  rw [macroDefined, ← hkept]
  exact renderNode_of_definition hk hgiven

omit hs in
theorem renderNode_showCall :
    renderNode (.usual loader) 0 1 (macroDefined globals q s) =
      (.ok (.ofList s), macroInvoked globals q s) := by
  have hk : ((macroDefined globals q s).node 1).kind = .invocation := by
    rw [node_macroDefined]
    rfl
  have hattributes : ((macroDefined globals q s).node 1).attributes =
      { name := some "m", pairs := [("p", .quoted (.ofList s))] } := by
    rw [node_macroDefined]
    exact attributes_invocation hq 0 0
  have hmacro : (macroDefined globals q s).macros.get?
      ((macroDefined globals q s).node 1).givenName = some showing := by
    rw [Node.givenName, hattributes]
    exact RenderState.get?_macros_through_define (macroStart globals q s) 0 "m" showing
  have hdepth : 0 < ({} : Settings).maxDepth := by decide
  have harguments : showing.parameters.extend ((macroDefined globals q s).arguments 1) =
      .ofList [("p", .text (.ofList s))] := by
    unfold RenderState.arguments
    rw [hattributes]
    rfl
  have hinside : renderNode (.usual loader) 1 4 (macroBuilt globals q s) =
      (.ok (.ofList s), (macroBuilt globals q s).through 3 fun t => t) := by
    refine renderNode_insideNodes loader ?_ rfl
    rw [RenderState.report_document, size_macroDefined]
  refine renderNode_of_invocation hk hmacro hdepth read_inside ?_
  rw [harguments, size_macroDefined]
  exact hinside

omit hq hs in
theorem node_macroInvoked : (macroInvoked globals q s).node 2 = (macroStart globals q s).node 2 := by
  have hgrown : (macroBuilt globals q s).node 2 = (macroStart globals q s).node 2 := by
    rw [← node_macroDefined, ← RenderState.node_report (macroDefined globals q s) 1 .started "" 2]
    refine Document.node_append_left ?_
    rw [RenderState.report_document, size_macroDefined]
    decide
  rw [macroInvoked, RenderState.node_report, RenderState.through, RenderState.node_report,
    RenderState.node_report, hgrown]

omit hs in
theorem renderNode_macroPage :
    renderNode (.usual loader) 0 2 (macroStart globals q s) =
      (.ok (.ofList s), macroInvoked globals q s) := by
  have hk : ((macroStart globals q s).node 2).kind = .root := rfl
  have hchildren : ((macroStart globals q s).node 2).children = [0, 1] := rfl
  have hdefinition := renderNode_showMacro (q := q) (s := s) loader globals
  have hinvocation := renderNode_showCall (s := s) hq loader globals
  have htexts := sequence_cons hdefinition (sequence_cons hinvocation (sequence_nil _ _))
  have htext : "" ++ (String.ofList s ++ "") = .ofList s := by simp
  rw [htext] at htexts
  exact (renderNode_of_root hk hchildren (by decide)).trans htexts

omit hq hs in
theorem layout_macroInvoked :
    ∀ c ∈ ((macroInvoked globals q s).node 2).container, c.layout = none := by
  have hcontainer : ((macroStart globals q s).node 2).container = some {} := rfl
  rw [node_macroInvoked, hcontainer]
  rintro c ⟨⟩
  rfl

/-- An invocation with the text as a parameter of the macro shows it. -/
theorem result_render_macroPage :
    (Template.render { loader, globals, slots } (.ofList (macroPage q s))).result =
      .ok (.ofList s) :=
  result_render slots (read_macroPage hq hs) (renderNode_macroPage hq loader globals)
    (layout_macroInvoked globals)

end pages

/-- A text without line breaks goes through unchanged when it is put in quotes: as the value of a
variable, as the argument of a call and as a parameter of a macro. -/
theorem result_render_quoted {q : Char} (hq : q = '"' ∨ q = '\'') {s : String}
    (hs : '\n' ∉ s.toList) (loader : Loader) (globals : Scope) (slots : NameMap String) :
    let template : Template := { loader, globals, slots }
    (template.render (.ofList (bindingPage q s.toList))).result = .ok s ∧
      (template.render (.ofList (callPage q s.toList))).result = .ok s ∧
      (template.render (.ofList (macroPage q s.toList))).result = .ok s := by
  have hbinding := result_render_bindingPage hq hs loader globals slots
  have hcall := result_render_callPage hq hs loader globals slots
  have hmacro := result_render_macroPage hq hs loader globals slots
  rw [String.ofList_toList] at hbinding hcall hmacro
  exact ⟨hbinding, hcall, hmacro⟩

/-- A text with a closing tag, delimiters, both quotes, and a backslash at its end. -/
theorem result_render_quoted_awkward :
    let s := "@endmacro\x7d)\x7b=x(\"'\\"
    let template : Template := { loader := .ofSources ∅ }
    '\n' ∉ s.toList ∧ (template.render (.ofList (bindingPage '\'' s.toList))).result = .ok s ∧
      (template.render (.ofList (callPage '\'' s.toList))).result = .ok s ∧
      (template.render (.ofList (macroPage '\'' s.toList))).result = .ok s := by
  have hs : '\n' ∉ "@endmacro\x7d)\x7b=x(\"'\\".toList := by decide
  exact ⟨hs, result_render_quoted (.inr rfl) hs (.ofSources ∅) ∅ ∅⟩

end Rendering

end TagTemplate
