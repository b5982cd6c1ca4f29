import TagTemplate.Proofs.Body.Calls
import TagTemplate.Proofs.Render.Leaves
import TagTemplate.Proofs.Render.Pages
import TagTemplate.Proofs.Scanning.Adjacent

/-! # Expressions in tags

A tag between delimiters that begins with an equals sign evaluates the expression in it.  On the
way from the tag to the evaluation white space is taken away at both ends, and then one pair of
parentheses around the rest.  An expression may begin with a parenthesis of its own.

* `renderNode_of_expression`: a node of an expression evaluates what its attributes hold.
* `renderNode_expressionTag`: the tag evaluates the expression written in it, unless that is in
  parentheses as a whole; then it evaluates what stands in them, which is no expression.
* `expressionTag_loses_parentheses`: a tag that shows nothing, though its expression has a value. -/

namespace TagTemplate

theorem Expression.evaluate_of_call {functions : NameMap Function} {lookup : String → Option Value}
    {source name : String} {arguments : List Argument} {f : Function} {v : Value}
    (hx : (parse source).toOption = some { function := some name, arguments })
    (hf : functions.get? name = some f) (hv : f (arguments.map (argumentValue lookup)) = .ok v) :
    evaluate functions lookup source =
      { result := .ok { value := v }, events := [(.sent, name), (.received, name)] } := by
  rw [evaluate, eq_ok_of_toOption hx]
  dsimp only [run]
  rw [hf]
  dsimp only
  rw [hv]
  rfl

namespace Rendering

/-- What an expression evaluates to at a node, with all that follows from it.  A value that is
assigned is not shown. -/
def evaluated (env : Environment) (id : Nat) (source : String) : Rendering Value := do
  let s ← get
  let result ← carryOut id (Expression.evaluate env.toolkit.functions (s.lookup? id) source)
  return if result.assigned.isSome then .null else result.value

/-- The text of a node that shows what an expression evaluates to. -/
def shown (env : Environment) (id : Nat) (source : String) : Rendering String :=
  withLifecycle id do return (← evaluated env id source).display

section node
variable {env : Environment} {id : Nat} {s : RenderState}

theorem shown_congr {a b : String}
    (h : ∀ lookup, Expression.evaluate env.toolkit.functions lookup a =
      Expression.evaluate env.toolkit.functions lookup b) :
    shown env id a = shown env id b := by
  unfold shown evaluated
  simp only [h]

theorem renderNode_of_expression (depth : Nat) (hk : (s.node id).kind = .expression) :
    renderNode env depth id s =
      shown env id ((s.node id).attributes.expression.getD "") s := by
  have hlife : hasLifecycle (s.node id).kind = true := by rw [hk]; rfl
  let start := s.report id .started ""
  have hnode : start.node id = s.node id := by
    rw [RenderState.node, RenderState.report_document]
    rfl
  have hrule : rule env id (held (renderNode env depth) id) (deeper env depth)
      (NodeKind.dispatch .expression) start =
        (do return (← evaluated env id ((s.node id).attributes.expression.getD "")).display :
          Rendering String) start := by
    show (do return (← expression env id).display : Rendering String) start = _
    rw [bind_apply, bind_apply, expression, evaluated, bind_of_ok (get_apply start),
      bind_of_ok (get_apply start), hnode]
  rw [renderNode_eq, nodeWith, bind_of_ok (node_apply id s), withLifecycle_apply _ hlife, shown,
    withLifecycle_apply _ hlife, hk, bind_apply, hrule, ← bind_apply]

/-- An expression whose value is not assigned is shown by its value. -/
theorem shown_of_value {source : String} {v : Value} {events : List (EventKind × String)}
    (hlife : hasLifecycle (s.node id).kind = true)
    (h : Expression.evaluate env.toolkit.functions (s.lookup? id) source =
      { result := .ok { value := v }, events }) :
    shown env id source s = (.ok v.display, s.through id fun t => t.reports id events) := by
  have hlookup : (s.report id .started "").lookup? id = s.lookup? id :=
    funext (RenderState.lookup?_report s id .started "" id)
  have hvalue : evaluated env id source (s.report id .started "") =
      (.ok v, (s.report id .started "").reports id events) := by
    rw [evaluated, bind_of_ok (get_apply _), hlookup, h, carryOut, bind_assoc,
      bind_of_ok (forIn_report id events _)]
    rfl
  have hshown : (do return (← evaluated env id source).display : Rendering String)
      (s.report id .started "") = (.ok v.display, (s.report id .started "").reports id events) :=
    bind_of_ok hvalue
  rw [shown, withLifecycle_apply _ hlife, bind_of_ok hshown,
    bind_of_ok (report_apply id .complete "" _)]
  rfl

end node

/-! ### From the tag to the evaluation -/

/-- What a tag evaluates, where a text stands between its delimiters. -/
def tagSource (e : List Char) : List Char :=
  Text.trim (withoutParentheses (Text.trim e))

/-- The text stands in parentheses. -/
def InParentheses (s : List Char) : Prop :=
  ∃ inside, s = '(' :: (inside ++ [')'])

theorem withoutParentheses_of_not {s : List Char} (h : ¬ InParentheses s) :
    withoutParentheses s = s := by
  rcases withoutParentheses_cases s with hs | ⟨inside, hs, -⟩
  · exact hs
  · exact absurd ⟨inside, hs⟩ h

/-- The expression of a node is the body of its tag, without white space around it. -/
theorem expression_ofTag (b : List Char) (content : Content) (source : Option String)
    (span : Span) :
    (Node.ofTag BuiltinTag.expr.spec (.ofList b) content source span).attributes.expression.getD ""
      = .ofList (Text.trim b) := by
  have hbody : Attributes.ofBody BuiltinTag.expr.spec.attributes (.ofList b) =
      .ok { expression := if Text.trimmed (.ofList b) = "" then none
        else some (Text.trimmed (.ofList b)) } := rfl
  have htrimmed : Text.trimmed (.ofList b) = .ofList (Text.trim b) := by
    rw [Text.trimmed, String.toList_ofList]
  rw [Node.ofTag, hbody, htrimmed]
  show (if String.ofList (Text.trim b) = "" then none else some (String.ofList (Text.trim b))).getD ""
    = _
  split
  · next h => rw [h]; rfl
  · rfl

/-- An expression that is not in parentheses and has no white space around it but blanks is
evaluated as it is. -/
theorem evaluate_tagSource {functions : NameMap Function} {e : List Char} {x : Expression}
    (hx : Expression.parse (.ofList e) = .ok x)
    (hspace : Text.trim e = Text.strip Token.isBlank e) (hnot : ¬ InParentheses (Text.trim e))
    (lookup : String → Option Value) :
    Expression.evaluate functions lookup (.ofList (tagSource e)) =
      Expression.evaluate functions lookup (.ofList e) := by
  have htwice : Text.trim (Text.trim e) = Text.trim e := Text.strip_strip _ e
  have hparse : (Expression.parse (.ofList (Text.trim e))).toOption = some x := by
    rw [hspace, Expression.toOption_parse_strip, hx]
    rfl
  rw [tagSource, withoutParentheses_of_not hnot, htwice, Expression.evaluate, Expression.evaluate,
    Expression.eq_ok_of_toOption hparse, hx]

/-- Of an expression in parentheses that has no white space in them but blanks, what is evaluated
is no expression. -/
theorem evaluate_tagSource_inside {functions : NameMap Function} {e inside : List Char}
    {x : Expression} (hx : Expression.parse (.ofList e) = .ok x)
    (hspace : Text.trim e = Text.strip Token.isBlank e)
    (hin : Text.trim e = '(' :: (inside ++ [')']))
    (hspace' : Text.trim inside = Text.strip Token.isBlank inside)
    (lookup : String → Option Value) : ∃ errors,
      Expression.evaluate functions lookup (.ofList (tagSource e)) =
        { result := .ok {}
          events := [(.error, (EvalError.malformed (.ofList (tagSource e)) errors).display)] } := by
  have hsource : tagSource e = Text.strip Token.isBlank inside := by
    have htwice : Text.trim (Text.trim inside) = Text.trim inside := Text.strip_strip _ inside
    rw [tagSource, hin, withoutParentheses_inside, htwice, hspace']
  have hparse : (Expression.parse (.ofList ('(' :: (inside ++ [')'])))).toOption = some x := by
    rw [← hin, hspace, Expression.toOption_parse_strip, hx]
    rfl
  have hnone : (Expression.parse (.ofList (tagSource e))).toOption = none := by
    rw [hsource, Expression.toOption_parse_strip]
    exact Expression.toOption_parse_inside hparse
  cases herrors : Expression.parse (.ofList (tagSource e)) with
  | ok y =>
      rw [herrors] at hnone
      cases hnone
  | error errors =>
      refine ⟨errors, ?_⟩
      rw [Expression.evaluate, herrors]

/-- A tag with an expression is read as one node.  Rendering that node evaluates the expression, if
it is not in parentheses as a whole.  If it is, what is evaluated is malformed. -/
theorem renderNode_expressionTag {e : List Char} (hline : '\n' ∉ e) (hbrace : '\x7d' ∉ e)
    (d : Document) : ∃ d' root id,
      d.readFragment TagScanner.builtin (.ofList (expressionText e)) = (d', .ok root) ∧
      (d'.node root).children = [id] ∧
      ∀ (env : Environment) (depth i : Nat) (s : RenderState),
        (s.node i).kind = (d'.node id).kind → (s.node i).attributes = (d'.node id).attributes →
          renderNode env depth i s = shown env i (.ofList (tagSource e)) s ∧
          ∀ x, Expression.parse (.ofList e) = .ok x → Text.trim e = Text.strip Token.isBlank e →
            (¬ InParentheses (Text.trim e) →
              renderNode env depth i s = shown env i (.ofList e) s) ∧
            ∀ inside, Text.trim e = '(' :: (inside ++ [')']) →
              Text.trim inside = Text.strip Token.isBlank inside → ∀ lookup, ∃ errors,
                Expression.evaluate env.toolkit.functions lookup (.ofList (tagSource e)) =
                  { result := .ok {}
                    events := [(.error,
                      (EvalError.malformed (.ofList (tagSource e)) errors).display)] } := by
  have hread := read_expressionText hline hbrace
  let node := Part.own d.size (TagScanner.leafPart BuiltinTag.expr (expressionText e) 0)
  let root := Node.root [d.size] ⟨0, (String.ofList (expressionText e)).utf8ByteSize⟩
  let d' := d.append [node, root]
  have hfragment : d.readFragment TagScanner.builtin (.ofList (expressionText e)) =
      (d', .ok (d.size + 1)) := by
    have h := d.readFragment_of_no_errors none (congrArg Reading.errors hread)
    rw [hread] at h
    exact h
  have hroot : (d'.node (d.size + 1)).children = [d.size] := by
    have h : d'.node (d.size + 1) = root := Document.node_append_right rfl
    rw [h]
    rfl
  have hnode : d'.node d.size = node := Document.node_append_right (i := 0) rfl
  refine ⟨d', d.size + 1, d.size, hfragment, hroot, fun env depth i s hkind hattributes => ?_⟩
  rw [hnode] at hkind hattributes
  have hrender : renderNode env depth i s = shown env i (.ofList (tagSource e)) s := by
    rw [renderNode_of_expression depth hkind, hattributes]
    have hsource : node.attributes.expression.getD "" = .ofList (tagSource e) := by
      refine (expression_ofTag _ _ _ _).trans ?_
      rw [body_expressionText, tagSource]
    rw [hsource]
  refine ⟨hrender, fun x hx hspace => ⟨fun hnot => ?_, fun inside hin hspace' lookup => ?_⟩⟩
  · rw [hrender]
    exact congrFun (shown_congr (evaluate_tagSource hx hspace hnot)) s
  · exact evaluate_tagSource_inside hx hspace hin hspace' lookup

/-- The expression `upper('hi') -> shout`, with blanks around it. -/
def shoutSource : List Char :=
  [' ', 'u', 'p', 'p', 'e', 'r', '(', '\'', 'h', 'i', '\'', ')', '-', '>', 's', 'h', 'o', 'u', 't',
    ' ']

/-- A tag with that expression evaluates it. -/
theorem renderNode_expressionTag_shoutSource :
    let env : Environment := .usual (.ofSources ∅)
    ∃ x d' root id, '\n' ∉ shoutSource ∧ '\x7d' ∉ shoutSource ∧
      Expression.parse (.ofList shoutSource) = .ok x ∧
      Text.trim shoutSource = Text.strip Token.isBlank shoutSource ∧
      ¬ InParentheses (Text.trim shoutSource) ∧
      (∅ : Document).readFragment TagScanner.builtin (.ofList (expressionText shoutSource)) =
        (d', .ok root) ∧ (d'.node root).children = [id] ∧
      renderNode env 0 id { document := d' } =
        shown env id (.ofList shoutSource) { document := d' } := by
  have hline : '\n' ∉ shoutSource := by decide
  have hbrace : '\x7d' ∉ shoutSource := by decide
  have hspace : Text.trim shoutSource = Text.strip Token.isBlank shoutSource := by decide +kernel
  have hnot : ¬ InParentheses (Text.trim shoutSource) := by
    rintro ⟨inside, h⟩
    have hhead : (Text.trim shoutSource).head? = some 'u' := by decide +kernel
    rw [h] at hhead
    cases hhead
  have haccepted : (Expression.parse (.ofList shoutSource)).toOption.isSome = true := by
    decide +kernel
  obtain ⟨x, hx⟩ := Option.isSome_iff_exists.mp haccepted
  have hx := Expression.eq_ok_of_toOption hx
  obtain ⟨d', root, id, hread, hchildren, hrender⟩ := renderNode_expressionTag hline hbrace ∅
  have htag := (hrender (.usual (.ofSources ∅)) 0 id { document := d' } rfl rfl).2 x hx hspace
  exact ⟨x, d', root, id, hline, hbrace, hx, hspace, hnot, hread, hchildren, htag.1 hnot⟩

/-- The expression `('hi')`, whose value is its first argument. -/
def greetingSource : List Char :=
  ['(', '\'', 'h', 'i', '\'', ')']

/-- The state in which a page is rendered that is a tag with that expression. -/
def greetingState : RenderState :=
  pageState ∅ (.ofList (expressionText greetingSource))
    [TagScanner.leafPart BuiltinTag.expr (expressionText greetingSource) 0]

/-- A tag with that expression shows nothing, though the expression has a value. -/
theorem expressionTag_loses_parentheses :
    let env : Environment := .usual (.ofSources ∅)
    '\n' ∉ greetingSource ∧ '\x7d' ∉ greetingSource ∧
      (Expression.parse (.ofList greetingSource)).toOption.isSome = true ∧
      (shown env 0 (.ofList greetingSource) greetingState).1.toOption = some "hi" ∧
      (renderNode env 0 0 greetingState).1.toOption = some "" ∧
      (Template.render { loader := env.loader }
        (.ofList (expressionText greetingSource))).result = .ok "" := by
  have hread := read_expressionText (e := greetingSource) (by decide) (by decide)
  have hpage : (renderNode (.usual (.ofSources ∅)) 0 1
      greetingState).1.toOption = some "" := by
    rw [renderNode_eq_before _ 0 (Nat.lt_succ_self 1)]
    decide +kernel
  have hroot : ∀ c ∈ ((renderNode (.usual (.ofSources ∅)) 0 1
      greetingState).2.node 1).container, c.layout = none := by
    rw [renderNode_eq_before _ 0 (Nat.lt_succ_self 1)]
    decide +kernel
  refine ⟨by decide, by decide, by decide +kernel, by decide +kernel, ?_, ?_⟩
  · rw [renderNode_eq_before _ 0 (Nat.lt_succ_self 0)]
    decide +kernel
  · refine result_render ∅ hread (s := (renderNode _ 0 1 greetingState).2) ?_ hroot
    exact Prod.ext (Expression.eq_ok_of_toOption hpage) rfl

end Rendering

end TagTemplate
