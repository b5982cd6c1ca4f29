import TagTemplate.Decimal.Integer
import TagTemplate.Text.Base64
import TagTemplate.Text.Case
import TagTemplate.Value

/-! # Functions

The functions that expressions can call, each from a list of arguments to a value or an error.
An argument is used by its text, except where a number or a list is asked for. -/

namespace TagTemplate

/-- The numbers of arguments that a function accepts. -/
structure Arity where
  least : Nat
  most : Option Nat
deriving DecidableEq, Repr

namespace Arity

/-- Exactly `n` arguments. -/
def exactly (n : Nat) : Arity :=
  ⟨n, some n⟩

/-- `n` arguments are accepted. -/
def accepts (a : Arity) (n : Nat) : Bool :=
  a.least ≤ n ∧ a.most.all (n ≤ ·)

/-- The arity as messages show it. -/
def text (a : Arity) : String :=
  match a.most with
  | none => "at least " ++ toString a.least
  | some m => if m = a.least then toString m else toString a.least ++ "-" ++ toString m

end Arity

inductive FunctionError where
  | arity (function : String) (expected : Arity) (found : Nat)
  | invalidArgument (function : String) (message : String)
deriving DecidableEq, Repr

namespace FunctionError

def display : FunctionError → String
  | arity function expected found =>
    function ++ " expects " ++ expected.text ++ " argument(s), got " ++ toString found
  | invalidArgument function message => function ++ ": " ++ message

end FunctionError

/-- A function that expressions can call. -/
abbrev Function := List Value → Except FunctionError Value

namespace Function

/-- Largest number of items in a range, and of generated words. -/
def maxItems : Nat := 10000

/-- The function `body` where the number of arguments fits, an error otherwise. -/
def withArity (name : String) (arity : Arity) (body : Function) : Function := fun arguments =>
  if arity.accepts arguments.length then body arguments
  else .error (.arity name arity arguments.length)

def number (name : String) (v : Value) : Except FunctionError Float :=
  match v.asNumber? with
  | some x => .ok x
  | none => .error (.invalidArgument name ("'" ++ v.display ++ "' is not a number"))

/-- The text of the argument at a position, `missing` when there is none. -/
def textAt (arguments : List Value) (i : Nat) (missing : String) : String :=
  (arguments[i]?.map Value.display).getD missing

def ofText (name : String) (f : String → Value) : Function :=
  withArity name (.exactly 1) fun arguments => .ok (f (textAt arguments 0 ""))

def onChars (f : List Char → List Char) (s : String) : Value :=
  .text (.ofList (f s.toList))

/-- The number of items of a list, of fields of a map, or of characters of any other text. -/
def lengthOf : Value → Nat
  | .null => 0
  | .list items => items.length
  | .map fields => fields.size
  | v => v.display.length

def ofNat (n : Nat) : Value :=
  .number (Decimal.nearest false n 1)

def ofInt (n : Int) : Value :=
  .number (Decimal.nearest (n < 0) n.natAbs 1)

/-- The texts of all arguments one after another. -/
def concat : Function := fun arguments =>
  .ok (.text (String.join (arguments.map Value.display)))

/-- The items of the first argument with the second one in between. -/
def join : Function := withArity "join" ⟨1, some 2⟩ fun arguments =>
  let parts := match arguments.head? with
    | some (.list items) => Value.displayItems items
    | some v => [v.display]
    | none => []
  .ok (.text ((textAt arguments 1 "").intercalate parts))

/-- The parts of the first text between occurrences of the second. -/
def split : Function := withArity "split" ⟨1, some 2⟩ fun arguments =>
  let separator := textAt arguments 1 ","
  if separator = "" then .error (.invalidArgument "split" "separator must not be empty")
  else
    let parts := Text.pieces separator.toList (textAt arguments 0 "").toList
    .ok (.list (parts.map fun p => .text (.ofList p)))

/-- The first text with every occurrence of the second replaced by the third. -/
def replace : Function := withArity "replace" (.exactly 3) fun arguments =>
  let pattern := textAt arguments 1 ""
  if pattern = "" then .error (.invalidArgument "replace" "pattern must not be empty")
  else
    .ok (onChars (Text.replace pattern.toList (textAt arguments 2 "").toList)
      (textAt arguments 0 ""))

/-- The first argument, or the second if the first has no text. -/
def default : Function := withArity "default" (.exactly 2) fun arguments =>
  match arguments with
  | [v, fallback] => .ok (if v.display = "" then fallback else v)
  | _ => .ok .null

/-- All arguments as numbers, combined from the left. -/
def fold (name : String) (f : Float → Float → Float) (start : Float) : Function :=
  withArity name ⟨1, none⟩ fun arguments =>
    (arguments.foldlM (fun x v => (number name v).map (f x ·)) start).map .number

/-- The difference of two numbers. -/
def sub : Function := withArity "sub" (.exactly 2) fun arguments =>
  match arguments with
  | [a, b] =>
    match number "sub" a, number "sub" b with
    | .ok x, .ok y => .ok (.number (x - y))
    | .error e, _ => .error e
    | _, .error e => .error e
  | _ => .ok .null

/-- The bound of a range: a number without its places, as an integer of 64 bits. -/
def bound (v : Value) : Except FunctionError Int64 :=
  (number "range" v).map Decimal.truncated

/-- How far `stop` lies above `start`, kept within 64 bits. -/
def distance (start stop : Int64) : Nat :=
  (Int64.ofIntClamp (stop.toInt - start.toInt)).toNatClampNeg

/-- The integers from `start` up to and without `stop`, by sums of 64 bits. -/
def between (start stop : Int64) : Except FunctionError Value :=
  let count := distance start stop
  if maxItems < count then
    .error (.invalidArgument "range"
      (toString count ++ " items exceeds the limit of " ++ toString maxItems))
  else .ok (.list ((List.range count).map fun k : Nat => ofInt (start + .ofNat k).toInt))

/-- The integers below a bound, or between two. -/
def range : Function := withArity "range" ⟨1, some 2⟩ fun arguments =>
  match arguments with
  | [stop] => (bound stop).bind (between 0)
  | [start, stop] => (bound start).bind fun a => (bound stop).bind (between a)
  | _ => .ok .null

def bytesOf (s : String) : List UInt8 :=
  s.toUTF8.toList

def base64Encode : Function := ofText "base64_encode" fun s =>
  .text (.ofList ((Text.Base64.encode (bytesOf s)).map fun b => Char.ofNat b.toNat))

def base64Decode : Function := withArity "base64_decode" (.exactly 1) fun arguments =>
  match Text.Base64.decode (bytesOf (Text.trimmed (textAt arguments 0 ""))) with
  | .error e => .error (.invalidArgument "base64_decode" e.message)
  | .ok bytes =>
    match String.fromUTF8? ⟨bytes.toArray⟩ with
    | some s => .ok (.text s)
    | none => .error (.invalidArgument "base64_decode" "decoded bytes are not UTF-8")

def builtins : NameMap Function := .ofList [
  ("upper", ofText "upper" (onChars Text.upper)),
  ("lower", ofText "lower" (onChars Text.lower)),
  ("trim", ofText "trim" (onChars Text.trim)),
  ("length", withArity "length" (.exactly 1) fun arguments =>
    .ok (ofNat (lengthOf (arguments.headD .null)))),
  ("concat", concat),
  ("join", join),
  ("split", split),
  ("replace", replace),
  ("default", default),
  ("add", fold "add" (· + ·) 0.0),
  ("sub", sub),
  ("mul", fold "mul" (· * ·) 1.0),
  ("range", range),
  ("base64_encode", base64Encode),
  ("base64_decode", base64Decode)]

end Function

end TagTemplate
