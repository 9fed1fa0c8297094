import SmallLisp.Builtin.Arguments
import SmallLisp.Text.Case
import SmallLisp.Text.Search
import SmallLisp.Text.Template

/-! # Texts

Operations on texts take every argument as it is shown. -/

namespace SmallLisp

open EvalM

/-- Applies an operation on characters to a string. -/
def onChars (op : List Char → List Char) (s : String) : String := String.ofList (op s.toList)

def stringItems (pieces : List (List Char)) : Value :=
  .list (pieces.map fun piece => .string (String.ofList piece))

/-- A template filled with texts. -/
def formatText (template : String) (values : List String) : String :=
  String.ofList (Text.fill template.toList (values.map String.toList))

/-- A text cut at a separator, which must not be empty. -/
def splitText (text separator : String) : Except ScriptError Value :=
  if separator = "" then .error .emptySeparator
  else .ok (stringItems (Text.cut separator.toList text.toList))

def joinTexts (items : List Value) (separator : String) : String :=
  String.ofList (Text.join separator.toList (items.map fun v => v.display.toList))

def containsText (text sought : String) : Bool := Text.occursIn sought.toList text.toList

def startsWithText (text start : String) : Bool := start.toList.isPrefixOf text.toList

def endsWithText (text ending : String) : Bool := ending.toList.isSuffixOf text.toList

def replaceText (text old new : String) : String :=
  String.ofList (Text.replace old.toList new.toList text.toList)

def firstCode (text : String) : Except ScriptError Int :=
  match text.toList with
  | [] => .error .emptyText
  | c :: _ => .ok c.toNat

/-- Is this the code of a surrogate, half of a pair that stands for one character? -/
def isSurrogate (code : Int) : Bool := 0xD800 ≤ code && code ≤ 0xDFFF

/-- The text of the character with a code. Half of a pair makes no text: what would show
or encode it fails, and so does making it. -/
def codeText (code : Int) : Except Stop String :=
  if h : 0 ≤ code ∧ code.toNat.isValidChar then
    .ok (String.ofList [Char.ofNatAux code.toNat h.2])
  else if isSurrogate code then .error (.fault (.loneSurrogate code.toNat))
  else .error (.error (.invalidCode code))

namespace Evaluator

variable (ev : Evaluator)

/-- An operation on the characters of the first argument. -/
def changeText (b : Builtin) (op : List Char → List Char) (args : List Value)
    (frame : FrameId) : EvalM Value := do
  let text ← ev.textArgument b.name args 0 frame
  pure (.string (onChars op text))

/-- The template filled with the values of the other arguments. -/
def formatted (args : List Value) (frame : FrameId) : EvalM String := do
  require "str.format" 1 args
  let vs ← ev.evaluateAll args frame
  match vs.map Value.display with
  | [] => pure ""
  | template :: values => pure (formatText template values)

def format (args : List Value) (frame : FrameId) : EvalM Value := do
  let text ← ev.formatted args frame
  pure (.string text)

/-- Cuts a text at a separator, or into words when none is given. -/
def split (args : List Value) (frame : FrameId) : EvalM Value := do
  let text ← ev.textArgument "str.split" args 0 frame
  if args.length ≤ 1 then pure (stringItems (Text.words text.toList))
  else do
    let separator ← ev.textArgument "str.split" args 1 frame
    ofExcept (splitText text separator)

def join (args : List Value) (frame : FrameId) : EvalM Value := do
  let items ← ev.listArgument "str.join" args 0 frame
  let separator ← ev.textArgument "str.join" args 1 frame
  pure (.string (joinTexts items separator))

/-- The text that is sought is evaluated first. -/
def contains (args : List Value) (frame : FrameId) : EvalM Value := do
  let sought ← ev.textArgument "str.contains" args 1 frame
  let text ← ev.textArgument "str.contains" args 0 frame
  pure (.bool (containsText text sought))

def startsWith (args : List Value) (frame : FrameId) : EvalM Value := do
  let text ← ev.textArgument "str.starts_with" args 0 frame
  let start ← ev.textArgument "str.starts_with" args 1 frame
  pure (.bool (startsWithText text start))

def endsWith (args : List Value) (frame : FrameId) : EvalM Value := do
  let text ← ev.textArgument "str.ends_with" args 0 frame
  let ending ← ev.textArgument "str.ends_with" args 1 frame
  pure (.bool (endsWithText text ending))

def replace (args : List Value) (frame : FrameId) : EvalM Value := do
  let text ← ev.textArgument "str.replace" args 0 frame
  let old ← ev.textArgument "str.replace" args 1 frame
  let new ← ev.textArgument "str.replace" args 2 frame
  pure (.string (replaceText text old new))

/-- The length of the UTF-8 encoding. -/
def byteLength (args : List Value) (frame : FrameId) : EvalM Value := do
  let text ← ev.textArgument "str.len" args 0 frame
  pure (.int text.utf8ByteSize)

def charCode (args : List Value) (frame : FrameId) : EvalM Value := do
  let text ← ev.textArgument "char.ord" args 0 frame
  let code ← ofExcept (firstCode text)
  pure (.int code)

def charOfCode (args : List Value) (frame : FrameId) : EvalM Value := do
  let code ← ev.intArgument "char.chr" args 0 frame
  let text ← ofOutcome (codeText code)
  pure (.string text)

end Evaluator

end SmallLisp
