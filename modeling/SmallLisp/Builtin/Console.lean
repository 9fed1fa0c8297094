import SmallLisp.Builtin.Texts

/-! # Console and log

Procedures that write to the standard output or to the log give back the text
they wrote. -/

namespace SmallLisp

open EvalM

namespace Evaluator

variable (ev : Evaluator)

/-- The values of all arguments as they are shown, one space between them. -/
def joined (args : List Value) (frame : FrameId) : EvalM String := do
  let vs ← ev.evaluateAll args frame
  pure (" ".intercalate (vs.map Value.display))

def print (args : List Value) (frame : FrameId) : EvalM Value := do
  let text ← ev.joined args frame
  note (.printing text)
  write (text ++ "\n")
  pure (.string text)

def printFormat (args : List Value) (frame : FrameId) : EvalM Value := do
  let text ← ev.formatted args frame
  write text
  pure (.string text)

/-- A line of the input without the blanks around it, after a prompt if one is
given. -/
def readLine (args : List Value) (frame : FrameId) : EvalM Value := do
  match args with
  | [] => pure ()
  | form :: _ => do
    let v ← ev.evaluate form frame
    write (v.display ++ " ")
  let line ← EvalM.readLine
  pure (.string (String.ofList (Text.trim line)))

def log (severity : Severity) (args : List Value) (frame : FrameId) : EvalM Value := do
  let text ← ev.joined args frame
  note (.script severity text)
  pure (.string text)

end Evaluator

end SmallLisp
