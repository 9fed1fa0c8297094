import SmallLisp.Builtin.Arguments
import SmallLisp.Value.Equal
import SmallLisp.Value.Order

/-! # Comparison and logic

Comparisons hold the first operand against each of the others; comparisons and
connectives stop evaluating operands as soon as the result is known. -/

namespace SmallLisp

open EvalM

namespace Evaluator

variable (ev : Evaluator)

/-- Do the values of all forms, one after another, pass a test? -/
def allPass (test : Value → Except ScriptError Bool) :
    List Value → FrameId → EvalM Bool
  | [], _ => pure true
  | form :: forms, frame => do
    let v ← ev.evaluate form frame
    let passes ← ofExcept (test v)
    if passes then allPass test forms frame else pure false

/-- Tests the first operand against each of the others. -/
def againstFirst (procedure : String) (test : Value → Value → Except ScriptError Bool)
    (args : List Value) (frame : FrameId) : EvalM Value := do
  let first ← ev.argument procedure args 0 frame
  let holds ← ev.allPass (test first) (args.drop 1) frame
  pure (.bool holds)

def equal (args : List Value) (frame : FrameId) : EvalM Value :=
  ev.againstFirst "==" (fun a b => .ok (a.same b)) args frame

def notEqual (args : List Value) (frame : FrameId) : EvalM Value :=
  ev.againstFirst "!=" (fun a b => .ok (!a.same b)) args frame

def compare (relation : Comparison) (args : List Value) (frame : FrameId) : EvalM Value :=
  ev.againstFirst (Builtin.compare relation).name
    (fun a b => (a.compare b).map relation.accepts) args frame

def conjunction (args : List Value) (frame : FrameId) : EvalM Value := do
  let holds ← ev.allPass (fun v => .ok v.truth) args frame
  pure (.bool holds)

def disjunction (args : List Value) (frame : FrameId) : EvalM Value := do
  let fails ← ev.allPass (fun v => .ok (!v.truth)) args frame
  pure (.bool !fails)

def negation (args : List Value) (frame : FrameId) : EvalM Value := do
  let v ← ev.argument "not" args 0 frame
  pure (.bool !v.truth)

end Evaluator

end SmallLisp
