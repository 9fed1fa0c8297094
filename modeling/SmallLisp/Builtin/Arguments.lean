import SmallLisp.Evaluator
import SmallLisp.Value.Coerce

/-! # Arguments of built-in procedures

Built-in procedures get their arguments as forms, and evaluate those they need
one by one. -/

namespace SmallLisp

open EvalM

/-- Refuses a call with fewer arguments than needed. -/
def require (procedure : String) (required : Nat) (args : List Value) : EvalM Unit :=
  if args.length < required then fail (.tooFewArguments procedure required args.length)
  else pure ()

/-- The name that a form stands for where a name is defined. -/
def nameOf (role : String) : Value → Except ScriptError String
  | .symbol name => .ok name
  | .string name => .ok name
  | form => .error (.nameExpected role form)

def namesOf (role : String) : List Value → Except ScriptError (List String)
  | [] => .ok []
  | form :: forms => do
    let name ← nameOf role form
    let names ← namesOf role forms
    .ok (name :: names)

namespace Evaluator

variable (ev : Evaluator)

/-- The value of the argument at an index. -/
def argument (procedure : String) (args : List Value) (i : Nat) (frame : FrameId) :
    EvalM Value := do
  match args[i]? with
  | some form => ev.evaluate form frame
  | none => fail (.tooFewArguments procedure (i + 1) args.length)

/-- The value of an argument as it is shown. -/
def textArgument (procedure : String) (args : List Value) (i : Nat) (frame : FrameId) :
    EvalM String := do
  let v ← ev.argument procedure args i frame
  pure v.display

/-- The value of an argument as a list. -/
def listArgument (procedure : String) (args : List Value) (i : Nat) (frame : FrameId) :
    EvalM (List Value) := do
  let v ← ev.argument procedure args i frame
  pure v.toItems

def intArgument (procedure : String) (args : List Value) (i : Nat) (frame : FrameId) :
    EvalM Int := do
  let v ← ev.argument procedure args i frame
  ofOutcome v.toInt

def functionArgument (procedure : String) (args : List Value) (i : Nat) (frame : FrameId) :
    EvalM Function := do
  let v ← ev.argument procedure args i frame
  ofExcept v.toFunction

end Evaluator

end SmallLisp
