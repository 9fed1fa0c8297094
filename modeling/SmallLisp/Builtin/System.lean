import SmallLisp.Builtin.Arguments
import SmallLisp.Loading
import SmallLisp.Value.Equal

/-! # Conversion, inspection and system

Procedures that convert values, look at the bindings in sight, check what a
script asserts, and reach outside the language. -/

namespace SmallLisp

open EvalM

/-- A value as another variant. -/
def Conversion.apply (target : Conversion) (v : Value) : Except Stop Value :=
  match target with
  | .string => .ok (.string v.display)
  | .int => v.toInt.map .int
  | .float => v.toFloat.map .float
  | .bool => .ok (.bool v.truth)
  | .list => .ok (.list v.toItems)

/-- Names in the order of their code points. -/
def sortNames (names : List String) : List String :=
  names.mergeSort fun a b => a ≤ b

/-- Entries in the order of their names. -/
def sortEntries {α : Type} (entries : List (String × α)) : List (String × α) :=
  entries.mergeSort fun a b => a.1 ≤ b.1

/-- One line for every procedure in sight and one for every variable. -/
def bindingLines (s : Store) (frame : FrameId) : List String :=
  ((sortEntries (s.visible .procs frame)).map fun entry =>
      "fn " ++ entry.1 ++ ": " ++ entry.2.text ++ "\n") ++
    (sortEntries (s.visible .vars frame)).map fun entry =>
      "var " ++ entry.1 ++ ": " ++ entry.2.display ++ "\n"

def noteNames : List String → EvalM Unit
  | [] => pure ()
  | name :: names => do
    note (.procedureListed name)
    noteNames names

def writeAll : List String → EvalM Unit
  | [] => pure ()
  | line :: lines => do
    write line
    writeAll lines

/-- The names of the procedures in sight. -/
def listProcedures (frame : FrameId) : EvalM Value := do
  let names := sortNames ((← get).store.names .procs frame)
  noteNames names
  pure (.list (names.map .string))

def showBindings (frame : FrameId) : EvalM Value := do
  writeAll (bindingLines (← get).store frame)
  pure .nil

namespace Evaluator

variable (ev : Evaluator)

def convert (target : Conversion) (args : List Value) (frame : FrameId) : EvalM Value := do
  let v ← ev.argument (Builtin.convert target).name args 0 frame
  let v ← ofOutcome (target.apply v)
  marked v

/-- Calls the procedure whose name is the value of the first argument. -/
def callByName (args : List Value) (frame : FrameId) : EvalM Value := do
  let name ← ev.textArgument "internal.func.nat.call" args 0 frame
  ev.callNamed name (args.drop 1) frame

/-- A failed assertion shows the form that failed. -/
def assert (args : List Value) (frame : FrameId) : EvalM Value := do
  let v ← ev.argument "assert" args 0 frame
  if v.truth then do
    note (.asserted v)
    pure .nil
  else fail (.assertionFailed v (args.headD .nil))

def assertEqual (args : List Value) (frame : FrameId) : EvalM Value := do
  let a ← ev.argument "assert.eq" args 0 frame
  let b ← ev.argument "assert.eq" args 1 frame
  if a.same b then do
    note (.assertedEqual a b)
    pure .nil
  else fail (.assertionUnequal a b)

/-- A random integer between two bounds, which are 0 and 100 by default. -/
def random (args : List Value) (frame : FrameId) : EvalM Value := do
  let low ← if args.isEmpty then pure 0 else ev.intArgument "rnd.int" args 0 frame
  let high ← if args.length ≤ 1 then pure 100 else ev.intArgument "rnd.int" args 1 frame
  if high < low then fail (.emptyRange low high)
  else do
    let n ← drawBetween low high
    pure (.int n)

def exit (args : List Value) (frame : FrameId) : EvalM Value := do
  let code ← if args.isEmpty then pure 0 else ev.intArgument "exit" args 0 frame
  note (.exitRequested code)
  stop (.exit code)

def importArgument (args : List Value) (frame : FrameId) : EvalM Value := do
  let text ← ev.textArgument "import" args 0 frame
  ev.importFile text frame

end Evaluator

end SmallLisp
