import SmallLisp.Interpreter

/-! # Sessions

A session is a world with one root frame, in which texts, files and forms are
evaluated one after another. -/

namespace SmallLisp

open EvalM

namespace World

/-- A world with a single empty frame, where imports are not available. -/
def bare : World where
  store := .bare
  nextId := 0
  imports := none
  input := ⟨[], false⟩
  draws _ := .counting 0
  journal := #[]

/-- The world before the first evaluation of a session, without procedures. -/
def initial (input : Input) : World :=
  { bare with imports := some ⟨[], none⟩, input }

end World

/-- Defines a native procedure in a frame, under its own name. -/
def defineNative (frame : FrameId) (p : Function) : EvalM Unit := do
  note (.nativeDefined p.name)
  defineProcedure frame p.name p

def defineAll (frame : FrameId) : List Builtin → EvalM Unit
  | [] => pure ()
  | b :: bs => do
    defineNative frame (.builtin b)
    defineAll frame bs

/-- Defines the built-in procedures in the root frame. -/
def defineBuiltins : EvalM Unit := defineAll Store.root Builtin.all

/-- Defines a procedure of the embedding program. -/
def defineHost (frame : FrameId) (name : String) (kind : HostKind) (inCallerFrame : Bool) :
    EvalM Unit := do
  let id ← freshId
  defineNative frame (.host ⟨id, name, kind, inCallerFrame⟩)

/-- The world at the start of a session with the built-in procedures. -/
def World.fresh (input : Input) : World :=
  match defineBuiltins (World.initial input) with
  | .ok _ w => w
  | .error _ w => w

namespace Evaluator

variable (ev : Evaluator)

/-- The place of a file that is evaluated by its path. -/
def filePlace (text : String) : Except Stop Place :=
  match ev.machine.files.resolve (Path.ofText text) with
  | .ok place => .ok place
  | .error (.linkLoop path) => .error (.fault (.file (.linkLoop path)))
  | .error .zeroInName => .error (.fault (.file .zeroInName))
  | .error fault => .error (.error (.pathUnresolvable text fault))

/-- Evaluates a file in the root frame. -/
def evaluateFile (text : String) : EvalM Value := do
  match ev.filePlace text with
  | .error s => stop s
  | .ok place => do
    note (.fileProcessed (Path.ofNames place).text)
    ev.loadPlace place Store.root

end Evaluator

end SmallLisp
