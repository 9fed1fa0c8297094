import SmallLisp.Error
import SmallLisp.Journal
import SmallLisp.Scope.Store
import SmallLisp.Settings
import SmallLisp.Value.Mark

/-! # The world of a session

What an evaluation can change: the frames, the standard input, the files being
imported, and the journal. An evaluation that stops keeps the changes it made. -/

namespace SmallLisp

/-- The files that are being imported, and the one whose forms are evaluated. -/
structure ImportState where
  inProgress : List Path
  current : Option Path
deriving DecidableEq

/-- The standard input that is left. At its end a reader finds either the end or
an interruption. -/
structure Input where
  rest : List Char
  interrupted : Bool

namespace Input

/-- The first line with its line feed, if any input is left, and the rest. -/
def takeLine : List Char → List Char × List Char
  | [] => ([], [])
  | c :: cs =>
    if c = '\n' then (['\n'], cs)
    else ((c :: (takeLine cs).1), (takeLine cs).2)

end Input

/-- A random choice: some integer between any two ends, which it includes. -/
structure Draw where
  pick : Int → Int → Int
  between : ∀ {low high : Int}, low ≤ high → low ≤ pick low high ∧ pick low high ≤ high

namespace Draw

/-- The choice that counts `n` up from the lower end, and starts over at the upper one. -/
def counting (n : Nat) : Draw where
  pick low high := if low ≤ high then low + n % (high - low + 1) else low
  between {low high} h := by
    have hnonneg := Int.emod_nonneg (n : Int) (show high - low + 1 ≠ 0 by omega)
    have hlt := Int.emod_lt_of_pos (n : Int) (show 0 < high - low + 1 by omega)
    rw [if_pos h]
    omega

end Draw

structure World where
  store : Store
  /-- The next number for a closure, a host procedure or a NaN. -/
  nextId : Nat
  /-- Absent where imports are not available. -/
  imports : Option ImportState
  input : Input
  /-- The random choices that are to come, whatever they are. -/
  draws : Nat → Draw
  journal : Journal

abbrev EvalM := EStateM Stop World

namespace EvalM

def stop {α : Type} (s : Stop) : EvalM α := throw s

def fail {α : Type} (e : ScriptError) : EvalM α := stop (.error e)

/-- A computation that cannot change the world. -/
def ofExcept {α : Type} : Except ScriptError α → EvalM α
  | .ok a => pure a
  | .error e => fail e

/-- Runs a computation to its end, whichever that is. -/
def attempt {α : Type} (body : EvalM α) : EvalM (Except Stop α) := fun w =>
  match body w with
  | .ok a w => .ok (.ok a) w
  | .error s w => .ok (.error s) w

def ofOutcome {α : Type} : Except Stop α → EvalM α
  | .ok a => pure a
  | .error s => stop s

def note (n : Note) : EvalM Unit :=
  modify fun w => { w with journal := w.journal.push (.noted n) }

def write (text : String) : EvalM Unit :=
  modify fun w => { w with journal := w.journal.push (.wrote text) }

def report (text : String) : EvalM Unit :=
  modify fun w => { w with journal := w.journal.push (.reported text) }

/-- A number that was not given before. -/
def freshId : EvalM Nat :=
  modifyGet fun w => (w.nextId, { w with nextId := w.nextId + 1 })

/-- Marks the NaNs of a value that have no mark yet. -/
def marked (v : Value) : EvalM Value :=
  modifyGet fun w =>
    let (v, next) := v.mark w.nextId
    (v, { w with nextId := next })

def makeChild (outer : FrameId) : EvalM FrameId :=
  modifyGet fun w =>
    let (child, store) := w.store.makeChild outer
    (child, { w with store })

def modifyStore (op : Store → Store) : EvalM Unit :=
  modify fun w => { w with store := op w.store }

def setVariable (f : FrameId) (name : String) (v : Value) : EvalM Unit :=
  modifyStore (·.set .vars f name v)

def updateVariable (f : FrameId) (name : String) (v : Value) : EvalM Unit :=
  modifyStore (·.update .vars f name v)

def eraseVariable (f : FrameId) (name : String) : EvalM Unit :=
  modifyStore (·.erase .vars f name)

def defineProcedure (f : FrameId) (name : String) (p : Function) : EvalM Unit :=
  modifyStore (·.set .procs f name p)

def valueOf (f : FrameId) (name : String) : EvalM Value := do
  match (← get).store.value? f name with
  | some v => pure v
  | none => fail (.undeclared name)

def functionOf (f : FrameId) (name : String) : EvalM Function := do
  match (← get).store.function? f name with
  | some p => pure p
  | none => fail (.noFunction name)

/-- The next line of the input, empty at its end. -/
def readLine : EvalM (List Char) := do
  let input := (← get).input
  if input.rest.isEmpty && input.interrupted then stop (.fault .interrupted)
  else
    modify fun w => { w with input := { input with rest := (Input.takeLine input.rest).2 } }
    pure (Input.takeLine input.rest).1

/-- A number between `low` and `high`, ends included: the next choice makes it. -/
def drawBetween (low high : Int) : EvalM Int :=
  modifyGet fun w =>
    ((w.draws 0).pick low high, { w with draws := fun i => w.draws (i + 1) })

end EvalM

end SmallLisp
