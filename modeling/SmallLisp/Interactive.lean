import SmallLisp.Session

/-! # Interactive sessions

A prompt, a line, and the value of the line or its error, until the input ends.
An error ends only the line in which it arises. -/

namespace SmallLisp

open EvalM

namespace Interactive

/-- The keeper of the history of lines. Reading or writing the history may fail
for a reason that the keeper gives. -/
structure HistoryKeeper where
  readFailure : Option String
  writeFailure : Option String

def historyLimit : Nat := 4096

def keep (call : HistoryCall) : EvalM Unit :=
  modify fun w => { w with journal := w.journal.push (.history call) }

/-- Reads the history if there is one. -/
def loadHistory (m : Machine) (file : Path) : Option HistoryKeeper → EvalM Unit
  | none => pure ()
  | some keeper => do
    match m.files.isPresent file with
    | .error fault => stop (.fault (.file fault))
    | .ok false => pure ()
    | .ok true => do
      keep (.read file.text)
      match keeper.readFailure with
      | some reason => note (.historyNotRead file.text reason)
      | none => pure ()
    keep (.limit historyLimit)

def saveHistory (file : Path) : Option HistoryKeeper → EvalM Unit
  | none => pure ()
  | some keeper => do
    keep (.write file.text)
    match keeper.writeFailure with
    | some reason => note (.historyNotWritten file.text reason)
    | none => pure ()

def prompt : String := "ssli> "

/-- Shows what a line came to. An exit or a failure outside the language is passed
on. -/
def showEnding : Except Stop Value → EvalM Unit
  | .ok v => write ("=> " ++ v.source ++ "\n")
  | .error (.error e) => report ("Error: " ++ e.message ++ "\n")
  | .error s => stop s

def respond (ev : Evaluator) (line : List Char) : EvalM Unit := do
  showEnding (← attempt (ev.evaluateText (String.ofList line) Store.root))

/-- Lines are taken until the input ends; each takes up at least one character, so
the length of the input bounds their number. -/
def repeatLines (ev : Evaluator) : Nat → EvalM Unit
  | 0 => stop .outOfFuel
  | lines + 1 => do
    write prompt
    let input := (← get).input
    if input.rest.isEmpty then write (if input.interrupted then "CTRL-C\n" else "CTRL-D\n")
    else do
      let line ← readLine
      match Text.trim line with
      | [] => repeatLines ev lines
      | line => do
        respond ev line
        repeatLines ev lines

def readAndRespond (ev : Evaluator) : EvalM Unit := do
  repeatLines ev ((← get).input.rest.length + 1)

/-- An interactive session. The history is written back however it ends. -/
def interact (ev : Evaluator) (keeper : Option HistoryKeeper) : EvalM Unit := do
  match ev.machine.historyFile with
  | .error fault => stop (.fault fault)
  | .ok file => do
    loadHistory ev.machine file keeper
    let ending ← attempt (readAndRespond ev)
    saveHistory file keeper
    ofOutcome ending

end Interactive

end SmallLisp
