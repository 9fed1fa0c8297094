import SmallLisp.CommandLine.Help
import SmallLisp.Interactive

/-! # Runs of the command

A run answers the request of its arguments and ends with an exit code. -/

namespace SmallLisp.CommandLine

open EvalM

/-- What a run leaves: how it ended and what it put out. -/
structure Report where
  ending : Except Stop Int
  output : String
  errorOutput : String
  history : List HistoryCall

/-- An empty level on the command line leaves the choice to the settings. -/
def threshold (m : Machine) (logLevel : Option String) : Int :=
  match logLevel with
  | none | some "" => m.logThreshold
  | some level => Machine.thresholdOfName level

/-- An error is reported and gives the exit code one. -/
def conclude : Except Stop Value → EvalM Int
  | .ok v => do
    note (.finished v)
    pure 0
  | .error (.error e) => do
    report ("Error: " ++ e.message ++ "\n")
    pure 1
  | .error s => stop s

def reporting (body : EvalM Value) : EvalM Int := do
  conclude (← attempt body)

def perform (ev : Evaluator) (keeper : Option Interactive.HistoryKeeper) :
    Action → EvalM Int
  | .evaluate expression => reporting (ev.evaluateText expression Store.root)
  | .run file => reporting (ev.evaluateFile file)
  | .interact => do
    Interactive.interact ev keeper
    pure 0

/-- What precedes the answer to a request. -/
def opening (r : Request) : EvalM Unit := do
  note (.argumentsRead r.description)
  defineBuiltins

/-- An exit that the script asked for is the exit of the command. -/
def acceptExit : Except Stop Int → EvalM Int
  | .ok code => pure code
  | .error (.exit code) => do
    note (.exited code)
    pure code
  | .error s => stop s

/-- Answers a request in a fresh session. -/
def answer (ev : Evaluator) (keeper : Option Interactive.HistoryKeeper) (r : Request) :
    EvalM Int := do
  opening r
  acceptExit (← attempt (perform ev keeper r.action))

def reportOf (threshold : Int) : EStateM.Result Stop World Int → Report
  | .ok code w => ⟨.ok code, w.journal.output, w.journal.errorOutput threshold,
      w.journal.historyCalls⟩
  | .error s w => ⟨.error s, w.journal.output, w.journal.errorOutput threshold,
      w.journal.historyCalls⟩

/-- Runs the command with its arguments and its standard input. -/
def run (m : Machine) (fuel : Nat) (keeper : Option Interactive.HistoryKeeper)
    (arguments : List String) (input : Input) : Report :=
  match request arguments with
  | .error (.help command) => ⟨.ok 0, helpText command, "", []⟩
  | .error .version => ⟨.ok 0, versionText, "", []⟩
  | .error (.misuse command what) => ⟨.ok 2, "", misuseText command what, []⟩
  | .ok r =>
    reportOf (threshold m r.logLevel)
      (answer (.ofFuel m fuel) keeper r (World.initial input))

end SmallLisp.CommandLine
