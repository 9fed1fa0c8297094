import SmallLisp.Severity
import SmallLisp.Value.Display

/-! # Journal

What a session does to the outside, in order: the text it writes, and the log
lines it makes. A log line is kept as what it reports, and spelled only when it
is shown. -/

namespace SmallLisp

open Value

/-- What a log line reports. -/
inductive Note where
  | nativeDefined (name : String)
  | evaluating (name : String) (arguments : Nat)
  | returned (v : Value)
  | nativeCalled (name : String) (arguments : Nat)
  | closureCalled (name : String) (params : List String)
  | variableSet (name : String)
  | functionDefined (name : String)
  | printing (text : String)
  | script (severity : Severity) (text : String)
  | procedureListed (name : String)
  | asserted (v : Value)
  | assertedEqual (a b : Value)
  | exitRequested (code : Int)
  | fileImported (path : String)
  | fileProcessed (path : String)
  | argumentsRead (description : String)
  | finished (v : Value)
  | exited (code : Int)
  | historyNotRead (path reason : String)
  | historyNotWritten (path reason : String)

namespace Note

def severity : Note → Severity
  | nativeDefined _ | evaluating .. | returned _ | nativeCalled .. | closureCalled .. => .debug
  | variableSet _ | printing _ | argumentsRead _ => .debug
  | functionDefined _ | procedureListed _ | asserted _ | assertedEqual .. => .info
  | exitRequested _ | fileImported _ | fileProcessed _ | finished _ | exited _ => .info
  | script severity _ => severity
  | historyNotRead .. | historyNotWritten .. => .warning

/-- The name of the log that a line belongs to. -/
def log : Note → String
  | nativeDefined _ => "ssli.types.environment"
  | evaluating .. | returned _ => "ssli.evaluation.evaluator"
  | nativeCalled .. | closureCalled .. => "ssli.evaluation.apply"
  | variableSet _ | functionDefined _ => "ssli.builtin.core"
  | printing _ => "ssli.builtin.console"
  | script .. => "ssli.script"
  | procedureListed _ => "ssli.builtin.internal"
  | asserted _ | assertedEqual .. => "ssli.builtin.assertions"
  | exitRequested _ => "ssli.builtin.system"
  | fileImported _ => "ssli.modules.file_loader"
  | fileProcessed _ => "ssli.runtime"
  | argumentsRead _ | finished _ | exited _ | historyNotRead .. | historyNotWritten .. =>
    "ssli.cli"

def scriptLabel : Severity → String
  | .debug => "Debug: "
  | .info => "Info: "
  | .warning => "Warn: "
  | .error => "Error: "

def intText (n : Int) : String := String.ofList (Number.integerText n)

def message : Note → String
  | nativeDefined name => "Adding native function: " ++ name
  | evaluating name arguments =>
    "[EVAL] Evaluating function: " ++ quoted name ++ " with " ++ toString arguments ++ " arg(s)"
  | returned v => "Function call result: " ++ v.inspect
  | nativeCalled name arguments =>
    "Calling native [" ++ name ++ "] with " ++ toString arguments ++ " arg(s)"
  | closureCalled name params =>
    "Calling closure [" ++ name ++ "] with params [" ++
      ", ".intercalate (params.map quoted) ++ "]"
  | variableSet name => "Setting variable: " ++ name
  | functionDefined name => "Defining function: " ++ name
  | printing text => "Print: " ++ text
  | script severity text => scriptLabel severity ++ text
  | procedureListed name => "Function: " ++ name
  | asserted v => "assert(" ++ v.display ++ ") passed"
  | assertedEqual a b => "assert(" ++ a.display ++ " == " ++ b.display ++ ") passed"
  | exitRequested code => "Program exit requested with code " ++ intText code
  | fileImported path => "Importing file: " ++ path
  | fileProcessed path => "Processing file " ++ path
  | argumentsRead description => "Parsed arguments: " ++ description
  | finished v => "result: " ++ v.inspect
  | exited code => "Program exited with code " ++ intText code
  | historyNotRead path reason => "Failed to read history file " ++ path ++ ": " ++ reason
  | historyNotWritten path reason => "Failed to write history file " ++ path ++ ": " ++ reason

/-- The line that shows a note. -/
def line (n : Note) : String :=
  n.severity.name ++ " " ++ n.log ++ ": " ++ n.message ++ "\n"

end Note

/-- What an interactive session asks of the keeper of its line history. -/
inductive HistoryCall where
  | read (path : String)
  | limit (length : Nat)
  | write (path : String)
deriving DecidableEq, Repr

inductive Event where
  /-- Text on the standard output. -/
  | wrote (text : String)
  /-- Text on the standard error. -/
  | reported (text : String)
  | noted (n : Note)
  | history (call : HistoryCall)

namespace Event

def output : Event → String
  | wrote text => text
  | _ => ""

/-- What an event puts on the standard error, when notes from a severity on are
shown. -/
def errorOutput (threshold : Int) : Event → String
  | reported text => text
  | noted n => if threshold ≤ n.severity.rank then n.line else ""
  | _ => ""

/-- The severity and text of a line that the script itself logged. -/
def scriptLine? : Event → Option (Severity × String)
  | noted (.script severity text) => some (severity, (Note.script severity text).message)
  | _ => none

def historyCall? : Event → Option HistoryCall
  | history call => some call
  | _ => none

end Event

abbrev Journal := Array Event

namespace Journal

def output (j : Journal) : String := String.join (j.toList.map Event.output)

def errorOutput (threshold : Int) (j : Journal) : String :=
  String.join (j.toList.map (Event.errorOutput threshold))

def scriptLines (j : Journal) : List (Severity × String) := j.toList.filterMap Event.scriptLine?

def historyCalls (j : Journal) : List HistoryCall := j.toList.filterMap Event.historyCall?

end Journal

end SmallLisp
