import SmallLisp.Value.Display
import SmallLisp.Text.Digit

/-! # Requests

What the arguments of the command ask for: options, then a subcommand with
arguments of its own. Options may be cut short as long as they stay clear, and
`--` ends them. -/

namespace SmallLisp.CommandLine

inductive Action where
  | evaluate (expression : String)
  | run (file : String)
  | interact
deriving DecidableEq, Repr

structure Request where
  logLevel : Option String
  action : Action
deriving DecidableEq, Repr

inductive Flag where
  | help
  | version
  | logLevel
deriving DecidableEq, Repr

namespace Flag

/-- How reports name a flag. -/
def name : Flag → String
  | help => "-h/--help"
  | version => "--version"
  | logLevel => "--log-level"

end Flag

/-- What is wrong with the arguments. -/
inductive Misuse where
  | ambiguous (argument : String)
  | levelMissing
  | ignoredValue (flag : Flag) (value : String)
  | commandMissing
  | unknownCommand (name : String)
  | argumentMissing (argument : String)
  | unrecognized (arguments : List String)
deriving DecidableEq, Repr

namespace Misuse

def reason : Misuse → String
  | ambiguous argument =>
    "ambiguous option: " ++ argument ++ " could match --help, --version, --log-level"
  | levelMissing => "argument --log-level: expected one argument"
  | ignoredValue flag value =>
    "argument " ++ flag.name ++ ": ignored explicit argument " ++ Value.quoted value
  | commandMissing => "the following arguments are required: command"
  | unknownCommand name =>
    "argument command: invalid choice: " ++ Value.quoted name ++
      " (choose from 'eval', 'file', 'interactive')"
  | argumentMissing argument => "the following arguments are required: " ++ argument
  | unrecognized arguments => "unrecognized arguments: " ++ " ".intercalate arguments

end Misuse

/-- The ways in which arguments that are not a request end the command. A help or a
misuse may belong to a subcommand. -/
inductive Refusal where
  | help (command : Option String)
  | version
  | misuse (command : Option String) (what : Misuse)
deriving DecidableEq, Repr

/-- What is left of a text without the line feed at its end. -/
def dropLastLineFeed (cs : List Char) : List Char :=
  if cs.getLast? = some '\n' then cs.dropLast else cs

/-- A number below zero, which is no option. -/
def isNegativeNumber : List Char → Bool
  | '-' :: cs =>
    let cs := dropLastLineFeed cs
    let whole := cs.takeWhile Text.isDigit
    match cs.dropWhile Text.isDigit with
    | [] => !whole.isEmpty
    | '.' :: fraction => !fraction.isEmpty && fraction.all Text.isDigit
    | _ => false
  | _ => false

/-- What an argument is taken for. -/
inductive Kind where
  | plain
  | separator
  | option (flag : Flag) (value : Option String)
  | unknown
deriving DecidableEq, Repr

structure Argument where
  text : String
  kind : Kind
deriving DecidableEq, Repr

abbrev Flags := List (List Char × Flag)

def commandFlags : Flags :=
  [("-h".toList, .help), ("--help".toList, .help), ("--version".toList, .version),
    ("--log-level".toList, .logLevel)]

def subcommandFlags : Flags := [("-h".toList, .help), ("--help".toList, .help)]

/-- The part before the first equality sign, and the value after it. -/
def splitValue (cs : List Char) : List Char × Option String :=
  match cs.dropWhile (· ≠ '=') with
  | [] => (cs, none)
  | _ :: value => (cs.takeWhile (· ≠ '='), some (String.ofList value))

/-- What is left after `-h`, which takes no value: more letters `h` only ask again. -/
def leftOver : List Char → Option String
  | ['h'] => none
  | 'h' :: cs => leftOver cs
  | cs => some (String.ofList cs)

/-- The only flag that an argument spells, in full or cut short, and its value. -/
def flagOf? (flags : Flags) (cs : List Char) : Option (Flag × Option String) :=
  match flags.lookup cs with
  | some flag => some (flag, none)
  | none =>
    let (name, value) := splitValue cs
    match cs with
    | '-' :: '-' :: _ =>
      match flags.filter fun entry => name.isPrefixOf entry.1 with
      | [(_, flag)] => some (flag, value)
      | _ => none
    | '-' :: 'h' :: '=' :: cs => some (.help, leftOver cs)
    | '-' :: 'h' :: cs => some (.help, leftOver cs)
    | _ => none

/-- Numbers below zero, texts with spaces and a lone dash are no options. -/
def kindOf (flags : Flags) (argument : String) : Kind :=
  let cs := argument.toList
  match cs with
  | '-' :: _ :: _ =>
    match flagOf? flags cs with
    | some (flag, value) => .option flag value
    | none => if isNegativeNumber cs || cs.contains ' ' then .plain else .unknown
  | _ => .plain

/-- After the first separator every argument is plain. -/
def classify (flags : Flags) : List String → List Argument
  | [] => []
  | text :: rest =>
    if text = "--" then ⟨text, .separator⟩ :: rest.map (⟨·, .plain⟩)
    else ⟨text, kindOf flags text⟩ :: classify flags rest

/-- A request for help, which takes no value. -/
def helpOrMisuse (command value : Option String) : Refusal :=
  match value with
  | none => .help command
  | some value => .misuse command (.ignoredValue .help value)

/-- The argument of a subcommand that takes one, and the arguments that are not
recognized. -/
def takeArgument (command : String) (wanted : Bool) (taken : Option String)
    (extra : List String) : List Argument → Except Refusal (Option String × List String)
  | [] => .ok (taken, extra)
  | ⟨text, kind⟩ :: rest =>
    match kind with
    | .separator =>
      match wanted && taken.isNone, rest with
      | true, first :: rest => .ok (some first.text, extra ++ rest.map Argument.text)
      | _, rest => .ok (taken, extra ++ text :: rest.map Argument.text)
    | .plain =>
      if wanted && taken.isNone then
        match rest with
        | ⟨_, .separator⟩ :: rest => .ok (some text, extra ++ rest.map Argument.text)
        | rest => takeArgument command wanted (some text) extra rest
      else takeArgument command wanted taken (extra ++ [text]) rest
    | .option _ value => .error (helpOrMisuse (some command) value)
    | .unknown => takeArgument command wanted taken (extra ++ [text]) rest

/-- The argument that a subcommand cannot do without. -/
def needArgument (command name : String) (arguments : List Argument) :
    Except Refusal (String × List String) := do
  match ← takeArgument command true none [] arguments with
  | (some value, unused) => .ok (value, unused)
  | (none, _) => .error (.misuse (some command) (.argumentMissing name))

/-- The request once the subcommand is known. -/
def requestOf (logLevel : Option String) (extra : List String) (command : String)
    (rest : List String) : Except Refusal Request := do
  let arguments := classify subcommandFlags rest
  let (action, unused) ← match command with
    | "eval" => do
      let (expression, unused) ← needArgument command "expression" arguments
      .ok (Action.evaluate expression, unused)
    | "file" => do
      let (file, unused) ← needArgument command "file" arguments
      .ok (Action.run file, unused)
    | "interactive" => do
      let (_, unused) ← takeArgument command false none [] arguments
      .ok (Action.interact, unused)
    | _ => .error (.misuse none (.unknownCommand command))
  match extra ++ unused with
  | [] => .ok ⟨logLevel, action⟩
  | unrecognized => .error (.misuse none (.unrecognized unrecognized))

/-- Reads options up to the subcommand. -/
def requestFrom (logLevel : Option String) (extra : List String) :
    List Argument → Except Refusal Request
  | [] => .error (.misuse none .commandMissing)
  | ⟨text, kind⟩ :: rest =>
    match kind with
    | .plain => requestOf logLevel extra text (rest.map Argument.text)
    | .separator =>
      .error (.misuse none (if rest.isEmpty then .commandMissing else .unknownCommand text))
    | .unknown => requestFrom logLevel (extra ++ [text]) rest
    | .option .help value => .error (helpOrMisuse none value)
    | .option .version none => .error .version
    | .option .version (some value) => .error (.misuse none (.ignoredValue .version value))
    | .option .logLevel (some value) => requestFrom (some value) extra rest
    | .option .logLevel none =>
      match rest with
      | ⟨value, .plain⟩ :: rest => requestFrom (some value) extra rest
      | _ => .error (.misuse none .levelMissing)

/-- An argument that could be any of several flags. -/
def isAmbiguous (argument : String) : Bool := ['-', '-', '='].isPrefixOf argument.toList

/-- The request that the arguments of the command make. -/
def request (arguments : List String) : Except Refusal Request :=
  match (arguments.takeWhile (· ≠ "--")).find? isAmbiguous with
  | some argument => .error (.misuse none (.ambiguous argument))
  | none => requestFrom none [] (classify commandFlags arguments)

/-- The arguments as the log shows them. -/
def Request.description (r : Request) : String :=
  let level := match r.logLevel with
    | none => "None"
    | some level => Value.quoted level
  let fields := match r.action with
    | .evaluate expression => "command='eval', expression=" ++ Value.quoted expression
    | .run file => "command='file', file=" ++ Value.quoted file
    | .interact => "command='interactive'"
  "Namespace(log_level=" ++ level ++ ", " ++ fields ++ ")"

end SmallLisp.CommandLine
