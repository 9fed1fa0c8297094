import SmallLisp.FileSystem
import SmallLisp.Value.Display

/-! # Errors

Why a reading, a coercion, a call or an import fails, and the text that reports
it. -/

namespace SmallLisp

open Number Value

inductive ScriptError where
  | unexpectedEnd
  | unterminatedList
  | unexpectedClose (index : Nat)
  | malformedNumber (token : String)
  | numberTooLarge (token : String)
  | undeclared (name : String)
  | noFunction (name : String)
  | notFunction (v : Value)
  | notComparable (a b : Value)
  | floatNotWhole (x : Floating)
  | floatTooLarge (x : Floating)
  | stringNotInt (s : String)
  | stringNotFloat (s : String)
  | nameExpected (role : String) (got : Value)
  | parametersNotList (function : String)
  | loopVariableNotSymbol
  | emptyList (procedure : String)
  | stepNotPositive (step : Int)
  | emptySeparator
  | emptyText
  | invalidCode (code : Int)
  | emptyRange (low high : Int)
  | tooFewArguments (procedure : String) (required given : Nat)
  | divisionByZero
  | remainderByZero
  | overflow
  | importUnavailable
  | fileNotFound (path : String)
  | fileUnreadable (path : String) (fault : FileFault)
  | pathUnresolvable (path : String) (fault : FileFault)
  | circularImport (path : String)
  | assertionFailed (value form : Value)
  | assertionUnequal (a b : Value)

/-- The groups of errors that programs embedding the language tell apart. -/
inductive ErrorKind where
  | reading
  | unbound
  | naming
  | typing
  | arity
  | arithmetic
  | importing
  | circularity
  | assertion
deriving DecidableEq, Repr

namespace ScriptError

def kind : ScriptError → ErrorKind
  | unexpectedEnd | unterminatedList | unexpectedClose _ => .reading
  | malformedNumber _ | numberTooLarge _ => .reading
  | undeclared _ => .unbound
  | noFunction _ => .naming
  | notFunction _ | notComparable .. | floatNotWhole _ | floatTooLarge _ => .typing
  | stringNotInt _ | stringNotFloat _ | nameExpected .. | parametersNotList _ => .typing
  | loopVariableNotSymbol | emptyList _ | stepNotPositive _ | emptySeparator => .typing
  | emptyText | invalidCode _ | emptyRange .. => .typing
  | tooFewArguments .. => .arity
  | divisionByZero | remainderByZero | overflow => .arithmetic
  | importUnavailable | fileNotFound _ | fileUnreadable .. | pathUnresolvable .. => .importing
  | circularImport _ => .circularity
  | assertionFailed .. | assertionUnequal .. => .assertion

def floatText (x : Floating) : String := String.ofList x.sourceText

def intText (n : Int) : String := String.ofList (integerText n)

/-- A value and its variant. -/
def described (v : Value) : String := v.display ++ " (" ++ v.kindName ++ ")"

def message : ScriptError → String
  | unexpectedEnd => "Unexpected end of input"
  | unterminatedList => "Unterminated list: missing ')'"
  | unexpectedClose index => "Unexpected ')' at token " ++ toString index
  | malformedNumber token => "Malformed numeric literal: " ++ token
  | numberTooLarge token => "Numeric literal out of range: " ++ token
  | undeclared name => "Undeclared variable: " ++ name
  | noFunction name => "No function found with name: " ++ name
  | notFunction v => "Value " ++ described v ++ " is not a function"
  | notComparable a b => "Cannot compare " ++ described a ++ " with " ++ described b
  | floatNotWhole x => "Cannot convert float " ++ floatText x ++ " to int"
  | floatTooLarge x => "Float " ++ floatText x ++ " is out of integer range"
  | stringNotInt s => "Cannot convert string " ++ quoted s ++ " to int"
  | stringNotFloat s => "Cannot convert string " ++ quoted s ++ " to float"
  | nameExpected role got =>
    role ++ " name must be a symbol or string, got " ++ got.display
  | parametersNotList function => "Function " ++ function ++ " parameter list must be a list"
  | loopVariableNotSymbol => "for loop variable must be a symbol"
  | emptyList procedure => procedure ++ " requires a non-empty list"
  | stepNotPositive step => "list.seq step must be positive, got " ++ intText step
  | emptySeparator => "str.split separator must not be empty"
  | emptyText => "char.ord requires a non-empty string"
  | invalidCode code => "char.chr: " ++ intText code ++ " is not a valid code point"
  | emptyRange low high => "rnd.int: empty range [" ++ intText low ++ ", " ++ intText high ++ "]"
  | tooFewArguments procedure required given =>
    procedure ++ " requires at least " ++ toString required ++ " argument(s), got " ++
      toString given
  | divisionByZero => "Division by zero"
  | remainderByZero => "Remainder by zero"
  | overflow => "Integer overflow"
  | importUnavailable => "Import is not available in this environment"
  | fileNotFound path => "File not found for import: " ++ path
  | fileUnreadable path fault => "Failed to read " ++ path ++ ": " ++ fault.message
  | pathUnresolvable path fault =>
    "Failed to canonicalize path " ++ path ++ ": " ++ fault.message
  | circularImport path => "Circular import detected: " ++ path
  | assertionFailed value form =>
    "Condition validation failed for assert(" ++ value.display ++ "): " ++ form.source
  | assertionUnequal a b =>
    "Condition validation failed for assert(" ++ a.display ++ " == " ++ b.display ++ ")"

end ScriptError

/-- Failures outside the language: no handler of errors stops them. -/
inductive HostFault where
  /-- The remainder of an infinite dividend. -/
  | undefinedRemainder
  /-- An integer is past the largest float. -/
  | integerTooLarge
  /-- A text has more digits than are converted to an integer. -/
  | tooManyDigits (count : Nat)
  /-- The code is half of a pair, which a text can neither hold alone nor show. -/
  | loneSurrogate (code : Nat)
  /-- A list cannot have so many elements. -/
  | lengthTooLarge
  | outOfMemory
  /-- A path whose last name was to be extended has none. -/
  | emptyFileName (path : String)
  | invalidFileName (name : String)
  | file (fault : FileFault)
  | homeUnknown
  /-- A procedure of the embedding program looked for an argument that is not there. -/
  | noSuchArgument
  /-- Such a procedure was given something else in place of a symbol. -/
  | noSymbol (got : Value)
  | interrupted

namespace HostFault

/-- The name of a value's variant among the objects of the embedding program. -/
def objectName : Value → String
  | .nil => "NilType"
  | .bool _ => "bool"
  | .int _ => "int"
  | .float _ => "float"
  | .string _ => "str"
  | .symbol _ => "Symbol"
  | .list _ => "list"
  | .builtin _ | .host _ | .closure .. => "Function"

def message : HostFault → String
  | undefinedRemainder => "math domain error"
  | integerTooLarge => "int too large to convert to float"
  | tooManyDigits count =>
    "Exceeds the limit (" ++ toString digitLimit ++
      " digits) for integer string conversion: value has " ++ toString count ++
      " digits; use sys.set_int_max_str_digits() to increase the limit"
  | loneSurrogate code =>
    "'utf-8' codec can't encode character '\\u" ++ String.ofList (Text.hexDigits 4 code) ++
      "' in position 0: surrogates not allowed"
  | lengthTooLarge => "Python int too large to convert to C ssize_t"
  | outOfMemory => ""
  | emptyFileName path => "PosixPath(" ++ quoted path ++ ") has an empty name"
  | invalidFileName name => "Invalid name " ++ quoted name
  | file fault => fault.message
  | homeUnknown => "Could not determine home directory."
  | noSuchArgument => "list index out of range"
  | noSymbol got => quoted (objectName got) ++ " object has no attribute 'id'"
  | interrupted => ""

end HostFault

/-- The ways in which an evaluation ends other than with a value. -/
inductive Stop where
  | error (e : ScriptError)
  | exit (code : Int)
  | fault (f : HostFault)
  | outOfFuel

namespace Stop

def message : Stop → String
  | error e => e.message
  | exit code => "Program exited with code " ++ ScriptError.intText code
  | fault f => f.message
  | outOfFuel => "The evaluation was given up"

end Stop

end SmallLisp
