import SmallLisp.Severity

/-! # Built-in procedures

The procedures that every session starts with, as names for what they do. What
each does is defined by its family. -/

namespace SmallLisp

inductive Conversion where
  | string
  | int
  | float
  | bool
  | list
deriving DecidableEq, Repr

inductive Arithmetic where
  | add
  | sub
  | mul
  | div
  | rem
deriving DecidableEq, Repr

inductive Comparison where
  | less
  | greater
  | lessEqual
  | greaterEqual
deriving DecidableEq, Repr

inductive Builtin where
  | function
  | define
  | undefine
  | branch
  | repeatWhile
  | forEach
  | print
  | printLine
  | printFormat
  | readLine
  | log (severity : Severity)
  | convert (target : Conversion)
  | arithmetic (op : Arithmetic)
  | equal
  | notEqual
  | compare (relation : Comparison)
  | and
  | or
  | not
  | head
  | last
  | sequence
  | count
  | map
  | filter
  | trim
  | trimLeft
  | trimRight
  | lower
  | upper
  | format
  | split
  | join
  | contains
  | startsWith
  | endsWith
  | replace
  | byteLength
  | charCode
  | charOfCode
  | callByName
  | listProcedures
  | showBindings
  | assert
  | assertEqual
  | random
  | exit
  | importFile
deriving DecidableEq, Repr

namespace Builtin

/-- The name a built-in procedure is called by. -/
def name : Builtin → String
  | function => "fn"
  | define => "def"
  | undefine => "undef"
  | branch => "if"
  | repeatWhile => "while"
  | forEach => "for"
  | print => "print"
  | printLine => "io.print"
  | printFormat => "io.printf"
  | readLine => "io.readline"
  | log .debug => "log.debug"
  | log .info => "log.info"
  | log .warning => "log.warn"
  | log .error => "log.error"
  | convert .string => "cast.string"
  | convert .int => "cast.int"
  | convert .float => "cast.float"
  | convert .bool => "cast.bool"
  | convert .list => "cast.list"
  | arithmetic .add => "+"
  | arithmetic .sub => "-"
  | arithmetic .mul => "*"
  | arithmetic .div => "/"
  | arithmetic .rem => "%"
  | equal => "=="
  | notEqual => "!="
  | compare .less => "<"
  | compare .greater => ">"
  | compare .lessEqual => "<="
  | compare .greaterEqual => ">="
  | and => "&&"
  | or => "||"
  | not => "not"
  | head => "head"
  | last => "last"
  | sequence => "list.seq"
  | count => "list.len"
  | map => "list.map"
  | filter => "list.filter"
  | trim => "str.trim"
  | trimLeft => "str.trim_left"
  | trimRight => "str.trim_right"
  | lower => "str.to_lower"
  | upper => "str.to_upper"
  | format => "str.format"
  | split => "str.split"
  | join => "str.join"
  | contains => "str.contains"
  | startsWith => "str.starts_with"
  | endsWith => "str.ends_with"
  | replace => "str.replace"
  | byteLength => "str.len"
  | charCode => "char.ord"
  | charOfCode => "char.chr"
  | callByName => "internal.func.nat.call"
  | listProcedures => "internal.func.list"
  | showBindings => "internal.printenv"
  | assert => "assert"
  | assertEqual => "assert.eq"
  | random => "rnd.int"
  | exit => "exit"
  | importFile => "import"

/-- Does the procedure run in its caller's own frame, rather than in a fresh one? -/
def inCallerFrame : Builtin → Bool
  | function | define | undefine | branch | repeatWhile | forEach => true
  | callByName | listProcedures | showBindings => true
  | assert | assertEqual | importFile => true
  | _ => false

/-- Every built-in procedure, in the order in which sessions define them. -/
def all : List Builtin :=
  [function, define, undefine, branch, repeatWhile, forEach,
    print, printLine, printFormat, readLine,
    log .debug, log .info, log .warning, log .error,
    convert .string, convert .int, convert .float, convert .bool, convert .list,
    arithmetic .add, arithmetic .sub, arithmetic .mul, arithmetic .div, arithmetic .rem,
    equal, notEqual,
    compare .less, compare .greater, compare .lessEqual, compare .greaterEqual,
    and, or, not,
    head, last, sequence, count, map, filter,
    trim, trimLeft, trimRight, lower, upper, format, split, join,
    contains, startsWith, endsWith, replace, byteLength, charCode, charOfCode,
    callByName, listProcedures, showBindings,
    assert, assertEqual, random, exit, importFile]

theorem mem_all (b : Builtin) : b ∈ all := by
  cases b <;> first | decide | (rename_i x; cases x <;> decide)

/-- No two built-in procedures share a name. -/
theorem nodup_name_all : (all.map name).Nodup := by decide

end Builtin

end SmallLisp
