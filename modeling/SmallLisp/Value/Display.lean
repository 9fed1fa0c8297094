import SmallLisp.Value
import SmallLisp.Number.Spelling
import SmallLisp.Text.Quoted

/-! # Texts of values

A value has three texts: the one shown to people, the one that sources use and
that reads back, and the one that logs and listings of bindings use. -/

namespace SmallLisp

open Number

namespace Function

/-- Functions have one text in every setting. -/
def text : Function → String
  | .builtin b => "(native " ++ b.name ++ ")"
  | .host h => "(native " ++ h.name ++ ")"
  | .closure c => "(fn " ++ c.name ++ " (" ++ " ".intercalate c.params ++ "))"

end Function

namespace Value

def boolText (b : Bool) : String := if b then "true" else "false"

mutual

/-- The text shown to people: strings stand without quotes and list elements
are separated by commas. -/
def display : Value → String
  | nil => "nil"
  | bool b => boolText b
  | int n => String.ofList (integerText n)
  | float x => String.ofList x.displayText
  | string s => s
  | symbol name => name
  | list items => "(" ++ ", ".intercalate (displayAll items) ++ ")"
  | builtin b => (Function.builtin b).text
  | host h => (Function.host h).text
  | closure id name params body frame =>
    (Function.closure ⟨id, name, params, body, frame⟩).text

def displayAll : List Value → List String
  | [] => []
  | v :: vs => display v :: displayAll vs

end

mutual

/-- The text that sources use. A value without functions reads back from it. -/
def source : Value → String
  | nil => "nil"
  | bool b => boolText b
  | int n => String.ofList (integerText n)
  | float x => String.ofList x.sourceText
  | string s => String.ofList (Text.quoteSource s.toList)
  | symbol name => name
  | list items => "(" ++ " ".intercalate (sourceAll items) ++ ")"
  | builtin b => (Function.builtin b).text
  | host h => (Function.host h).text
  | closure id name params body frame =>
    (Function.closure ⟨id, name, params, body, frame⟩).text

def sourceAll : List Value → List String
  | [] => []
  | v :: vs => source v :: sourceAll vs

end

/-- A text between quotes, as messages and logs show it. -/
def quoted (s : String) : String := String.ofList (Text.quoteMessage s.toList)

mutual

/-- The text used in logs and in listings of bindings, where symbols and strings
differ at sight. -/
def inspect : Value → String
  | nil => "nil"
  | bool b => if b then "True" else "False"
  | int n => String.ofList (integerText n)
  | float x => String.ofList x.sourceText
  | string s => quoted s
  | symbol name => "Symbol(" ++ quoted name ++ ")"
  | list items => "[" ++ ", ".intercalate (inspectAll items) ++ "]"
  | builtin b => (Function.builtin b).text
  | host h => (Function.host h).text
  | closure id name params body frame =>
    (Function.closure ⟨id, name, params, body, frame⟩).text

def inspectAll : List Value → List String
  | [] => []
  | v :: vs => inspect v :: inspectAll vs

end

theorem sourceAll_eq_map (vs : List Value) : sourceAll vs = vs.map source := by
  induction vs with
  | nil => rfl
  | cons v vs ih => simp [sourceAll, ih]

end Value

end SmallLisp
