import SmallLisp.Reading.Atom

/-! # Coercions

Every value has a truth value and can serve as a list; as a number it may be
refused. -/

namespace SmallLisp

open Number

namespace Value

/-- Zeros, empty texts and lists, and nil are false. -/
def truth : Value → Bool
  | nil => false
  | bool b => b
  | int n => n != 0
  | float x => !x.isZero
  | string s => s != ""
  | symbol name => name != ""
  | list items => !items.isEmpty
  | builtin _ | host _ | closure .. => true

/-- A float loses its fraction, and a string has to be written as an integer. -/
def toInt : Value → Except Stop Int
  | bool b => .ok (if b then 1 else 0)
  | int n => .ok n
  | float (.nan mark) => .error (.error (.floatNotWhole (.nan mark)))
  | float (.number x) =>
    if x.isInfinite then .error (.error (.floatNotWhole (.number x)))
    else if inRange x.truncate then .ok x.truncate
    else .error (.error (.floatTooLarge (.number x)))
  | string s =>
    match Reading.readInteger s.toList with
    | .error stop => .error stop
    | .ok (some n) => .ok n
    | .ok none => .error (.error (.stringNotInt s))
  | _ => .ok 0

/-- The float nearest to an integer, which must not be past them all. -/
def floatOfInt (n : Int) : Except Stop Floating :=
  if (Binary64.ofInt n).isInfinite then .error (.fault .integerTooLarge) else .ok (.ofInt n)

/-- A list counts its elements, and a string has to be written as a number. -/
def toFloat : Value → Except Stop Floating
  | bool b => .ok (.ofInt (if b then 1 else 0))
  | int n => floatOfInt n
  | float x => .ok x
  | string s =>
    match Floating.ofText? s.toList with
    | some x => .ok x
    | none => .error (.error (.stringNotFloat s))
  | list items => .ok (.ofInt items.length)
  | _ => .ok (.ofInt 0)

/-- A value that is no list serves as the list of itself. -/
def toItems : Value → List Value
  | list items => items
  | v => [v]

def toFunction (v : Value) : Except ScriptError Function :=
  match v.function? with
  | some f => .ok f
  | none => .error (.notFunction v)

/-- Serving as a list undoes the folding, unless the folded element is a list itself. -/
theorem toItems_unwrap_list (items : List Value) (h : ∀ v, items = [v] → v.isList = false) :
    (list items).unwrap.toItems = items := by
  match items, h with
  | [], _ => rfl
  | [v], h => cases v <;> first | rfl | simp [isList] at h
  | _ :: _ :: _, _ => rfl

end Value

end SmallLisp
