import SmallLisp.Error

/-! # Order of values

Numbers are ordered by their exact values, texts by code points, and lists by
their first difference, a list that is extended by another coming before it.
Other pairs cannot be compared. -/

namespace SmallLisp

open Number

namespace Value

/-- Where a number stands: on which side infinitely far, and the exact value in
units. -/
abbrev NumericKey := Int × Int

def keyOfInt (n : Int) : NumericKey := (0, n * unitsInOne)

def keyOfFloat (x : Binary64) : NumericKey :=
  if x.isInfinite then (if x.negative then -1 else 1, 0) else (0, x.signedUnits)

def compareKeys (a b : NumericKey) : Ordering :=
  (compare a.1 b.1).then (compare a.2 b.2)

/-- The key of a number that is not NaN. -/
def numericKey? : Value → Option NumericKey
  | int n => some (keyOfInt n)
  | float (.number x) => some (keyOfFloat x)
  | _ => none

def isNumber : Value → Bool
  | int _ | float _ => true
  | _ => false

/-- Numbers by value; a NaN counts as equal to every number. -/
def compareNumbers (a b : Value) : Ordering :=
  match numericKey? a, numericKey? b with
  | some x, some y => compareKeys x y
  | _, _ => .eq

mutual

def compare : Value → Value → Except ScriptError Ordering
  | list xs, list ys => compareAll xs ys
  | bool a, bool b => .ok (Ord.compare a b)
  | string s, string t => .ok (Ord.compare s t)
  | a, b =>
    if a.isNumber && b.isNumber then .ok (compareNumbers a b) else .error (.notComparable a b)

def compareAll : List Value → List Value → Except ScriptError Ordering
  | [], [] => .ok .eq
  | [], _ :: _ => .ok .lt
  | _ :: _, [] => .ok .gt
  | x :: xs, y :: ys =>
    match compare x y with
    | .ok .eq => compareAll xs ys
    | outcome => outcome

end

end Value

namespace Comparison

def accepts : Comparison → Ordering → Bool
  | less, o => o.isLT
  | greater, o => o.isGT
  | lessEqual, o => o.isLE
  | greaterEqual, o => o.isGE

end Comparison

end SmallLisp
