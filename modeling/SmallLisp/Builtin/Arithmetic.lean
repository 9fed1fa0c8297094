import SmallLisp.Builtin.Arguments

/-! # Arithmetic

Operators fold their operands from the left. A float among them makes the
result a float; otherwise the result is an integer, exact at every step or
refused. Addition joins texts when a string is among the operands. -/

namespace SmallLisp

open EvalM Number

namespace Arithmetic

def name (op : Arithmetic) : String := (Builtin.arithmetic op).name

/-- Exact on integers; division is truncated toward zero and the remainder has
the sign of the dividend. -/
def onInts : Arithmetic → Int → Int → Except Stop Int
  | add, a, b => .ok (a + b)
  | sub, a, b => .ok (a - b)
  | mul, a, b => .ok (a * b)
  | div, a, b => if b = 0 then .error (.error .divisionByZero) else .ok (a.tdiv b)
  | rem, a, b => if b = 0 then .error (.error .remainderByZero) else .ok (a.tmod b)

/-- The remainder of floats: exact, and not defined for an infinite dividend. -/
def remainder : Floating → Floating → Except Stop Floating
  | .number x, .number y =>
    if x.isInfinite then .error (.fault .undefinedRemainder) else .ok (.number (x.rem y))
  | _, _ => .ok (.nan none)

def onFloats : Arithmetic → Floating → Floating → Except Stop Floating
  | add, x, y => .ok (x.add y)
  | sub, x, y => .ok (x.sub y)
  | mul, x, y => .ok (x.mul y)
  | div, x, y => if y.isZero then .error (.error .divisionByZero) else .ok (x.div y)
  | rem, x, y => if y.isZero then .error (.error .remainderByZero) else remainder x y

/-- Folds the rest of the operands into `a`, each converted just before its step;
the result of every step lies in the range. -/
def foldInts (op : Arithmetic) (a : Int) : List Value → Except Stop Int
  | [] => .ok a
  | v :: vs => do
    let b ← v.toInt
    let c ← op.onInts a b
    if inRange c then foldInts op c vs else .error (.error .overflow)

def foldFloats (op : Arithmetic) (x : Floating) : List Value → Except Stop Floating
  | [] => .ok x
  | v :: vs => do
    let y ← v.toFloat
    let z ← op.onFloats x y
    foldFloats op z vs

/-- The operands of a fold; a sum of floats starts from zero. -/
def onOperands (op : Arithmetic) : List Value → Except Stop Value
  | [] => .ok .nil
  | v :: vs =>
    if op = add && (v :: vs).any Value.isString then
      .ok (.string (String.join ((v :: vs).map Value.display)))
    else if (v :: vs).any Value.isFloat then
      if op = add then (foldFloats add (.ofInt 0) (v :: vs)).map .float
      else do
        let x ← v.toFloat
        (foldFloats op x vs).map .float
    else do
      let a ← v.toInt
      (foldInts op a vs).map .int

end Arithmetic

namespace Evaluator

variable (ev : Evaluator)

def arithmetic (op : Arithmetic) (args : List Value) (frame : FrameId) : EvalM Value := do
  require op.name 1 args
  let vs ← ev.evaluateAll args frame
  let v ← ofOutcome (op.onOperands vs)
  marked v

end Evaluator

end SmallLisp
