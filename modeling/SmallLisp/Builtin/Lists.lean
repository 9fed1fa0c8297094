import SmallLisp.Builtin.Arguments

/-! # Lists

Where a list is expected, another value serves as the list of itself, so that a
list of one element can still be used after it was folded into the element. -/

namespace SmallLisp

open EvalM Number

/-- The integers from `start` up to, but not including, `stop`, by positive steps. -/
def integersFrom (start step : Int) : Nat → List Value
  | 0 => []
  | count + 1 => .int start :: integersFrom (start + step) step count

/-- How many integers there are from `start` up to `stop`. -/
def sequenceLength (start stop step : Int) : Nat :=
  if start < stop then ((stop - start + step - 1) / step).toNat else 0

/-- A list of so many elements cannot be stored. -/
def storageLimit : Nat := 0x10000000000

def sequenceItems (start stop step : Int) : Except HostFault (List Value) :=
  let length := sequenceLength start stop step
  if greatestInteger < length then .error .lengthTooLarge
  else if storageLimit ≤ length then .error .outOfMemory
  else .ok (integersFrom start step length)

namespace Evaluator

variable (ev : Evaluator)

def head (args : List Value) (frame : FrameId) : EvalM Value := do
  let items ← ev.listArgument "head" args 0 frame
  match items.head? with
  | some v => pure v
  | none => fail (.emptyList "head")

def last (args : List Value) (frame : FrameId) : EvalM Value := do
  let items ← ev.listArgument "last" args 0 frame
  match items.getLast? with
  | some v => pure v
  | none => fail (.emptyList "last")

def sequence (args : List Value) (frame : FrameId) : EvalM Value := do
  let start ← ev.intArgument "list.seq" args 0 frame
  let stop ← ev.intArgument "list.seq" args 1 frame
  let step ← if args.length ≤ 2 then pure 1 else ev.intArgument "list.seq" args 2 frame
  if step ≤ 0 then fail (.stepNotPositive step)
  else
    match sequenceItems start stop step with
    | .ok items => pure (.list items)
    | .error fault => EvalM.stop (.fault fault)

def count (args : List Value) (frame : FrameId) : EvalM Value := do
  let items ← ev.listArgument "list.len" args 0 frame
  pure (.int items.length)

def mapItems (p : Function) (frame : FrameId) : List Value → EvalM (List Value)
  | [] => pure []
  | item :: items => do
    let v ← ev.callValues p [item] frame
    let vs ← mapItems p frame items
    pure (v :: vs)

def filterItems (p : Function) (frame : FrameId) : List Value → EvalM (List Value)
  | [] => pure []
  | item :: items => do
    let v ← ev.callValues p [item] frame
    let kept ← filterItems p frame items
    pure (if v.truth then item :: kept else kept)

def map (args : List Value) (frame : FrameId) : EvalM Value := do
  let p ← ev.functionArgument "list.map" args 0 frame
  let items ← ev.listArgument "list.map" args 1 frame
  let vs ← ev.mapItems p frame items
  pure (.list vs)

def filter (args : List Value) (frame : FrameId) : EvalM Value := do
  let p ← ev.functionArgument "list.filter" args 0 frame
  let items ← ev.listArgument "list.filter" args 1 frame
  let vs ← ev.filterItems p frame items
  pure (.list vs)

end Evaluator

end SmallLisp
