import SmallLisp.World

/-! # Evaluation of forms

What a form means, given the means to evaluate the forms inside it and to
perform a built-in procedure. An atom stands for itself, a symbol for its
binding, and a list for a call, a block or data, as its first element decides. -/

namespace SmallLisp

open EvalM

/-- The means that the evaluation of a form has: to evaluate forms in frames, and
to perform built-in procedures on forms. `fuel` bounds the repetitions of a
loop. -/
structure Evaluator where
  machine : Machine
  fuel : Nat
  evaluate : Value → FrameId → EvalM Value
  perform : Builtin → List Value → FrameId → EvalM Value

namespace Evaluator

variable (ev : Evaluator)

/-- The values of forms, from left to right. -/
def evaluateAll : List Value → FrameId → EvalM (List Value)
  | [], _ => pure []
  | form :: forms, frame => do
    let v ← ev.evaluate form frame
    let vs ← evaluateAll forms frame
    pure (v :: vs)

/-- What a procedure of the embedding program does with its argument forms. -/
def performHost (h : HostProcedure) (args : List Value) (frame : FrameId) : EvalM Value :=
  match h.kind, args with
  | .inert, _ => pure .nil
  | .count, args => pure (.int args.length)
  | .forms, args => pure (.list args)
  | .evaluateAll, args => do
    let vs ← ev.evaluateAll args frame
    pure (.list vs)
  | _, [] => stop (.fault .noSuchArgument)
  | .quote, form :: _ => pure form
  | .evaluateTwice, form :: _ => do
    let v ← ev.evaluate form frame
    ev.evaluate v frame
  | .assign, [.symbol _] => stop (.fault .noSuchArgument)
  | .assign, .symbol name :: form :: _ => do
    let v ← ev.evaluate form frame
    setVariable frame name v
    pure .nil
  | .assign, got :: _ => stop (.fault (.noSymbol got))

/-- A native procedure gets its arguments as forms. It runs in the caller's
frame or in a fresh frame inside it. -/
def applyNative (p : Function) (args : List Value) (frame : FrameId)
    (body : FrameId → EvalM Value) : EvalM Value := do
  let own ← if p.inCallerFrame then pure frame else makeChild frame
  note (.nativeCalled p.name args.length)
  body own

/-- Binds parameters in `own` to the values that forms have in `caller`; surplus
forms are not evaluated, and surplus parameters stay unbound. -/
def bindForms : List String → List Value → FrameId → FrameId → EvalM Unit
  | name :: names, form :: forms, own, caller => do
    let v ← ev.evaluate form caller
    setVariable own name v
    bindForms names forms own caller
  | _, _, _, _ => pure ()

def bindValues : List String → List Value → FrameId → EvalM Unit
  | name :: names, v :: vs, own => do
    setVariable own name v
    bindValues names vs own
  | _, _, _ => pure ()

/-- A closure runs in a fresh frame inside the one in which it was made. -/
def apply (p : Function) (args : List Value) (frame : FrameId) : EvalM Value :=
  match p with
  | .builtin b => applyNative p args frame (ev.perform b args)
  | .host h => applyNative p args frame (ev.performHost h args)
  | .closure c => do
    let own ← makeChild c.frame
    ev.bindForms c.params args own frame
    note (.closureCalled c.name c.params)
    ev.evaluate c.body own

/-- A call whose arguments are forms. -/
def call (p : Function) (args : List Value) (frame : FrameId) : EvalM Value := do
  note (.evaluating p.name args.length)
  let v ← ev.apply p args frame
  note (.returned v.unwrap)
  pure v.unwrap

/-- The name that stands for the `i`-th value of a call of a native procedure. No
source can write it. -/
def argumentName (i : Nat) : String := " arg" ++ toString i

/-- Binds the values in `own` and gives the symbols that stand for them. -/
def holdValues : Nat → List Value → FrameId → EvalM (List Value)
  | _, [], _ => pure []
  | i, v :: vs, own => do
    setVariable own (argumentName i) v
    let forms ← holdValues (i + 1) vs own
    pure (.symbol (argumentName i) :: forms)

/-- A call whose arguments are values. A native procedure takes forms only, so it
gets symbols that a frame of their own binds to the values. -/
def applyValues (p : Function) (values : List Value) (frame : FrameId) : EvalM Value :=
  match p with
  | .closure c => do
    let own ← makeChild c.frame
    bindValues c.params values own
    ev.evaluate c.body own
  | .builtin b => do
    let holder ← makeChild frame
    let forms ← holdValues 0 values holder
    applyNative p forms holder (ev.perform b forms)
  | .host h => do
    let holder ← makeChild frame
    let forms ← holdValues 0 values holder
    applyNative p forms holder (ev.performHost h forms)

def callValues (p : Function) (values : List Value) (frame : FrameId) : EvalM Value := do
  let v ← ev.applyValues p values frame
  pure v.unwrap

def callNamed (name : String) (args : List Value) (frame : FrameId) : EvalM Value := do
  let p ← functionOf frame name
  ev.call p args frame

/-- The value of the last of several forms; `v` if there are none. -/
def evaluateLast (v : Value) : List Value → FrameId → EvalM Value
  | [], _ => pure v
  | form :: forms, frame => do
    let v ← ev.evaluate form frame
    evaluateLast v forms frame

/-- The rest of a block whose first form has the value `v`. -/
def evaluateBlock (v : Value) (rest : List Value) (frame : FrameId) : EvalM Value := do
  let v ← ev.evaluateLast v rest frame
  pure v.unwrap

/-- A list form. With a list in front it is a block, unless the front gives a
function and some argument is no list: then it is a call. -/
def evaluateList (items : List Value) (frame : FrameId) : EvalM Value :=
  match items with
  | [] => pure .nil
  | .symbol name :: rest => ev.callNamed name rest frame
  | .list inner :: rest => do
    let first ← ev.evaluate (.list inner) frame
    match first.function? with
    | some p =>
      if rest.all Value.isList then ev.evaluateBlock first rest frame
      else ev.call p rest frame
    | none => ev.evaluateBlock first rest frame
  | first :: rest =>
    match first.function? with
    | some p => ev.call p rest frame
    | none => do
      let vs ← ev.evaluateAll (first :: rest) frame
      pure (.list vs)

/-- A form. A function that stands alone is called without arguments. -/
def evaluateForm (form : Value) (frame : FrameId) : EvalM Value :=
  match form with
  | .list items => ev.evaluateList items frame
  | .symbol name => valueOf frame name
  | _ =>
    match form.function? with
    | some p => ev.call p [] frame
    | none => pure form

/-- The forms of a source one after another; the value is that of the last, and
`v` if there are none. -/
def evaluateForms (v : Value) : List Value → FrameId → EvalM Value
  | [], _ => pure v
  | form :: forms, frame => do
    let form ← marked form
    let v ← ev.evaluate form frame
    evaluateForms v forms frame

end Evaluator

end SmallLisp
