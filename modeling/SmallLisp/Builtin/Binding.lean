import SmallLisp.Builtin.Arguments

/-! # Definitions and control

Procedures that define names in the frame of their caller, and those that decide
which of their arguments are evaluated, and how often. -/

namespace SmallLisp

open EvalM

/-- The name of a closure that was made without a name. -/
def anonymous : String := "anonymous"

/-- Makes a closure and, unless it is anonymous, defines it as a procedure. -/
def makeClosure (name : String) (params : List String) (body : Value) (frame : FrameId) :
    EvalM Value := do
  let id ← freshId
  let c : Closure := ⟨id, name, params, body, frame⟩
  if name = anonymous then pure (Function.closure c).toValue
  else do
    note (.functionDefined name)
    defineProcedure frame name (.closure c)
    pure (Function.closure c).toValue

/-- The parameter list and body of a function; `required` arguments in all. -/
def functionForms (name : String) (required given : Nat) (forms : List Value) (frame : FrameId) :
    EvalM Value :=
  match forms with
  | .list params :: body :: _ => do
    let params ← ofExcept (namesOf "Parameter" params)
    makeClosure name params body frame
  | _ :: _ :: _ => fail (.parametersNotList name)
  | _ => fail (.tooFewArguments "fn" required given)

/-- A function with or without a name. -/
def makeFunction (args : List Value) (frame : FrameId) : EvalM Value :=
  match args with
  | [] => fail (.tooFewArguments "fn" 1 0)
  | .list params :: rest =>
    functionForms anonymous 2 args.length (.list params :: rest) frame
  | first :: rest => do
    let name ← ofExcept (nameOf "Function" first)
    functionForms name 3 args.length rest frame

namespace Evaluator

variable (ev : Evaluator)

/-- The nearest variable of the name is changed; without one, a new variable
appears in the frame. -/
def define (args : List Value) (frame : FrameId) : EvalM Value :=
  match args with
  | [] => fail (.tooFewArguments "def" 1 0)
  | first :: rest => do
    let name ← ofExcept (nameOf "Variable" first)
    let v ← match rest with
      | [] => pure .nil
      | form :: _ => ev.evaluate form frame
    note (.variableSet name)
    updateVariable frame name v
    pure v

def branch (args : List Value) (frame : FrameId) : EvalM Value :=
  match args with
  | condition :: consequence :: rest => do
    let v ← ev.evaluate condition frame
    if v.truth then ev.evaluate consequence frame
    else
      match rest with
      | [] => pure .nil
      | alternative :: _ => ev.evaluate alternative frame
  | _ => fail (.tooFewArguments "if" 2 args.length)

/-- Evaluates the body, if there is one, as long as the condition holds. -/
def repeatWhile (condition : Value) (body : Option Value) (frame : FrameId) : Nat → EvalM Value
  | 0 => stop .outOfFuel
  | fuel + 1 => do
    let v ← ev.evaluate condition frame
    if v.truth then do
      let _ ← match body with
        | some form => ev.evaluate form frame
        | none => pure .nil
      repeatWhile condition body frame fuel
    else pure .nil

/-- Evaluates the body with the variable set to each item in turn. -/
def forEach (name : String) (body : Value) (frame : FrameId) : List Value → EvalM Value
  | [] => pure .nil
  | item :: items => do
    setVariable frame name item
    let _ ← ev.evaluate body frame
    forEach name body frame items

end Evaluator

/-- The variable of a loop, which may stand in a list of its own. -/
def loopVariable : Value → Except ScriptError String
  | .symbol name => .ok name
  | .list [.symbol name] => .ok name
  | _ => .error .loopVariableNotSymbol

namespace Evaluator

variable (ev : Evaluator)

def forLoop (args : List Value) (frame : FrameId) : EvalM Value :=
  match args with
  | variableForm :: sequence :: body :: _ => do
    let name ← ofExcept (loopVariable variableForm)
    let v ← ev.evaluate sequence frame
    ev.forEach name body frame v.toItems
  | _ => fail (.tooFewArguments "for" 3 args.length)

def whileLoop (args : List Value) (frame : FrameId) : EvalM Value :=
  match args with
  | condition :: rest => ev.repeatWhile condition rest.head? frame ev.fuel
  | [] => fail (.tooFewArguments "while" 1 0)

end Evaluator

def undefine (args : List Value) (frame : FrameId) : EvalM Value :=
  match args with
  | form :: _ => do
    let name ← ofExcept (nameOf "Variable" form)
    eraseVariable frame name
    pure .nil
  | [] => fail (.tooFewArguments "undef" 1 0)

end SmallLisp
