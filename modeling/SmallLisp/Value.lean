import SmallLisp.Builtin
import SmallLisp.Number.Floating

/-! # Values

Values and the forms that programs are read into share one type: a list is data
or a call, and a symbol is a name to look up. -/

namespace SmallLisp

open Number

/-- Frames are numbered in the order in which they are made. -/
abbrev FrameId := Nat

/-- What a procedure supplied by the embedding program does. -/
inductive HostKind where
  /-- Gives nil. -/
  | inert
  /-- Gives its first argument as a form. -/
  | quote
  /-- Binds its first argument, a symbol, to the value of the second. -/
  | assign
  /-- Counts its arguments. -/
  | count
  /-- Gives its arguments as forms. -/
  | forms
  /-- Gives the values of its arguments. -/
  | evaluateAll
  /-- Evaluates its first argument, and evaluates the result again. -/
  | evaluateTwice
deriving DecidableEq, Repr

structure HostProcedure where
  id : Nat
  name : String
  kind : HostKind
  inCallerFrame : Bool
deriving DecidableEq, Repr

/-- A closure holds the frame in which it was made; its `id` tells it apart from
every other closure. -/
inductive Value where
  | nil
  | bool (b : Bool)
  | int (n : Int)
  | float (x : Floating)
  | string (s : String)
  | symbol (name : String)
  | list (items : List Value)
  | builtin (b : Builtin)
  | host (h : HostProcedure)
  | closure (id : Nat) (name : String) (params : List String) (body : Value) (frame : FrameId)

instance : Inhabited Value := ⟨.nil⟩

structure Closure where
  id : Nat
  name : String
  params : List String
  body : Value
  frame : FrameId

/-- The values that can be called. -/
inductive Function where
  | builtin (b : Builtin)
  | host (h : HostProcedure)
  | closure (c : Closure)

namespace Function

def toValue : Function → Value
  | builtin b => .builtin b
  | host h => .host h
  | closure c => .closure c.id c.name c.params c.body c.frame

def name : Function → String
  | builtin b => b.name
  | host h => h.name
  | closure c => c.name

/-- Is the procedure supplied from outside the language? -/
def isNative : Function → Bool
  | closure _ => false
  | _ => true

def inCallerFrame : Function → Bool
  | builtin b => b.inCallerFrame
  | host h => h.inCallerFrame
  | closure _ => false

end Function

namespace Value

def function? : Value → Option Function
  | builtin b => some (.builtin b)
  | host h => some (.host h)
  | closure id name params body frame => some (.closure ⟨id, name, params, body, frame⟩)
  | _ => none

@[simp] theorem function?_toValue (f : Function) : f.toValue.function? = some f := by
  cases f <;> rfl

theorem toValue_of_function? {v : Value} {f : Function} (h : v.function? = some f) :
    f.toValue = v := by
  cases v <;> simp only [function?, reduceCtorEq, Option.some.injEq] at h <;> subst h <;> rfl

def isList : Value → Bool
  | list _ => true
  | _ => false

/-- A property of all values that passes from the elements of a list to the list. -/
theorem list_induction {P : Value → Prop} (atom : ∀ v, v.isList = false → P v)
    (list : ∀ items, (∀ v ∈ items, P v) → P (.list items)) : ∀ v, P v
  | .list items => list items fun v _ => list_induction atom list v
  | .nil | .bool _ | .int _ | .float _ | .string _ | .symbol _ | .builtin _ | .host _
  | .closure .. => atom _ rfl

def isString : Value → Bool
  | string _ => true
  | _ => false

def isFloat : Value → Bool
  | float _ => true
  | _ => false

/-- A list of one element is folded into that element. -/
def unwrap : Value → Value
  | list [v] => v
  | v => v

/-- The name of a value's variant. -/
def kindName : Value → String
  | nil => "nil"
  | bool _ => "bool"
  | int _ => "integer"
  | float _ => "float"
  | string _ => "string"
  | symbol _ => "symbol"
  | list _ => "list"
  | builtin _ | host _ | closure .. => "function"

end Value

end SmallLisp
