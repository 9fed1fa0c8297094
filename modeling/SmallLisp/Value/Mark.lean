import SmallLisp.Value

/-! # Marks of NaNs

A NaN that is written in a program, or that a computation produces, is given a
mark of its own when it enters the program's values. Marks that are there
already stay. -/

namespace SmallLisp

open Number

namespace Number.Floating

/-- The value with a mark if it needs one, and the next free mark. -/
def mark (next : Nat) : Floating → Floating × Nat
  | nan none => (nan (some next), next + 1)
  | x => (x, next)

end Number.Floating

namespace Value

mutual

def mark (next : Nat) : Value → Value × Nat
  | float x => let (x, next) := x.mark next; (float x, next)
  | list items => let (items, next) := markAll next items; (list items, next)
  | closure id name params body frame =>
    let (body, next) := mark next body
    (closure id name params body frame, next)
  | v => (v, next)

def markAll (next : Nat) : List Value → List Value × Nat
  | [] => ([], next)
  | v :: vs =>
    let (v, next) := mark next v
    let (vs, next) := markAll next vs
    (v :: vs, next)

end

end Value

end SmallLisp
