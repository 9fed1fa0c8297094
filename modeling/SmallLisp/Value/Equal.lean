import SmallLisp.Value

/-! # Equality of values

Values of one variant are equal when their contents are. Functions are equal
only to themselves, and so are NaNs; the two zeros are equal. -/

namespace SmallLisp

open Number

namespace Number.Floating

/-- Equality of numbers; a NaN is the same only as the NaN with its mark. -/
def same : Floating → Floating → Bool
  | number x, number y => x == y || (x.isZero && y.isZero)
  | nan (some a), nan (some b) => a == b
  | _, _ => false

end Number.Floating

namespace Value

mutual

def same : Value → Value → Bool
  | nil, nil => true
  | bool a, bool b => a == b
  | int a, int b => a == b
  | float x, float y => x.same y
  | string s, string t => s == t
  | symbol s, symbol t => s == t
  | list xs, list ys => sameAll xs ys
  | builtin a, builtin b => a == b
  | host a, host b => a.id == b.id
  | closure a .., closure b .. => a == b
  | _, _ => false

def sameAll : List Value → List Value → Bool
  | [], [] => true
  | x :: xs, y :: ys => same x y && sameAll xs ys
  | _, _ => false

end

end Value

end SmallLisp
