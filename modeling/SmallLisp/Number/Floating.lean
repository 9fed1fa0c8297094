import SmallLisp.Number.Decimal

/-! # Floating-point values

A floating-point value is a number or NaN. NaNs are told apart by marks, so that
one NaN passed around can be recognized although none is equal to another. -/

namespace SmallLisp.Number

/-- A NaN without a mark is the same as no other. -/
inductive Floating where
  | number (x : Binary64)
  | nan (mark : Option Nat)
deriving DecidableEq

namespace Floating

def ofInt (n : Int) : Floating := .number (.ofInt n)

def ofOption : Option Binary64 → Floating
  | some x => .number x
  | none => .nan none

def isNaN : Floating → Bool
  | .number _ => false
  | .nan _ => true

def isZero : Floating → Bool
  | .number x => x.isZero
  | .nan _ => false

def lift (op : Binary64 → Binary64 → Option Binary64) : Floating → Floating → Floating
  | .number x, .number y => ofOption (op x y)
  | _, _ => .nan none

def add : Floating → Floating → Floating := lift Binary64.add?
def sub : Floating → Floating → Floating := lift Binary64.sub?
def mul : Floating → Floating → Floating := lift Binary64.mul?
def div : Floating → Floating → Floating := lift Binary64.div?

/-- A decimal number, or one of the names of infinity and NaN in any case, after
an optional sign. -/
def ofText? (cs : List Char) : Option Floating :=
  let (negative, body) := splitSign cs
  let name := body.map Char.toLower
  if name = ['i', 'n', 'f'] || name = ['i', 'n', 'f', 'i', 'n', 'i', 't', 'y'] then
    some (.number (.infinity negative))
  else if name = ['n', 'a', 'n'] then some (.nan none)
  else (decimal? negative body).map fun d => .number d.toBinary64

end Floating

end SmallLisp.Number
