import SmallLisp.Number.Numeral
import SmallLisp.Number.Binary64

/-! # Decimal numbers

Numbers written in decimal, with an optional fraction and exponent, and the
floating-point number nearest to each. -/

namespace SmallLisp.Number

/-- The number `coefficient · 10 ^ exponent`, with a sign. -/
structure Decimal where
  negative : Bool
  coefficient : Nat
  exponent : Int
deriving DecidableEq, Repr

namespace Decimal

/-- The power of ten above the number: `10 ^ (magnitude - 1) ≤ |d| < 10 ^ magnitude`
unless `d` is zero. -/
def magnitude (d : Decimal) : Int := (decimalDigits d.coefficient).length + d.exponent

/-- The nearest floating-point number. Numbers of at least `10³¹⁰` are past the
largest finite one and those below `10⁻³³⁰` nearest to zero, so that no large
power is formed for them. -/
def toBinary64 (d : Decimal) : Binary64 :=
  if d.coefficient = 0 then .zero d.negative
  else if 310 < d.magnitude then .infinity d.negative
  else if d.magnitude < -330 then .zero d.negative
  else
    let scaled := d.coefficient * unitsInOne
    if 0 ≤ d.exponent then .nearest d.negative (scaled * Nat.pow 10 d.exponent.toNat) 1
    else .nearest d.negative scaled (Nat.pow 10 (-d.exponent).toNat)

end Decimal

/-- The exponent after the letter `e`: a sign, if any, and digits to the end. -/
def exponent? (cs : List Char) : Option Int :=
  let (negative, digits) := splitSign cs
  if digits.isEmpty || !digits.all isDecimalDigit then none
  else
    let n : Int := numeral 10 digits
    some (if negative then -n else n)

/-- An unsigned decimal number: digits with at most one point among them, and
an optional exponent. -/
def decimal? (negative : Bool) (cs : List Char) : Option Decimal :=
  let whole := cs.takeWhile isDecimalDigit
  let afterWhole := cs.dropWhile isDecimalDigit
  let (fraction, rest) :=
    match afterWhole with
    | '.' :: cs => (cs.takeWhile isDecimalDigit, cs.dropWhile isDecimalDigit)
    | cs => ([], cs)
  if whole.isEmpty && fraction.isEmpty then none
  else
    let coefficient := numeral 10 (whole ++ fraction)
    match rest with
    | [] => some ⟨negative, coefficient, -fraction.length⟩
    | e :: cs =>
      if e == 'e' || e == 'E' then
        (exponent? cs).map fun n => ⟨negative, coefficient, n - fraction.length⟩
      else none

end SmallLisp.Number
