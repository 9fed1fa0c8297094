import SmallLisp.Number.Shortest
import SmallLisp.Number.Floating

/-! # Spelling of floating-point numbers

Numbers are written with their shortest digits. Sources use an exponent for very
large and very small numbers; displays never do. -/

namespace SmallLisp.Number

/-- Digits without the zeros at their end; one digit is kept. -/
def dropEndZeros (digits : List Char) : List Char :=
  match (digits.reverse.dropWhile (· == '0')).reverse with
  | [] => ['0']
  | kept => kept

/-- The digits with the decimal point after the first `point` of them. -/
def positional (digits : List Char) (point : Int) : List Char :=
  if point ≤ 0 then
    '0' :: '.' :: List.replicate (-point).toNat '0' ++ digits
  else if digits.length ≤ point.toNat then
    digits ++ List.replicate (point.toNat - digits.length) '0' ++ ['.', '0']
  else digits.take point.toNat ++ '.' :: digits.drop point.toNat

/-- One digit before the point, and an exponent with a sign and at least two
digits. -/
def exponential (digits : List Char) (point : Int) : List Char :=
  let exponent := point - 1
  let magnitude := decimalDigits exponent.natAbs
  let fraction := match digits.drop 1 with
    | [] => []
    | rest => '.' :: rest
  digits.take 1 ++ fraction ++ 'e' :: (if exponent < 0 then '-' else '+') ::
    (if magnitude.length < 2 then '0' :: magnitude else magnitude)

namespace Decimal

/-- The significant digits and the place of the decimal point in them. -/
def layout (d : Decimal) : List Char × Int :=
  (dropEndZeros (decimalDigits d.coefficient), if d.coefficient = 0 then 1 else d.magnitude)

/-- Without an exponent. -/
def plainText (d : Decimal) : List Char :=
  let (digits, point) := d.layout
  (if d.negative then ['-'] else []) ++ positional digits point

/-- With an exponent unless it lies between `-4` and `15`. -/
def sourceText (d : Decimal) : List Char :=
  let (digits, point) := d.layout
  (if d.negative then ['-'] else []) ++
    (if -3 ≤ point && point ≤ 16 then positional digits point else exponential digits point)

end Decimal

namespace Floating

/-- The text that sources and messages use. -/
def sourceText : Floating → List Char
  | .nan _ => ['n', 'a', 'n']
  | .number x =>
    if x.isInfinite then (if x.negative then ['-'] else []) ++ ['i', 'n', 'f']
    else (shortest x).sourceText

/-- The text shown to people: whole numbers without a fraction, others without
an exponent. -/
def displayText : Floating → List Char
  | .nan _ => ['N', 'a', 'N']
  | .number x =>
    if x.isInfinite then (if x.negative then ['-'] else []) ++ ['i', 'n', 'f']
    else if x.isZero then (if x.negative then ['-', '0'] else ['0'])
    else if x.isWhole then integerText x.truncate
    else (shortest x).plainText

end Floating

end SmallLisp.Number
