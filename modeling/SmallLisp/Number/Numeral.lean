/-! # Numerals

Natural numbers written in a base of at most sixteen, most significant digit
first. -/

namespace SmallLisp.Number

def isDecimalDigit (c : Char) : Bool := '0' ≤ c && c ≤ '9'

def isBinaryDigit (c : Char) : Bool := c == '0' || c == '1'

def isHexDigit (c : Char) : Bool :=
  isDecimalDigit c || ('a' ≤ c && c ≤ 'f') || ('A' ≤ c && c ≤ 'F')

/-- What the digit `c` counts; letters of either case count from ten. -/
def digitValue (c : Char) : Nat :=
  if c ≤ '9' then c.toNat - 48
  else if c ≤ 'F' then c.toNat - 55
  else c.toNat - 87

/-- The number that digits in the given base denote. -/
def numeral (base : Nat) (digits : List Char) : Nat :=
  digits.foldl (fun n c => n * base + digitValue c) 0

/-- The decimal digits of `n`, without leading zeros; zero has one digit. -/
def decimalDigits (n : Nat) : List Char :=
  if n < 10 then [Nat.digitChar n]
  else decimalDigits (n / 10) ++ [Nat.digitChar (n % 10)]

/-- An integer in decimal, with a sign when it is negative. -/
def integerText (n : Int) : List Char :=
  if n < 0 then '-' :: decimalDigits n.natAbs else decimalDigits n.natAbs

/-- The range of the integers that programs compute with: 64 bits, signed. -/
def leastInteger : Int := -0x8000000000000000
def greatestInteger : Int := 0x7fffffffffffffff

def inRange (n : Int) : Bool := leastInteger ≤ n && n ≤ greatestInteger

/-- An integer with more decimal digits, leading zeros included, is not converted. -/
def digitLimit : Nat := 4300

/-- A sign, if there is one, and the rest; true for a minus. -/
def splitSign : List Char → Bool × List Char
  | '+' :: cs => (false, cs)
  | '-' :: cs => (true, cs)
  | cs => (false, cs)

/-- Is this an integer in decimal with more digits than are ever converted? -/
def exceedsDigitLimit (cs : List Char) : Bool :=
  let digits := (splitSign cs).2
  digits.all isDecimalDigit && decide (digitLimit < digits.length)

/-- An integer written in decimal, if it lies in the range. -/
def integer? (cs : List Char) : Option Int :=
  let (negative, digits) := splitSign cs
  if digits.isEmpty || !digits.all isDecimalDigit then none
  else
    let magnitude : Int := numeral 10 digits
    let n := if negative then -magnitude else magnitude
    if inRange n then some n else none

end SmallLisp.Number
