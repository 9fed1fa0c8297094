/-! # Binary floating point

The 64-bit floating-point numbers other than NaN. Every finite magnitude is a
whole number of units of `2⁻¹⁰⁷⁴`, so all arithmetic is on natural numbers: the
exact result is computed and then rounded to the nearest number, a tie going to
the even one. -/

namespace SmallLisp.Number

/-- The place of infinity among the magnitudes in ascending order. -/
def infinityRank : Nat := 2047 * Nat.pow 2 52

/-- A sign and the place of the magnitude among all magnitudes in ascending
order, zero first and infinity last. -/
structure Binary64 where
  negative : Bool
  rank : Nat
  rank_le : rank ≤ infinityRank
deriving DecidableEq

/-- The units in the number one. -/
def unitsInOne : Nat := Nat.pow 2 1074

/-- The magnitude at a place, in units. Infinity stands for the first power of
two past the finite numbers. -/
def unitsAt (rank : Nat) : Nat :=
  match rank / Nat.pow 2 52 with
  | 0 => rank
  | e + 1 => (Nat.pow 2 52 + rank % Nat.pow 2 52) * Nat.pow 2 e

/-- The whole number nearest to `num / den`; of two, the even one. -/
def roundHalfEven (num den : Nat) : Nat :=
  let whole := num / den
  let double := 2 * (num % den)
  if den < double || (double == den && whole % 2 == 1) then whole + 1 else whole

/-- The place of the magnitude nearest to `num / den` units; of two, the even
one. From the middle of the last gap on, that is infinity. -/
def nearestRank (num den : Nat) : Nat :=
  let shift := (num / den).log2 - 52
  min infinityRank (shift * Nat.pow 2 52 + roundHalfEven num (den * Nat.pow 2 shift))

namespace Binary64

/-- The number nearest to `num / den` units, with the given sign. -/
def nearest (negative : Bool) (num den : Nat) : Binary64 :=
  ⟨negative, nearestRank num den, Nat.min_le_left ..⟩

def zero (negative : Bool) : Binary64 := ⟨negative, 0, Nat.zero_le _⟩

def infinity (negative : Bool) : Binary64 := ⟨negative, infinityRank, Nat.le_refl _⟩

def isZero (x : Binary64) : Bool := x.rank == 0

def isInfinite (x : Binary64) : Bool := x.rank == infinityRank

def neg (x : Binary64) : Binary64 := ⟨!x.negative, x.rank, x.rank_le⟩

/-- The magnitude in units. -/
def units (x : Binary64) : Nat := unitsAt x.rank

/-- The value in units, with its sign. -/
def signedUnits (x : Binary64) : Int := if x.negative then -x.units else x.units

def ofInt (n : Int) : Binary64 := nearest (n < 0) (n.natAbs * unitsInOne) 1

/-- Is the value a whole number? -/
def isWhole (x : Binary64) : Bool := !x.isInfinite && x.units % unitsInOne == 0

/-- The value without its fraction. -/
def truncate (x : Binary64) : Int :=
  let magnitude : Int := x.units / unitsInOne
  if x.negative then -magnitude else magnitude

/-- The sum of finite numbers. A sum that is exactly zero is negative only when
both terms are. -/
def addFinite (x y : Binary64) : Binary64 :=
  let sum := x.signedUnits + y.signedUnits
  if sum = 0 then zero (x.negative && y.negative)
  else nearest (sum < 0) sum.natAbs 1

/-- There is no sum of infinities with different signs. -/
def add? (x y : Binary64) : Option Binary64 :=
  if x.isInfinite then
    if y.isInfinite && x.negative != y.negative then none else some x
  else if y.isInfinite then some y
  else some (addFinite x y)

def sub? (x y : Binary64) : Option Binary64 := add? x y.neg

/-- There is no product of infinity and zero. -/
def mul? (x y : Binary64) : Option Binary64 :=
  let negative := x.negative != y.negative
  if x.isInfinite || y.isInfinite then
    if x.isZero || y.isZero then none else some (infinity negative)
  else some (nearest negative (x.units * y.units) unitsInOne)

/-- There is no quotient of infinities; the divisor is not zero. -/
def div? (x y : Binary64) : Option Binary64 :=
  let negative := x.negative != y.negative
  if x.isInfinite then if y.isInfinite then none else some (infinity negative)
  else if y.isInfinite then some (zero negative)
  else some (nearest negative (x.units * unitsInOne) y.units)

/-- The remainder of the division truncated toward zero, with the sign of the
dividend; the dividend is finite and the divisor is not zero. -/
def rem (x y : Binary64) : Binary64 :=
  if y.isInfinite then x else nearest x.negative (x.units % y.units) 1

end Binary64

end SmallLisp.Number
