import SmallLisp.Number.Decimal

/-! # Shortest decimals

The decimal with the fewest digits that reads back as a given floating-point
number; of those the nearest, and of two equally near the even one. -/

namespace SmallLisp.Number

/-- The largest `k ≤ limit` with `num * 10 ^ k < den`, counted from `k` upward. -/
def leadingZeros (num den : Nat) : Nat → Nat
  | 0 => 0
  | limit + 1 => if num * 10 < den then 1 + leadingZeros (num * 10) den limit else 0

/-- The power of ten above a finite magnitude other than zero: the least `p`
with `|x| < 10 ^ p`. -/
def powerAbove (x : Binary64) : Int :=
  if x.units < unitsInOne then -(leadingZeros x.units unitsInOne 400)
  else (decimalDigits (x.units / unitsInOne)).length

/-- The magnitude of `x` in steps of `10 ^ exponent`, as a fraction. -/
def inSteps (x : Binary64) (exponent : Int) : Nat × Nat :=
  if 0 ≤ exponent then (x.units, unitsInOne * Nat.pow 10 exponent.toNat)
  else (x.units * Nat.pow 10 (-exponent).toNat, unitsInOne)

/-- The decimals next to `x` on the grid of steps `10 ^ exponent` that read back
as `x`: the nearer one first chosen, the even one of two equally near. -/
def onGrid? (x : Binary64) (exponent : Int) : Option Decimal :=
  let (num, den) := inSteps x exponent
  let below : Decimal := ⟨x.negative, num / den, exponent⟩
  let above : Decimal := ⟨x.negative, num / den + 1, exponent⟩
  let near := if roundHalfEven num den = num / den then below else above
  let far := if roundHalfEven num den = num / den then above else below
  if near.toBinary64 = x then some near
  else if far.toBinary64 = x then some far
  else none

/-- The first of the grids with `digits`, `digits + 1`, … digits that holds a
decimal reading back as `x`; after `limit` of them, the exact value. -/
def shortestFrom (x : Binary64) (power : Int) (digits : Nat) : Nat → Decimal
  | 0 => ⟨x.negative, x.units * Nat.pow 5 1074, -1074⟩
  | limit + 1 =>
    match onGrid? x (power - digits) with
    | some d => d
    | none => shortestFrom x power (digits + 1) limit

/-- The shortest decimal that reads back as the finite number `x`. -/
def shortest (x : Binary64) : Decimal :=
  if x.isZero then ⟨x.negative, 0, 0⟩ else shortestFrom x (powerAbove x) 1 17

end SmallLisp.Number
