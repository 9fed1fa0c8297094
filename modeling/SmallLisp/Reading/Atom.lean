import SmallLisp.Error
import SmallLisp.Reading.Token

/-! # Atoms

The value that a token other than a parenthesis denotes. The first reading that
fits is taken: a constant, a string, an integer in range, a float, a number with
a base mark; anything else is a symbol. -/

namespace SmallLisp.Reading

open Number

/-- A number after its base mark; it may not exceed the greatest integer. -/
def readBased (token : Token) (base : Nat) (isDigit : Char → Bool) (digits : List Char) :
    Except Stop Value :=
  if digits.isEmpty || !digits.all isDigit then
    .error (.error (.malformedNumber (String.ofList token)))
  else if greatestInteger < numeral base digits then
    .error (.error (.numberTooLarge (String.ofList token)))
  else .ok (.int (numeral base digits))

/-- A token that is no number written in decimal. -/
def readOther : Token → Except Stop Value
  | '0' :: 'x' :: digits => readBased ('0' :: 'x' :: digits) 16 isHexDigit digits
  | '0' :: 'b' :: digits => readBased ('0' :: 'b' :: digits) 2 isBinaryDigit digits
  | token => .ok (.symbol (String.ofList token))

/-- An integer written in decimal, if it lies in the range; past the limit of digits it
cannot be told. -/
def readInteger (token : Token) : Except Stop (Option Int) :=
  if exceedsDigitLimit token then
    .error (.fault (.tooManyDigits (splitSign token).2.length))
  else .ok (integer? token)

theorem readInteger_eq_ok_iff {token : Token} {n : Option Int} :
    readInteger token = .ok n ↔ exceedsDigitLimit token = false ∧ integer? token = n := by
  unfold readInteger
  cases exceedsDigitLimit token <;> simp

theorem readInteger_eq_error_iff {token : Token} {s : Stop} :
    readInteger token = .error s ↔ exceedsDigitLimit token = true ∧
      s = .fault (.tooManyDigits (splitSign token).2.length) := by
  unfold readInteger
  cases exceedsDigitLimit token <;> simp [eq_comm]

def readNumberOrSymbol (token : Token) : Except Stop Value :=
  match readInteger token with
  | .error s => .error s
  | .ok (some n) => .ok (.int n)
  | .ok none =>
    match Floating.ofText? token with
    | some x => .ok (.float x)
    | none => readOther token

def readAtom (token : Token) : Except Stop Value :=
  if token = ['n', 'i', 'l'] then .ok .nil
  else if token = ['t', 'r', 'u', 'e'] then .ok (.bool true)
  else if token = ['f', 'a', 'l', 's', 'e'] then .ok (.bool false)
  else
    match token with
    | '"' :: cs => .ok (.string (String.ofList cs))
    | _ => readNumberOrSymbol token

end SmallLisp.Reading
