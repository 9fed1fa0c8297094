/-! # UTF-8

Decoding of bytes to characters. Bytes that encode nothing are reported with
their place and with what is wrong about them. -/

namespace SmallLisp.Text

inductive DecodeReason where
  | invalidStart
  | invalidContinuation
  | unexpectedEnd
deriving DecidableEq, Repr

/-- The bytes at `first`, …, `last` encode nothing; `byte` is the first of them. -/
structure DecodeFault where
  byte : UInt8
  first : Nat
  last : Nat
  reason : DecodeReason
deriving DecidableEq, Repr

namespace Utf8

def isContinuation (b : UInt8) : Bool := 0x80 ≤ b.toNat && b.toNat < 0xC0

/-- The number of bytes of the characters whose encoding starts with `b`. -/
def width? (b : UInt8) : Option Nat :=
  let n := b.toNat
  if n < 0x80 then some 1
  else if n < 0xC2 then none
  else if n < 0xE0 then some 2
  else if n < 0xF0 then some 3
  else if n < 0xF5 then some 4
  else none

/-- May `b` be the second byte after `start`? Overlong encodings, surrogates and
codes past the last character are excluded here. -/
def maySecond (start b : UInt8) : Bool :=
  isContinuation b &&
    match start.toNat with
    | 0xE0 => 0xA0 ≤ b.toNat
    | 0xED => b.toNat < 0xA0
    | 0xF0 => 0x90 ≤ b.toNat
    | 0xF4 => b.toNat < 0x90
    | _ => true

/-- The bits that a first byte contributes. -/
def startBits (width : Nat) (b : UInt8) : Nat :=
  match width with
  | 1 => b.toNat
  | 2 => b.toNat % 0x20
  | 3 => b.toNat % 0x10
  | _ => b.toNat % 0x08

/-- How many of the following bytes, at most `wanted`, continue the character. -/
def continued (start : UInt8) (wanted : Nat) (rest : List UInt8) : Nat :=
  match rest.take wanted with
  | [] => 0
  | b :: bs => if maySecond start b then 1 + (bs.takeWhile isContinuation).length else 0

/-- The first character of `start :: rest` and the number of bytes after `start`
that belong to it. -/
def decodeChar (position : Nat) (start : UInt8) (rest : List UInt8) :
    Except DecodeFault (Char × Nat) :=
  match width? start with
  | none => .error ⟨start, position, position, .invalidStart⟩
  | some width =>
    let found := continued start (width - 1) rest
    if found + 1 = width then
      let code := (rest.take found).foldl (fun n b => n * 0x40 + b.toNat % 0x40)
        (startBits width start)
      .ok (Char.ofNat code, found)
    else if rest.length ≤ found then
      .error ⟨start, position, position + found, .unexpectedEnd⟩
    else
      .error ⟨start, position, position + found, .invalidContinuation⟩

def decodeFrom (position : Nat) : List UInt8 → Except DecodeFault (List Char)
  | [] => .ok []
  | b :: bs =>
    match decodeChar position b bs with
    | .error fault => .error fault
    | .ok (c, extra) =>
      match decodeFrom (position + 1 + extra) (bs.drop extra) with
      | .error fault => .error fault
      | .ok cs => .ok (c :: cs)
termination_by bytes => bytes.length
decreasing_by simp only [List.length_drop, List.length_cons]; omega

def decode (bytes : List UInt8) : Except DecodeFault (List Char) := decodeFrom 0 bytes

end Utf8

/-- Line ends of every kind become line feeds. -/
def unifyLineEnds : List Char → List Char
  | '\r' :: '\n' :: cs => '\n' :: unifyLineEnds cs
  | '\r' :: cs => '\n' :: unifyLineEnds cs
  | c :: cs => c :: unifyLineEnds cs
  | [] => []

end SmallLisp.Text
