import SmallLisp.Proofs.Reading.RoundTrip
import SmallLisp.Value.Coerce

/-! # Numeric literals

A token that is neither a constant nor a string denotes an integer just if it is a decimal
numeral in range, or a numeral with a base mark that is not past the greatest integer. A
decimal numeral out of range denotes the nearest floating-point number, and a token with
a base mark that is no such numeral is refused. -/

namespace SmallLisp

namespace Number

/-! ## What literals denote -/

/-- What a digit counts: its place in the row of digits, a letter in either case. -/
def digitRank (c : Char) : Nat := "0123456789abcdef".toList.idxOf c.toLower

/-- The last digit counts units, and each digit before it `base` times as much as the next. -/
def digitsValue (base : Nat) (digits : List Char) : Nat :=
  Nat.ofDigits base (digits.reverse.map digitRank)

/-- Decimal digits after a sign, if there is one, and the integer that they denote. -/
inductive DecimalLiteral : List Char → Int → Prop
  | unsigned {digits : List Char} (h : AreDigits digits) :
      DecimalLiteral digits (digitsValue 10 digits)
  | plus {digits : List Char} (h : AreDigits digits) :
      DecimalLiteral ('+' :: digits) (digitsValue 10 digits)
  | minus {digits : List Char} (h : AreDigits digits) :
      DecimalLiteral ('-' :: digits) (-digitsValue 10 digits)

/-- Digits of another base after its mark, and the integer that they denote. -/
inductive BasedLiteral : List Char → Int → Prop
  | hexadecimal {digits : List Char} (hne : digits ≠ [])
      (h : ∀ c ∈ digits, isHexDigit c = true) :
      BasedLiteral ('0' :: 'x' :: digits) (digitsValue 16 digits)
  | binary {digits : List Char} (hne : digits ≠ []) (h : ∀ c ∈ digits, isBinaryDigit c = true) :
      BasedLiteral ('0' :: 'b' :: digits) (digitsValue 2 digits)

/-- The mark of the hexadecimal or the binary base stands in front. -/
def HasBaseMark (token : List Char) : Prop := ['0', 'x'] <+: token ∨ ['0', 'b'] <+: token

theorem isHexDigit_of_isDecimalDigit {c : Char} (h : isDecimalDigit c = true) :
    isHexDigit c = true := by
  rw [isHexDigit, h, Bool.true_or, Bool.true_or]

theorem isHexDigit_of_isBinaryDigit {c : Char} (h : isBinaryDigit c = true) :
    isHexDigit c = true := by
  simp only [isBinaryDigit, Bool.or_eq_true, beq_iff_eq] at h
  rcases h with rfl | rfl <;> rfl

theorem digitValue_eq_digitRank {c : Char} (h : isHexDigit c = true) :
    digitValue c = digitRank c := by
  have hall : ∀ n < 103, isHexDigit (Char.ofNat n) = true →
      digitValue (Char.ofNat n) = digitRank (Char.ofNat n) := by decide
  have hlt : c.toNat < 103 := by
    have hle : c ≤ 'f' := by
      simp only [isHexDigit, isDecimalDigit, Bool.or_eq_true, Bool.and_eq_true,
        decide_eq_true_eq] at h
      rcases h with (⟨-, h⟩ | ⟨-, h⟩) | ⟨-, h⟩
      · exact Char.le_trans h (by decide)
      · exact h
      · exact Char.le_trans h (by decide)
    exact Nat.lt_succ_of_le hle
  have hc := hall c.toNat hlt
  rw [Char.ofNat_toNat] at hc
  exact hc h

theorem numeral_eq_digitsValue (base : Nat) {digits : List Char}
    (h : ∀ c ∈ digits, isHexDigit c = true) : numeral base digits = digitsValue base digits := by
  induction digits using List.reverseRecOn with
  | nil => rfl
  | append_singleton digits c ih =>
    rw [List.forall_mem_append, List.forall_mem_singleton] at h
    rw [numeral_append, ih h.1, numeral_singleton, digitValue_eq_digitRank h.2, digitsValue,
      digitsValue, List.reverse_append, List.reverse_singleton, List.singleton_append,
      List.map_cons, Nat.ofDigits_cons]
    simp only [List.length_singleton, pow_one]
    ring

/-! ## Decimal numerals -/

namespace AreDigits

theorem iff_check {digits : List Char} :
    AreDigits digits ↔ (digits.isEmpty || !digits.all isDecimalDigit) = false := by
  refine ⟨check_eq, fun h => ?_⟩
  simp only [Bool.or_eq_false_iff, Bool.not_eq_false', List.isEmpty_eq_false_iff,
    List.all_eq_true] at h
  exact ⟨h.1, h.2⟩

theorem numeral_eq {digits : List Char} (h : AreDigits digits) :
    numeral 10 digits = digitsValue 10 digits :=
  numeral_eq_digitsValue 10 fun c hc => isHexDigit_of_isDecimalDigit (h.all c hc)

end AreDigits

/-- The integer that a numeral denotes, in the way in which it is computed. -/
def signed (negative : Bool) (digits : List Char) : Int :=
  if negative then -(numeral 10 digits : Int) else numeral 10 digits

theorem decimalLiteral_iff {cs : List Char} {n : Int} :
    DecimalLiteral cs n ↔
      AreDigits (splitSign cs).2 ∧ n = signed (splitSign cs).1 (splitSign cs).2 := by
  constructor
  · intro h
    cases h with
    | unsigned h => exact ⟨h.splitSign_eq ▸ h, by rw [h.splitSign_eq, ← h.numeral_eq]; rfl⟩
    | plus h => exact ⟨h, by rw [← h.numeral_eq]; rfl⟩
    | minus h => exact ⟨h, by rw [← h.numeral_eq]; rfl⟩
  · rintro ⟨h, rfl⟩
    rw [signed, h.numeral_eq]
    unfold splitSign at h ⊢
    split at h
    · exact .plus h
    · exact .minus h
    · exact .unsigned h

theorem DecimalLiteral.unique {cs : List Char} {n k : Int} (h : DecimalLiteral cs n)
    (h' : DecimalLiteral cs k) : n = k := by
  rw [(decimalLiteral_iff.1 h).2, (decimalLiteral_iff.1 h').2]

theorem integer?_eq {cs : List Char} :
    integer? cs =
      if (splitSign cs).2.isEmpty || !(splitSign cs).2.all isDecimalDigit then none
      else if inRange (signed (splitSign cs).1 (splitSign cs).2) then
        some (signed (splitSign cs).1 (splitSign cs).2)
      else none := rfl

theorem integer?_eq_some_iff {cs : List Char} {n : Int} :
    integer? cs = some n ↔ DecimalLiteral cs n ∧ inRange n = true := by
  rw [integer?_eq, decimalLiteral_iff, AreDigits.iff_check]
  by_cases hdigits : ((splitSign cs).2.isEmpty || !(splitSign cs).2.all isDecimalDigit) = true
  · simp [hdigits]
  · rw [Bool.not_eq_true] at hdigits
    rw [if_neg (by simp [hdigits])]
    simp only [hdigits, true_and]
    constructor
    · intro h
      split at h
      · next hrange =>
        cases h
        exact ⟨rfl, hrange⟩
      · cases h
    · rintro ⟨rfl, hrange⟩
      rw [if_pos hrange]

theorem decimal?_digits {digits : List Char} (h : AreDigits digits) (negative : Bool) :
    decimal? negative digits = some ⟨negative, numeral 10 digits, 0⟩ := by
  have hfraction : ∀ c ∈ ([] : List Char), isDecimalDigit c = true :=
    fun _ hc => absurd hc List.not_mem_nil
  have hread := decimal?_pointed h hfraction negative [] fun _ hc => by cases hc
  simpa [pointed] using hread

theorem ofInt_signed (negative : Bool) {digits : List Char} (h : 0 < numeral 10 digits) :
    Binary64.ofInt (signed negative digits) =
      .nearest negative (numeral 10 digits * unitsInOne) 1 := by
  unfold Binary64.ofInt signed
  cases negative with
  | true => simp [h]
  | false =>
    have hpos : ¬ (numeral 10 digits : Int) < 0 := by omega
    simp [hpos]

/-- A decimal numeral other than zero is read as the floating-point number nearest to it. -/
theorem ofText?_of_decimalLiteral {cs : List Char} {n : Int} (h : DecimalLiteral cs n)
    (hne : n ≠ 0) : Floating.ofText? cs = some (.ofInt n) := by
  obtain ⟨hdigits, rfl⟩ := decimalLiteral_iff.1 h
  have hpos : 0 < numeral 10 (splitSign cs).2 := by
    refine Nat.pos_of_ne_zero fun hzero => hne ?_
    simp [signed, hzero]
  have hhead : ∃ c ∈ (splitSign cs).2.head?, isDecimalDigit c = true := by
    obtain ⟨c, rest, hcs⟩ := List.exists_cons_of_ne_nil hdigits.ne_nil
    exact ⟨c, by rw [hcs]; rfl, hdigits.all c (by rw [hcs]; exact List.mem_cons_self)⟩
  rw [Floating.ofText?_of_digit (Prod.mk.eta).symm hhead, decimal?_digits hdigits,
    Option.map_some, Decimal.toBinary64_whole _ hpos, Floating.ofInt, ofInt_signed _ hpos]

/-! ## Base marks -/

namespace HasBaseMark

variable {cs : List Char} (h : HasBaseMark cs)
include h

theorem exists_cons :
    ∃ mark digits, (mark = 'x' ∨ mark = 'b') ∧ cs = '0' :: mark :: digits := by
  rcases h with ⟨digits, rfl⟩ | ⟨digits, rfl⟩
  · exact ⟨'x', digits, .inl rfl, rfl⟩
  · exact ⟨'b', digits, .inr rfl, rfl⟩

theorem integer?_eq_none : integer? cs = none := by
  obtain ⟨mark, digits, hmark, rfl⟩ := h.exists_cons
  have hsign := splitSign_of_digit (show isDecimalDigit '0' = true from rfl) (mark :: digits)
  rcases hmark with rfl | rfl <;> simp [integer?_eq, hsign, isDecimalDigit]

theorem exceedsDigitLimit_eq : exceedsDigitLimit cs = false := by
  obtain ⟨mark, digits, hmark, rfl⟩ := h.exists_cons
  have hsign := splitSign_of_digit (show isDecimalDigit '0' = true from rfl) (mark :: digits)
  rcases hmark with rfl | rfl <;> simp [exceedsDigitLimit, hsign, isDecimalDigit]

/-- The mark ends the digits in front of it, and starts neither a fraction nor an exponent. -/
theorem ofText?_eq_none : Floating.ofText? cs = none := by
  obtain ⟨mark, digits, hmark, rfl⟩ := h.exists_cons
  have hsign := splitSign_of_digit (show isDecimalDigit '0' = true from rfl) (mark :: digits)
  rw [Floating.ofText?_of_digit hsign ⟨'0', rfl, rfl⟩]
  rcases hmark with rfl | rfl <;> simp [decimal?, isDecimalDigit]

end HasBaseMark

end Number

/-! ## Tokens -/

namespace Reading

open Number

theorem readOther_of_not_hasBaseMark {token : Token} (h : ¬ HasBaseMark token) :
    readOther token = .ok (.symbol (String.ofList token)) := by
  unfold readOther
  split
  · next digits => exact absurd (.inl ⟨digits, rfl⟩) h
  · next digits => exact absurd (.inr ⟨digits, rfl⟩) h
  · rfl

theorem readBased_eq_ok_iff {token digits : List Char} {base : Nat} {isDigit : Char → Bool}
    {v : Value} : readBased token base isDigit digits = .ok v ↔
      (digits ≠ [] ∧ (∀ c ∈ digits, isDigit c = true)) ∧
        (numeral base digits : Int) ≤ greatestInteger ∧ v = .int (numeral base digits) := by
  have hcheck : (digits.isEmpty || !digits.all isDigit) = false ↔
      digits ≠ [] ∧ ∀ c ∈ digits, isDigit c = true := by
    simp
  rw [← hcheck]
  unfold readBased
  cases digits.isEmpty || !digits.all isDigit with
  | true => simp
  | false =>
    simp only [Bool.false_eq_true, if_false, true_and]
    split
    · next hlarge => simp [Int.not_le.2 hlarge]
    · next hsmall => simp [Int.not_lt.1 hsmall, eq_comm]

/-- Without a decimal reading, the integers are those of the other bases. -/
theorem readOther_eq_int_iff {token : Token} {n : Int} :
    readOther token = .ok (.int n) ↔ BasedLiteral token n ∧ n ≤ greatestInteger := by
  constructor
  · intro h
    unfold readOther at h
    split at h
    · obtain ⟨⟨hne, hdigits⟩, hle, hn⟩ := readBased_eq_ok_iff.1 h
      cases hn
      rw [numeral_eq_digitsValue 16 hdigits] at hle ⊢
      exact ⟨.hexadecimal hne hdigits, hle⟩
    · obtain ⟨⟨hne, hdigits⟩, hle, hn⟩ := readBased_eq_ok_iff.1 h
      cases hn
      rw [numeral_eq_digitsValue 2 fun c hc => isHexDigit_of_isBinaryDigit (hdigits c hc)] at hle ⊢
      exact ⟨.binary hne hdigits, hle⟩
    · cases h
  · rintro ⟨hliteral, hle⟩
    cases hliteral with
    | hexadecimal hne hdigits =>
      rw [← numeral_eq_digitsValue 16 hdigits] at hle ⊢
      exact readBased_eq_ok_iff.2 ⟨⟨hne, hdigits⟩, hle, rfl⟩
    | binary hne hdigits =>
      rw [← numeral_eq_digitsValue 2 fun c hc => isHexDigit_of_isBinaryDigit (hdigits c hc)]
        at hle ⊢
      exact readBased_eq_ok_iff.2 ⟨⟨hne, hdigits⟩, hle, rfl⟩

/-- Whatever has a base mark and is read is an integer. -/
theorem exists_int_of_readOther {token : Token} {v : Value} (hmark : HasBaseMark token)
    (h : readOther token = .ok v) : ∃ n, v = .int n := by
  obtain ⟨mark, digits, rfl | rfl, rfl⟩ := hmark.exists_cons
  · exact ⟨_, (readBased_eq_ok_iff.1 h).2.2⟩
  · exact ⟨_, (readBased_eq_ok_iff.1 h).2.2⟩

/-- Numerals with a base mark are refused by errors of the language alone. -/
theorem exists_error_of_readOther {token : Token} {s : Stop} (h : readOther token = .error s) :
    ∃ e, s = .error e := by
  unfold readOther readBased at h
  repeat' split at h
  all_goals cases h
  all_goals exact ⟨_, rfl⟩

/-- A token with a base mark is no decimal number. -/
theorem readNumberOrSymbol_of_hasBaseMark {token : Token} (h : HasBaseMark token) :
    readNumberOrSymbol token = readOther token := by
  have hinteger : readInteger token = .ok none :=
    readInteger_eq_ok_iff.2 ⟨h.exceedsDigitLimit_eq, h.integer?_eq_none⟩
  rw [readNumberOrSymbol, hinteger]
  simp only [h.ofText?_eq_none]

/-- Past the limit of digits a token is a fault. -/
theorem readNumberOrSymbol_of_exceedsDigitLimit {token : Token}
    (h : exceedsDigitLimit token = true) :
    readNumberOrSymbol token = .error (.fault (.tooManyDigits (splitSign token).2.length)) := by
  rw [readNumberOrSymbol, readInteger_eq_error_iff.2 ⟨h, rfl⟩]

/-- Within the limit of digits, an integer is tried before all else. -/
theorem readInteger_of_within {token : Token} (h : exceedsDigitLimit token = false) :
    readInteger token = .ok (integer? token) :=
  readInteger_eq_ok_iff.2 ⟨h, rfl⟩

theorem readNumberOrSymbol_eq_int_iff {token : Token} {n : Int} :
    readNumberOrSymbol token = .ok (.int n) ↔
      (DecimalLiteral token n ∧ inRange n = true ∧ exceedsDigitLimit token = false) ∨
        (BasedLiteral token n ∧ n ≤ greatestInteger) := by
  rw [← and_assoc, ← integer?_eq_some_iff, ← readOther_eq_int_iff]
  by_cases hmark : HasBaseMark token
  · rw [readNumberOrSymbol_of_hasBaseMark hmark, hmark.integer?_eq_none]
    simp
  · rw [readOther_of_not_hasBaseMark hmark]
    cases hlimit : exceedsDigitLimit token with
    | true => simp [readNumberOrSymbol_of_exceedsDigitLimit hlimit]
    | false =>
      rw [readNumberOrSymbol, readInteger_of_within hlimit, readOther_of_not_hasBaseMark hmark]
      cases integer? token with
      | some k => simp
      | none => cases Floating.ofText? token <;> simp

/-- Only a token with a base mark is refused, and it is unless it denotes an integer. -/
theorem readNumberOrSymbol_eq_error_iff {token : Token} :
    (∃ e, readNumberOrSymbol token = .error (.error e)) ↔
      HasBaseMark token ∧ ¬ ∃ n, BasedLiteral token n ∧ n ≤ greatestInteger := by
  by_cases hmark : HasBaseMark token
  · rw [readNumberOrSymbol_of_hasBaseMark hmark, and_iff_right hmark]
    constructor
    · rintro ⟨e, he⟩ ⟨n, hn⟩
      rw [readOther_eq_int_iff.2 hn] at he
      cases he
    · intro hnot
      cases hread : readOther token with
      | error s =>
        obtain ⟨e, rfl⟩ := exists_error_of_readOther hread
        exact ⟨e, rfl⟩
      | ok v =>
        obtain ⟨n, rfl⟩ := exists_int_of_readOther hmark hread
        exact absurd ⟨n, readOther_eq_int_iff.1 hread⟩ hnot
  · cases hlimit : exceedsDigitLimit token with
    | true => simp [readNumberOrSymbol_of_exceedsDigitLimit hlimit, hmark]
    | false =>
      rw [readNumberOrSymbol, readInteger_of_within hlimit, readOther_of_not_hasBaseMark hmark]
      cases integer? token with
      | some k => simp [hmark]
      | none => cases Floating.ofText? token <;> simp [hmark]

/-- A decimal numeral out of range is read as a floating-point number. -/
theorem readNumberOrSymbol_of_not_inRange {token : Token} {n : Int} (h : DecimalLiteral token n)
    (hrange : inRange n = false) (hlimit : exceedsDigitLimit token = false) :
    readNumberOrSymbol token = .ok (.float (.ofInt n)) := by
  have hinteger : integer? token = none := by
    refine Option.eq_none_iff_forall_ne_some.2 fun k hk => ?_
    obtain ⟨hliteral, hin⟩ := integer?_eq_some_iff.1 hk
    rw [hliteral.unique h, hrange] at hin
    cases hin
  have hne : n ≠ 0 := by
    rintro rfl
    cases hrange
  rw [readNumberOrSymbol, readInteger_of_within hlimit, hinteger]
  simp only [ofText?_of_decimalLiteral h hne]

/-- A token that is neither a constant nor a string is a number or a symbol. -/
theorem readAtom_of_plain {token : Token}
    (hconstant : token ∉ ["nil".toList, "true".toList, "false".toList])
    (hstring : token.head? ≠ some '"') : readAtom token = readNumberOrSymbol token := by
  simp only [List.mem_cons, List.not_mem_nil, or_false, not_or] at hconstant
  have hnil : token ≠ ['n', 'i', 'l'] := hconstant.1
  have htrue : token ≠ ['t', 'r', 'u', 'e'] := hconstant.2.1
  have hfalse : token ≠ ['f', 'a', 'l', 's', 'e'] := hconstant.2.2
  unfold readAtom
  rw [if_neg hnil, if_neg htrue, if_neg hfalse]
  split
  · exact absurd rfl hstring
  · rfl

end Reading

open Number Reading

/-- A token that is neither a constant nor a string denotes an integer just if it is a decimal
numeral in range, or a numeral with a base mark that is not past the greatest integer. It is
refused just if it has a base mark and is no such numeral, and that is an error of the source.
A decimal numeral out of range denotes the floating-point number nearest to it. All this is so
up to the limit of decimal digits; a numeral past it is a fault. Integers in range are read
back from what is displayed and from what is written in a source. -/
theorem readAtom_numeric (token : Token)
    (hconstant : token ∉ ["nil".toList, "true".toList, "false".toList])
    (hstring : token.head? ≠ some '"') :
    (∀ n, readAtom token = .ok (.int n) ↔
      (DecimalLiteral token n ∧ inRange n = true ∧ exceedsDigitLimit token = false) ∨
        (BasedLiteral token n ∧ n ≤ greatestInteger)) ∧
    ((∃ e, readAtom token = .error (.error e)) ↔
      HasBaseMark token ∧ ¬ ∃ n, BasedLiteral token n ∧ n ≤ greatestInteger) ∧
    (∀ s, readAtom token = .error s →
      (∃ e, s = .error e ∧ e.kind = .reading) ∨ exceedsDigitLimit token = true) ∧
    (exceedsDigitLimit token = true →
      readAtom token = .error (.fault (.tooManyDigits (splitSign token).2.length))) ∧
    (∀ n, DecimalLiteral token n → inRange n = false → exceedsDigitLimit token = false →
      readAtom token = .ok (.float (.ofInt n))) ∧
    ∀ n, inRange n = true →
      (Value.string (Value.int n).display).toInt = .ok n ∧
        readAtom (Value.int n).source.toList = .ok (.int n) := by
  refine ⟨?integers, ?refused, ?errors, ?limit, ?wide, ?texts⟩
  case integers =>
    intro n
    rw [readAtom_of_plain hconstant hstring, readNumberOrSymbol_eq_int_iff]
  case refused => rw [readAtom_of_plain hconstant hstring, readNumberOrSymbol_eq_error_iff]
  case errors =>
    intro s hs
    rcases readAtom_eq_error hs with rfl | rfl | hinteger
    · exact .inl ⟨_, rfl, rfl⟩
    · exact .inl ⟨_, rfl, rfl⟩
    · exact .inr (readInteger_eq_error_iff.1 hinteger).1
  case limit =>
    intro hlimit
    rw [readAtom_of_plain hconstant hstring, readNumberOrSymbol_of_exceedsDigitLimit hlimit]
  case wide =>
    intro n hliteral hrange hlimit
    rw [readAtom_of_plain hconstant hstring,
      readNumberOrSymbol_of_not_inRange hliteral hrange hlimit]
  case texts =>
    intro n hrange
    refine ⟨?_, ?_⟩
    · simp only [Value.display, Value.toInt, String.toList_ofList, readInteger_integerText hrange]
    · rw [Value.source, String.toList_ofList, readAtom_integerText hrange]

/-- The greatest integer in hexadecimal digits of both cases, the numeral past it, and the
decimal numeral past it. -/
theorem readAtom_numeric_edges :
    readAtom "0x7fFFffffFFFFFFFF".toList = .ok (.int greatestInteger) ∧
      (∃ e, readAtom "0x8000000000000000".toList = .error (.error e) ∧ e.kind = .reading) ∧
      readAtom "9223372036854775808".toList = .ok (.float (.ofInt 9223372036854775808)) := by
  refine ⟨?greatest, ?past, ?wide⟩
  case greatest =>
    obtain ⟨integers, -⟩ :=
      readAtom_numeric "0x7fFFffffFFFFFFFF".toList (by decide) (by decide)
    have hvalue : (digitsValue 16 "7fFFffffFFFFFFFF".toList : Int) = greatestInteger := by decide
    have hliteral : BasedLiteral "0x7fFFffffFFFFFFFF".toList greatestInteger := by
      rw [← hvalue]
      exact .hexadecimal (by decide) (List.all_eq_true.1 (by decide))
    exact (integers _).2 (.inr ⟨hliteral, le_rfl⟩)
  case past =>
    obtain ⟨-, refused, errors, -⟩ :=
      readAtom_numeric "0x8000000000000000".toList (by decide) (by decide)
    obtain ⟨e, he⟩ := refused.2 ⟨.inl ⟨_, rfl⟩, by
      rintro ⟨n, hliteral, hle⟩
      cases hliteral
      exact absurd hle (by decide)⟩
    rcases errors _ he with ⟨e', he', hkind⟩ | hlimit
    · cases he'
      exact ⟨e, he, hkind⟩
    · cases hlimit
  case wide =>
    obtain ⟨-, -, -, -, wide, -⟩ :=
      readAtom_numeric "9223372036854775808".toList (by decide) (by decide)
    have hvalue : (digitsValue 10 "9223372036854775808".toList : Int) = 9223372036854775808 := by
      decide
    have hliteral : DecimalLiteral "9223372036854775808".toList 9223372036854775808 := by
      rw [← hvalue]
      exact .unsigned ⟨by decide, List.all_eq_true.1 (by decide)⟩
    exact wide _ hliteral (by decide) (by decide)

end SmallLisp
