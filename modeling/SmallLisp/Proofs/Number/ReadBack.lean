import SmallLisp.Proofs.Number.Rounding

/-! # Numbers read back

The text of an integer or of a floating-point number, as sources have it, is read as
that number; and the text of a floating-point number is not taken for an integer. -/

namespace SmallLisp.Number

/-! ## Signs and integers -/

theorem isDecimalDigit_iff {c : Char} :
    isDecimalDigit c = true ↔ 48 ≤ c.toNat ∧ c.toNat ≤ 57 := by
  simp only [isDecimalDigit, Bool.and_eq_true, decide_eq_true_eq]
  exact Iff.rfl

theorem splitSign_of_digit {c : Char} (h : isDecimalDigit c = true) (cs : List Char) :
    splitSign (c :: cs) = (false, c :: cs) := by
  unfold splitSign
  split
  · next heq =>
    obtain ⟨rfl, -⟩ := List.cons.inj heq
    cases h
  · next heq =>
    obtain ⟨rfl, -⟩ := List.cons.inj heq
    cases h
  · rfl

/-- Digits, of which there is at least one. -/
structure AreDigits (cs : List Char) : Prop where
  ne_nil : cs ≠ []
  all : ∀ c ∈ cs, isDecimalDigit c = true

theorem areDigits_decimalDigits (n : Nat) : AreDigits (decimalDigits n) :=
  ⟨decimalDigits_ne_nil n, isDecimalDigit_of_mem⟩

namespace AreDigits

variable {cs : List Char}

theorem splitSign_append (h : AreDigits cs) (rest : List Char) :
    splitSign (cs ++ rest) = (false, cs ++ rest) := by
  cases cs with
  | nil => exact absurd rfl h.ne_nil
  | cons c cs => exact splitSign_of_digit (h.all c List.mem_cons_self) _

theorem splitSign_eq (h : AreDigits cs) : splitSign cs = (false, cs) := by
  simpa using h.splitSign_append []

/-- No digit is missing, and there is nothing but digits. -/
theorem check_eq (h : AreDigits cs) : (cs.isEmpty || !cs.all isDecimalDigit) = false := by
  have hall : cs.all isDecimalDigit = true := List.all_eq_true.2 h.all
  simp [hall, h.ne_nil]

end AreDigits

theorem integer?_integerText {n : Int} (h : inRange n = true) :
    integer? (integerText n) = some n := by
  have hdigits := areDigits_decimalDigits n.natAbs
  unfold integer? integerText
  by_cases hn : n < 0
  · have hvalue : -(n.natAbs : Int) = n := by omega
    simp only [if_pos hn, splitSign, hdigits.check_eq, Bool.false_eq_true, if_false,
      numeral_decimalDigits, if_true, hvalue, h]
  · have hvalue : (n.natAbs : Int) = n := by omega
    simp only [if_neg hn, hdigits.splitSign_eq, hdigits.check_eq, Bool.false_eq_true, if_false,
      numeral_decimalDigits, hvalue, h, if_true]

theorem splitSign_integerText (n : Int) :
    splitSign (integerText n) = (decide (n < 0), decimalDigits n.natAbs) := by
  unfold integerText
  by_cases hn : n < 0
  · simp only [hn, if_true, decide_true, splitSign]
  · rw [if_neg hn, (areDigits_decimalDigits _).splitSign_eq, decide_eq_false hn]

/-- The texts of integers in range are far from the limit of digits. -/
theorem exceedsDigitLimit_integerText {n : Int} (h : inRange n = true) :
    exceedsDigitLimit (integerText n) = false := by
  have hlt : n.natAbs < 10 ^ 19 := by
    have hbounds : leastInteger ≤ n ∧ n ≤ greatestInteger := by simpa [inRange] using h
    unfold leastInteger greatestInteger at hbounds
    omega
  have hlength : (decimalDigits n.natAbs).length ≤ 19 := by
    rcases Nat.eq_zero_or_pos n.natAbs with hzero | hpos
    · rw [hzero, decimalDigits_of_lt (by decide), List.length_singleton]
      decide
    · exact length_le_of_lt_pow hpos hlt
  have hlimit : ¬ digitLimit < (decimalDigits n.natAbs).length := by
    unfold digitLimit
    omega
  rw [exceedsDigitLimit, splitSign_integerText, decide_eq_false hlimit, Bool.and_false]

theorem exponent?_signed {digits : List Char} (h : AreDigits digits) (negative : Prop)
    [Decidable negative] :
    exponent? ((if negative then '-' else '+') :: digits) =
      some (if negative then -(numeral 10 digits : Int) else numeral 10 digits) := by
  by_cases hn : negative
  · simp [exponent?, splitSign, h.check_eq, hn]
  · simp [exponent?, splitSign, h.check_eq, hn]

/-! ## Decimals in two parts -/

/-- A fraction after its point; without digits there is no point. -/
def pointed : List Char → List Char
  | [] => []
  | c :: cs => '.' :: c :: cs

/-- Digits are taken up to the first other character. -/
theorem takeWhile_digits {digits rest : List Char} (h : ∀ c ∈ digits, isDecimalDigit c = true)
    (hrest : ∀ c ∈ rest.head?, isDecimalDigit c = false) :
    (digits ++ rest).takeWhile isDecimalDigit = digits ∧
      (digits ++ rest).dropWhile isDecimalDigit = rest := by
  rw [List.takeWhile_append_of_pos h, List.dropWhile_append_of_pos h]
  cases rest with
  | nil => simp
  | cons c cs => simp [hrest c rfl]

theorem decimal?_pointed {whole fraction : List Char} (hwhole : AreDigits whole)
    (hfraction : ∀ c ∈ fraction, isDecimalDigit c = true) (negative : Bool) (rest : List Char) :
    (∀ c ∈ rest.head?, c = 'e') →
    decimal? negative (whole ++ (pointed fraction ++ rest)) =
      match rest with
      | [] => some ⟨negative, numeral 10 (whole ++ fraction), -fraction.length⟩
      | _ :: cs => (exponent? cs).map fun n =>
          ⟨negative, numeral 10 (whole ++ fraction), n - fraction.length⟩ := by
  intro hrest
  have hend : ∀ c ∈ rest.head?, isDecimalDigit c = false := by
    intro c hc
    rw [hrest c hc]
    rfl
  have hsome : (whole.isEmpty && fraction.isEmpty) = false := by
    simp [hwhole.ne_nil]
  cases fraction with
  | nil =>
    obtain ⟨htake, hdrop⟩ := takeWhile_digits hwhole.all hend
    simp only [pointed, List.nil_append, decimal?, htake, hdrop]
    cases rest with
    | nil => simp [hwhole.ne_nil]
    | cons c cs =>
      obtain rfl := hrest c rfl
      simp [hwhole.ne_nil]
  | cons c cs =>
    have hpoint : ∀ c' ∈ ('.' :: (c :: cs ++ rest)).head?, isDecimalDigit c' = false := by
      intro c' hc'
      cases hc'
      rfl
    obtain ⟨htake, hdrop⟩ := takeWhile_digits hwhole.all hpoint
    obtain ⟨htake', hdrop'⟩ := takeWhile_digits hfraction hend
    simp only [pointed, List.cons_append, decimal?] at *
    simp only [htake, hdrop, htake', hdrop', hsome, Bool.false_eq_true, if_false]
    cases rest with
    | nil => rfl
    | cons e es =>
      obtain rfl := hrest e rfl
      rfl

theorem decimal?_point {whole fraction : List Char} (hwhole : AreDigits whole)
    (hfraction : AreDigits fraction) (negative : Bool) :
    decimal? negative (whole ++ '.' :: fraction) =
      some ⟨negative, numeral 10 (whole ++ fraction), -fraction.length⟩ := by
  obtain ⟨c, cs, rfl⟩ := List.exists_cons_of_ne_nil hfraction.ne_nil
  have h := decimal?_pointed hwhole hfraction.all negative [] (fun c hc => by cases hc)
  rw [List.append_nil] at h
  exact h

/-! ## Layouts -/

theorem eq_pad {negative : Bool} {c m k : Nat} {e e' : Int} (hc : c = m * 10 ^ k)
    (he : e' = e - k) : (⟨negative, c, e'⟩ : Decimal) = Decimal.pad ⟨negative, m, e⟩ k := by
  rw [hc, he, Decimal.pad]

theorem areDigits_zeros_append {digits : List Char} (h : AreDigits digits) (k : Nat) :
    AreDigits (List.replicate k '0' ++ digits) := by
  refine ⟨by simp [h.ne_nil], fun c hc => ?_⟩
  rcases List.mem_append.1 hc with hc | hc
  · rw [List.eq_of_mem_replicate hc]
    rfl
  · exact h.all c hc

theorem areDigits_append_zeros {digits : List Char} (h : AreDigits digits) (k : Nat) :
    AreDigits (digits ++ List.replicate k '0') := by
  refine ⟨by simp [h.ne_nil], fun c hc => ?_⟩
  rcases List.mem_append.1 hc with hc | hc
  · exact h.all c hc
  · rw [List.eq_of_mem_replicate hc]
    rfl

theorem areDigits_zero : AreDigits ['0'] := ⟨List.cons_ne_nil _ _, List.forall_mem_singleton.2 rfl⟩

/-- Digits with a point among them or after them are those of the same number, with
zeros added. -/
theorem decimal?_positional (negative : Bool) (m : Nat) (e : Int) :
    ∃ k, decimal? negative (positional (decimalDigits m) ((decimalDigits m).length + e)) =
      some (Decimal.pad ⟨negative, m, e⟩ k) := by
  have hdigits := areDigits_decimalDigits m
  have hvalue := numeral_decimalDigits m
  generalize decimalDigits m = digits at *
  have hlength : 0 < digits.length := List.length_pos_iff.2 hdigits.ne_nil
  unfold positional
  split
  · -- The point stands before all digits.
    refine ⟨0, ?_⟩
    have hread := decimal?_point areDigits_zero (areDigits_zeros_append hdigits
      (-((digits.length : Int) + e)).toNat) negative
    refine hread.trans (congrArg some (eq_pad ?_ ?_))
    · rw [numeral_append, numeral_append, numeral_zeros, numeral_singleton, hvalue]
      simp [digitValue]
    · simp only [List.length_append, List.length_replicate]
      omega
  · split
    · -- The point stands after all digits.
      next hpoint hle =>
      refine ⟨((digits.length : Int) + e).toNat - digits.length + 1, ?_⟩
      have hread := decimal?_point (areDigits_append_zeros hdigits
        (((digits.length : Int) + e).toNat - digits.length)) areDigits_zero negative
      refine hread.trans (congrArg some (eq_pad ?_ ?_))
      · simp [numeral_append, hvalue, numeral_singleton, digitValue, pow_succ]
      · simp only [List.length_singleton]
        omega
    · next hpoint hlt =>
      refine ⟨0, ?_⟩
      have hwhole : AreDigits (digits.take ((digits.length : Int) + e).toNat) :=
        ⟨by simp [hdigits.ne_nil]; omega, fun c hc => hdigits.all c (List.mem_of_mem_take hc)⟩
      have hfraction : AreDigits (digits.drop ((digits.length : Int) + e).toNat) :=
        ⟨by simpa using hlt, fun c hc => hdigits.all c (List.mem_of_mem_drop hc)⟩
      refine (decimal?_point hwhole hfraction negative).trans (congrArg some (eq_pad ?_ ?_))
      · rw [List.take_append_drop, hvalue, pow_zero, Nat.mul_one]
      · rw [List.length_drop]
        omega

theorem exponential_eq (digits : List Char) (point : Int) :
    exponential digits point =
      digits.take 1 ++ (pointed (digits.drop 1) ++ 'e' :: (if point - 1 < 0 then '-' else '+') ::
        if (decimalDigits (point - 1).natAbs).length < 2 then
          '0' :: decimalDigits (point - 1).natAbs
        else decimalDigits (point - 1).natAbs) := by
  unfold exponential
  cases digits.drop 1 with
  | nil => simp [pointed]
  | cons c cs => simp [pointed]

theorem decimal?_exponential (negative : Bool) (m : Nat) (e : Int) :
    decimal? negative (exponential (decimalDigits m) ((decimalDigits m).length + e)) =
      some ⟨negative, m, e⟩ := by
  have hdigits := areDigits_decimalDigits m
  have hvalue := numeral_decimalDigits m
  generalize decimalDigits m = digits at *
  have hlength : 0 < digits.length := List.length_pos_iff.2 hdigits.ne_nil
  have hwhole : AreDigits (digits.take 1) :=
    ⟨by simp [hdigits.ne_nil], fun c hc => hdigits.all c (List.mem_of_mem_take hc)⟩
  have hfraction : ∀ c ∈ digits.drop 1, isDecimalDigit c = true :=
    fun c hc => hdigits.all c (List.mem_of_mem_drop hc)
  have hmagnitude := areDigits_decimalDigits ((digits.length : Int) + e - 1).natAbs
  have hmagnitudeValue := numeral_decimalDigits ((digits.length : Int) + e - 1).natAbs
  rw [exponential_eq]
  generalize decimalDigits ((digits.length : Int) + e - 1).natAbs = magnitude at *
  have hpadded : AreDigits (if magnitude.length < 2 then '0' :: magnitude else magnitude) ∧
      numeral 10 (if magnitude.length < 2 then '0' :: magnitude else magnitude) =
        ((digits.length : Int) + e - 1).natAbs := by
    split
    · exact ⟨areDigits_zeros_append hmagnitude 1, hmagnitudeValue⟩
    · exact ⟨hmagnitude, hmagnitudeValue⟩
  rw [decimal?_pointed hwhole hfraction negative _ (by simp), List.take_append_drop, hvalue]
  simp only [exponent?_signed hpadded.1, hpadded.2, Option.map_some, Option.some.injEq,
    Decimal.mk.injEq, true_and, List.length_drop]
  split <;> omega

/-- The digits of a decimal and the place of the point in them are those of a decimal
with the same nearest number. -/
theorem exists_layout (d : Decimal) :
    ∃ (m : Nat) (e : Int), d.layout = (decimalDigits m, (decimalDigits m).length + e) ∧
      Decimal.toBinary64 ⟨d.negative, m, e⟩ = d.toBinary64 := by
  obtain ⟨negative, coefficient, exponent⟩ := d
  rcases Nat.eq_zero_or_pos coefficient with rfl | hpos
  · refine ⟨0, 0, ?_, ?_⟩
    · simp [Decimal.layout, decimalDigits_of_lt, dropEndZeros]
    · rw [Decimal.toBinary64_eq, Decimal.toBinary64_eq, if_pos rfl, if_pos rfl]
  · obtain ⟨m, k, hm, rfl, hdrop⟩ := exists_dropEndZeros hpos
    refine ⟨m, exponent + k, ?_, ?_⟩
    · have hlength : (decimalDigits (m * 10 ^ k)).length = (decimalDigits m).length + k := by
        rw [decimalDigits_mul_pow hm, List.length_append, List.length_replicate]
      rw [Decimal.layout, if_neg hpos.ne', hdrop, Decimal.magnitude, hlength, Nat.cast_add,
        Int.add_assoc, Int.add_comm (k : Int)]
    · rw [← Decimal.toBinary64_pad _ k, Decimal.pad, Int.add_sub_cancel]

/-! ## Texts of floating-point numbers -/

/-- The characters that spell numbers. -/
def isSpelling (c : Char) : Bool := isDecimalDigit c || c ∈ ['.', 'e', '+', '-', 'i', 'n', 'f']

theorem isSpelling_of_digit {c : Char} (h : isDecimalDigit c = true) : isSpelling c = true := by
  simp [isSpelling, h]

/-- A text that starts with a digit and holds another character of numbers. -/
structure IsDecimalText (cs : List Char) : Prop where
  head : ∃ c ∈ cs.head?, isDecimalDigit c = true
  spelling : ∀ c ∈ cs, isSpelling c = true
  mark : ∃ c ∈ cs, isDecimalDigit c = false

theorem isDecimalText_positional {digits : List Char} (h : AreDigits digits) (point : Int) :
    IsDecimalText (positional digits point) := by
  obtain ⟨c, cs, rfl⟩ := List.exists_cons_of_ne_nil h.ne_nil
  have hhead := h.all c List.mem_cons_self
  have hdigit : ∀ c' ∈ c :: cs, isSpelling c' = true := fun c' hc' =>
    isSpelling_of_digit (h.all c' hc')
  have hzeros : ∀ k, ∀ c' ∈ List.replicate k '0', isSpelling c' = true := by
    intro k c' hc'
    rw [List.eq_of_mem_replicate hc']
    rfl
  unfold positional
  split
  · refine ⟨⟨'0', rfl, rfl⟩, ?_, '.', by simp, rfl⟩
    simp only [List.cons_append, List.forall_mem_cons, List.forall_mem_append]
    exact ⟨rfl, rfl, hzeros _, List.forall_mem_cons.1 hdigit⟩
  · next hpoint =>
    obtain ⟨k, hk⟩ : ∃ k, point.toNat = k + 1 := ⟨point.toNat - 1, by omega⟩
    split
    · refine ⟨⟨c, rfl, hhead⟩, ?_, '.', by simp, rfl⟩
      simp only [List.forall_mem_append, List.forall_mem_cons]
      exact ⟨⟨List.forall_mem_cons.1 hdigit, hzeros _⟩, rfl, rfl, fun _ hc => by cases hc⟩
    · rw [hk]
      refine ⟨⟨c, rfl, hhead⟩, ?_, '.', by simp, rfl⟩
      simp only [List.forall_mem_append, List.forall_mem_cons]
      exact ⟨fun c' hc' => hdigit c' (List.mem_of_mem_take hc'), rfl,
        fun c' hc' => hdigit c' (List.mem_of_mem_drop hc')⟩

theorem isDecimalText_exponential {digits : List Char} (h : AreDigits digits) (point : Int) :
    IsDecimalText (exponential digits point) := by
  obtain ⟨c, cs, rfl⟩ := List.exists_cons_of_ne_nil h.ne_nil
  have hdigit : ∀ c' ∈ c :: cs, isSpelling c' = true := fun c' hc' =>
    isSpelling_of_digit (h.all c' hc')
  have hmagnitude : ∀ c' ∈ decimalDigits (point - 1).natAbs, isSpelling c' = true := fun c' hc' =>
    isSpelling_of_digit (isDecimalDigit_of_mem c' hc')
  have hpointed : ∀ c' ∈ pointed cs, isSpelling c' = true := by
    cases cs with
    | nil => exact fun _ hc => by cases hc
    | cons d ds => exact List.forall_mem_cons.2 ⟨rfl, (List.forall_mem_cons.1 hdigit).2⟩
  rw [exponential_eq]
  refine ⟨⟨c, rfl, h.all c List.mem_cons_self⟩, ?_, 'e', by simp, rfl⟩
  simp only [List.take_succ_cons, List.take_zero, List.drop_succ_cons, List.drop_zero,
    List.forall_mem_append, List.forall_mem_cons]
  refine ⟨⟨hdigit c List.mem_cons_self, fun _ hc => by cases hc⟩, hpointed, rfl, ?_, ?_⟩
  · split <;> rfl
  · split
    · exact List.forall_mem_cons.2 ⟨rfl, hmagnitude⟩
    · exact hmagnitude

/-- The text of a decimal without its sign. -/
def unsignedText (d : Decimal) : List Char :=
  if -3 ≤ d.layout.2 && d.layout.2 ≤ 16 then positional d.layout.1 d.layout.2
  else exponential d.layout.1 d.layout.2

theorem sourceText_eq (d : Decimal) :
    d.sourceText = (if d.negative then ['-'] else []) ++ unsignedText d := rfl

theorem isDecimalText_unsignedText (d : Decimal) : IsDecimalText (unsignedText d) := by
  obtain ⟨m, e, hlayout, -⟩ := exists_layout d
  unfold unsignedText
  rw [hlayout]
  split
  · exact isDecimalText_positional (areDigits_decimalDigits m) _
  · exact isDecimalText_exponential (areDigits_decimalDigits m) _

theorem exists_decimal?_unsignedText (d : Decimal) :
    ∃ d', decimal? d.negative (unsignedText d) = some d' ∧ d'.toBinary64 = d.toBinary64 := by
  obtain ⟨m, e, hlayout, hvalue⟩ := exists_layout d
  unfold unsignedText
  rw [hlayout]
  split
  · obtain ⟨k, hk⟩ := decimal?_positional d.negative m e
    exact ⟨_, hk, (Decimal.toBinary64_pad _ k).trans hvalue⟩
  · exact ⟨_, decimal?_exponential d.negative m e, hvalue⟩

theorem splitSign_sourceText (d : Decimal) :
    splitSign d.sourceText = (d.negative, unsignedText d) := by
  rw [sourceText_eq]
  cases d.negative with
  | true => rfl
  | false =>
    obtain ⟨c, hc, hdigit⟩ := (isDecimalText_unsignedText d).head
    obtain ⟨cs, hcs⟩ := List.head?_eq_some_iff.1 hc
    simp [hcs, splitSign_of_digit hdigit]

theorem toLower_of_digit {c : Char} (h : isDecimalDigit c = true) : c.toLower = c := by
  rw [isDecimalDigit_iff] at h
  unfold Char.toLower
  split
  · next hupper =>
    simp only [ge_iff_le, UInt32.le_iff_toNat_le] at hupper
    have hle : 65 ≤ c.toNat := hupper.1
    omega
  · rfl

namespace Floating

/-- What starts with a digit is none of the names of infinity and NaN. -/
theorem ofText?_of_digit {cs body : List Char} {negative : Bool}
    (hsign : splitSign cs = (negative, body)) (hhead : ∃ c ∈ body.head?, isDecimalDigit c = true) :
    ofText? cs = (decimal? negative body).map fun d => .number d.toBinary64 := by
  obtain ⟨c, hc, hdigit⟩ := hhead
  obtain ⟨rest, rfl⟩ := List.head?_eq_some_iff.1 hc
  have hname : ∀ letter letters, isDecimalDigit letter = false →
      (c :: rest).map Char.toLower ≠ letter :: letters := by
    intro letter letters hletter heq
    rw [List.map_cons, toLower_of_digit hdigit] at heq
    rw [(List.cons.inj heq).1] at hdigit
    rw [hdigit] at hletter
    cases hletter
  simp only [ofText?, hsign, hname _ _ (show isDecimalDigit 'i' = false from rfl),
    hname _ _ (show isDecimalDigit 'n' = false from rfl), decide_false, Bool.or_false,
    Bool.false_eq_true, if_false]

theorem sourceText_number (x : Binary64) :
    (Floating.number x).sourceText =
      if x.isInfinite then (if x.negative then ['-'] else []) ++ ['i', 'n', 'f']
      else (shortest x).sourceText := rfl

/-- A floating-point number other than NaN reads back from its text. -/
theorem ofText?_sourceText (x : Binary64) :
    ofText? (Floating.number x).sourceText = some (.number x) := by
  rw [sourceText_number]
  split
  · next hinfinite =>
    obtain ⟨negative, rank, hrank⟩ := x
    obtain rfl : rank = infinityRank := by simpa [Binary64.isInfinite] using hinfinite
    cases negative <;> rfl
  · next hfinite =>
    have hhead := (isDecimalText_unsignedText (shortest x)).head
    obtain ⟨d, hd, hvalue⟩ := exists_decimal?_unsignedText (shortest x)
    rw [ofText?_of_digit (splitSign_sourceText _) hhead, hd, Option.map_some, hvalue,
      toBinary64_shortest (Bool.eq_false_of_not_eq_true hfinite)]

/-- The text of a floating-point number does not consist of digits. -/
theorem all_isDecimalDigit_sourceText (x : Binary64) :
    (splitSign (Floating.number x).sourceText).2.all isDecimalDigit = false := by
  rw [sourceText_number]
  split
  · cases x.negative with
    | true => rfl
    | false => rfl
  · rw [splitSign_sourceText]
    simpa using (isDecimalText_unsignedText (shortest x)).mark

/-- The text of a floating-point number is no integer. -/
theorem integer?_sourceText (x : Binary64) : integer? (Floating.number x).sourceText = none := by
  simp only [integer?, all_isDecimalDigit_sourceText, Bool.not_false, Bool.or_true, if_true]

theorem exceedsDigitLimit_sourceText (x : Binary64) :
    exceedsDigitLimit (Floating.number x).sourceText = false := by
  rw [exceedsDigitLimit, all_isDecimalDigit_sourceText, Bool.false_and]

theorem isSpelling_sourceText (x : Binary64) :
    ∀ c ∈ (Floating.number x).sourceText, isSpelling c = true := by
  have hsign : ∀ negative : Bool, ∀ c ∈ if negative then ['-'] else [], isSpelling c = true := by
    intro negative
    cases negative with
    | true => exact List.forall_mem_singleton.2 rfl
    | false => exact fun _ hc => by cases hc
  rw [sourceText_number]
  split
  · refine List.forall_mem_append.2 ⟨hsign _, ?_⟩
    simp [isSpelling]
  · rw [sourceText_eq]
    exact List.forall_mem_append.2 ⟨hsign _, (isDecimalText_unsignedText _).spelling⟩

end Floating

theorem isSpelling_integerText (n : Int) : ∀ c ∈ integerText n, isSpelling c = true := by
  have hdigits : ∀ c ∈ decimalDigits n.natAbs, isSpelling c = true := fun c hc =>
    isSpelling_of_digit (isDecimalDigit_of_mem c hc)
  unfold integerText
  split
  · exact List.forall_mem_cons.2 ⟨rfl, hdigits⟩
  · exact hdigits

end SmallLisp.Number
