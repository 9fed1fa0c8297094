import Mathlib
import SmallLisp.Number.Spelling

/-! # Numerals

The decimal digits of a number denote it. Multiplying by ten adds a zero at the end,
so that the zeros at the end of the digits can be told from the rest. -/

namespace SmallLisp.Number

/-! ## What digits denote -/

theorem foldl_digits (base : Nat) (digits : List Char) (n : Nat) :
    digits.foldl (fun n c => n * base + digitValue c) n =
      n * base ^ digits.length + numeral base digits := by
  induction digits generalizing n with
  | nil => simp [numeral]
  | cons c cs ih =>
    have hcons : numeral base (c :: cs) = digitValue c * base ^ cs.length + numeral base cs := by
      rw [numeral, List.foldl_cons, ih, Nat.zero_mul, Nat.zero_add]
    rw [List.foldl_cons, ih, hcons, List.length_cons, pow_succ]
    ring

theorem numeral_append (base : Nat) (xs ys : List Char) :
    numeral base (xs ++ ys) = numeral base xs * base ^ ys.length + numeral base ys := by
  rw [numeral, List.foldl_append, foldl_digits]
  rfl

theorem numeral_singleton (base : Nat) (c : Char) : numeral base [c] = digitValue c := by
  simp [numeral]

@[simp] theorem numeral_zeros (base k : Nat) : numeral base (List.replicate k '0') = 0 := by
  induction k with
  | zero => rfl
  | succ k ih =>
    rw [List.replicate_succ', numeral_append, ih, numeral_singleton, Nat.zero_mul]
    rfl

theorem digitValue_digitChar : ∀ d < 10, digitValue (Nat.digitChar d) = d := by decide

theorem isDecimalDigit_digitChar : ∀ d < 10, isDecimalDigit (Nat.digitChar d) = true := by decide

theorem digitChar_ne_zero : ∀ d < 10, d ≠ 0 → Nat.digitChar d ≠ '0' := by decide

/-! ## The digits of a number -/

theorem decimalDigits_of_lt {n : Nat} (h : n < 10) : decimalDigits n = [Nat.digitChar n] := by
  rw [decimalDigits, if_pos h]

theorem decimalDigits_of_le {n : Nat} (h : 10 ≤ n) :
    decimalDigits n = decimalDigits (n / 10) ++ [Nat.digitChar (n % 10)] := by
  rw [decimalDigits, if_neg (Nat.not_lt.2 h)]

/-- The last digit counts the units. -/
theorem decimalDigits_last (n : Nat) :
    ∃ init, decimalDigits n = init ++ [Nat.digitChar (n % 10)] := by
  by_cases h : n < 10
  · exact ⟨[], by rw [decimalDigits_of_lt h, Nat.mod_eq_of_lt h, List.nil_append]⟩
  · exact ⟨_, decimalDigits_of_le (Nat.le_of_not_lt h)⟩

theorem numeral_decimalDigits (n : Nat) : numeral 10 (decimalDigits n) = n := by
  induction n using Nat.strongRecOn with
  | _ n ih =>
    by_cases h : n < 10
    · rw [decimalDigits_of_lt h, numeral_singleton, digitValue_digitChar n h]
    · have hdiv : n / 10 < n := by omega
      rw [decimalDigits_of_le (Nat.le_of_not_lt h), numeral_append, ih _ hdiv, numeral_singleton,
        digitValue_digitChar _ (Nat.mod_lt n (by decide))]
      simp only [List.length_singleton, pow_one]
      omega

theorem isDecimalDigit_of_mem {n : Nat} : ∀ c ∈ decimalDigits n, isDecimalDigit c = true := by
  induction n using Nat.strongRecOn with
  | _ n ih =>
    intro c hc
    by_cases h : n < 10
    · rw [decimalDigits_of_lt h, List.mem_singleton] at hc
      exact hc ▸ isDecimalDigit_digitChar n h
    · rw [decimalDigits_of_le (Nat.le_of_not_lt h), List.mem_append, List.mem_singleton] at hc
      rcases hc with hc | rfl
      · exact ih (n / 10) (by omega) c hc
      · exact isDecimalDigit_digitChar _ (Nat.mod_lt n (by decide))

theorem decimalDigits_ne_nil (n : Nat) : decimalDigits n ≠ [] := by
  obtain ⟨init, h⟩ := decimalDigits_last n
  simp [h]

theorem decimalDigits_mul_ten {n : Nat} (h : 0 < n) :
    decimalDigits (n * 10) = decimalDigits n ++ ['0'] := by
  rw [decimalDigits_of_le (by omega), Nat.mul_div_cancel n (by decide), Nat.mul_mod_left]
  rfl

theorem decimalDigits_mul_pow {n : Nat} (h : 0 < n) (k : Nat) :
    decimalDigits (n * 10 ^ k) = decimalDigits n ++ List.replicate k '0' := by
  induction k with
  | zero => simp
  | succ k ih =>
    have hpos : 0 < n * 10 ^ k := by positivity
    rw [pow_succ, ← Nat.mul_assoc, decimalDigits_mul_ten hpos, ih, List.replicate_succ',
      List.append_assoc]

theorem lt_pow_length (n : Nat) : n < 10 ^ (decimalDigits n).length := by
  induction n using Nat.strongRecOn with
  | _ n ih =>
    by_cases h : n < 10
    · simpa [decimalDigits_of_lt h] using h
    · have hdiv := ih (n / 10) (by omega)
      rw [decimalDigits_of_le (Nat.le_of_not_lt h), List.length_append, List.length_singleton,
        pow_succ]
      omega

/-- A number that reaches a power of ten has more digits than the exponent. -/
theorem lt_length_of_pow_le {n k : Nat} (h : 10 ^ k ≤ n) : k < (decimalDigits n).length := by
  have hlt := Nat.lt_of_le_of_lt h (lt_pow_length n)
  exact (Nat.pow_lt_pow_iff_right (by decide)).1 hlt

/-- A number below a power of ten, but not zero, has no more digits than the exponent. -/
theorem length_le_of_lt_pow {n k : Nat} (hpos : 0 < n) (h : n < 10 ^ k) :
    (decimalDigits n).length ≤ k := by
  induction k generalizing n with
  | zero => omega
  | succ k ih =>
    by_cases hn : n < 10
    · simp [decimalDigits_of_lt hn]
    · rw [decimalDigits_of_le (Nat.le_of_not_lt hn), List.length_append, List.length_singleton]
      have hdiv : n / 10 < 10 ^ k := by
        rw [pow_succ] at h
        omega
      exact Nat.succ_le_succ (ih (by omega) hdiv)

/-! ## Zeros at the end -/

theorem dropEndZeros_append_zeros {digits : List Char} {c : Char} (hc : c ≠ '0') (k : Nat) :
    dropEndZeros ((digits ++ [c]) ++ List.replicate k '0') = digits ++ [c] := by
  have hzeros : ∀ a ∈ List.replicate k '0', (a == '0') = true := by
    intro a ha
    rw [List.eq_of_mem_replicate ha]
    rfl
  have hdrop : (((digits ++ [c]) ++ List.replicate k '0').reverse.dropWhile (· == '0')).reverse =
      digits ++ [c] := by
    rw [List.reverse_append, List.reverse_replicate, List.dropWhile_append_of_pos hzeros,
      List.reverse_append, List.reverse_singleton, List.singleton_append,
      List.dropWhile_cons_of_neg (by simpa using hc)]
    simp
  rw [dropEndZeros, hdrop]
  cases digits with
  | nil => rfl
  | cons d ds => rfl

/-- Without the zeros at their end, the digits of a number are those of another, and
the zeros are so many factors of ten. -/
theorem exists_dropEndZeros {n : Nat} (h : 0 < n) :
    ∃ m k, 0 < m ∧ n = m * 10 ^ k ∧ dropEndZeros (decimalDigits n) = decimalDigits m := by
  obtain ⟨k, m, hdvd, rfl⟩ := Nat.exists_eq_pow_mul_and_not_dvd (Nat.ne_of_gt h) 10 (by decide)
  have hm : 0 < m := Nat.pos_of_ne_zero fun hm => hdvd (hm ▸ Nat.dvd_zero 10)
  refine ⟨m, k, hm, Nat.mul_comm _ _, ?_⟩
  obtain ⟨init, hlast⟩ := decimalDigits_last m
  have hne : Nat.digitChar (m % 10) ≠ '0' :=
    digitChar_ne_zero _ (Nat.mod_lt m (by decide)) fun hz => hdvd (Nat.dvd_of_mod_eq_zero hz)
  rw [Nat.mul_comm, decimalDigits_mul_pow hm, hlast, dropEndZeros_append_zeros hne]

end SmallLisp.Number
