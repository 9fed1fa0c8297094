import SmallLisp.Proofs.Number.Numerals

/-! # Rounding of decimals

The nearest floating-point number depends only on the value of a fraction, hence that
of a decimal only on its value: zeros may be added to its digits. A number whose
magnitude is a place is nearest to itself. -/

namespace SmallLisp.Number

/-! ## Fractions -/

theorem roundHalfEven_mul {k : Nat} (hk : 0 < k) (num den : Nat) :
    roundHalfEven (num * k) (den * k) = roundHalfEven num den := by
  have hdouble : 2 * (num % den * k) = 2 * (num % den) * k := by ring
  have hlt : den * k < 2 * (num % den) * k ↔ den < 2 * (num % den) :=
    Nat.mul_lt_mul_right hk
  have heq : (2 * (num % den) * k == den * k) = (2 * (num % den) == den) := by
    rw [Bool.eq_iff_iff, beq_iff_eq, beq_iff_eq]
    exact Nat.mul_left_inj hk.ne'
  simp only [roundHalfEven, Nat.mul_div_mul_right num den hk, Nat.mul_mod_mul_right, hdouble, hlt,
    heq]

theorem nearestRank_mul {k : Nat} (hk : 0 < k) (num den : Nat) :
    nearestRank (num * k) (den * k) = nearestRank num den := by
  have hden : ∀ p, den * k * p = den * p * k := fun p => by ring
  simp only [nearestRank, Nat.mul_div_mul_right num den hk, hden, roundHalfEven_mul hk]

/-- Equal fractions have the same nearest number. -/
theorem nearest_congr {negative : Bool} {num den num' den' : Nat} (hden : 0 < den)
    (hden' : 0 < den') (h : num * den' = num' * den) :
    Binary64.nearest negative num den = Binary64.nearest negative num' den' := by
  have hrank : nearestRank num den = nearestRank num' den' := by
    rw [← nearestRank_mul hden' num den, h, Nat.mul_comm den den', nearestRank_mul hden]
  simp only [Binary64.nearest, hrank]

theorem roundHalfEven_mul_self {den : Nat} (hden : 0 < den) (n : Nat) :
    roundHalfEven (n * den) den = n := by
  have hmod : n * den % den = 0 := Nat.mul_mod_left n den
  have hne : (0 == den) = false := by simpa using hden.ne
  simp only [roundHalfEven, Nat.mul_div_cancel n hden, hmod, Nat.mul_zero, hne, Nat.not_lt_zero,
    decide_false, Bool.false_and, Bool.or_false, Bool.false_eq_true, if_false]

/-- A magnitude of 53 binary digits, or of fewer in single units, is rounded to itself. -/
theorem nearestRank_mul_pow {m e : Nat} (hlt : m < 2 ^ 53) (hle : e = 0 ∨ 2 ^ 52 ≤ m) :
    nearestRank (m * 2 ^ e) 1 = min infinityRank (e * 2 ^ 52 + m) := by
  have hshift : (m * 2 ^ e).log2 - 52 = e := by
    rcases hle with rfl | hle
    · rcases Nat.eq_zero_or_pos m with rfl | hpos
      · rfl
      · have hlog : m.log2 < 53 := (Nat.log2_lt hpos.ne').2 hlt
        rw [pow_zero, Nat.mul_one]
        omega
    · have hne : m * 2 ^ e ≠ 0 := by positivity
      have hlog : (m * 2 ^ e).log2 = 52 + e := by
        refine (Nat.log2_eq_iff hne).2 ⟨?_, ?_⟩
        · rw [pow_add]
          exact Nat.mul_le_mul_right _ hle
        · rw [Nat.add_right_comm, pow_add]
          exact Nat.mul_lt_mul_of_pos_right hlt (by positivity)
      rw [hlog, Nat.add_sub_cancel_left]
  have hround : roundHalfEven (m * 2 ^ e) (2 ^ e) = m := roundHalfEven_mul_self (by positivity) m
  simp only [nearestRank, Nat.div_one, hshift, Nat.one_mul, Nat.pow_eq, hround]

/-- A magnitude is nearest to its own place. -/
theorem nearestRank_unitsAt {rank : Nat} (h : rank ≤ infinityRank) :
    nearestRank (unitsAt rank) 1 = rank := by
  have hdivmod := Nat.div_add_mod rank (2 ^ 52)
  have hmod := Nat.mod_lt rank (show 2 ^ 52 > 0 by decide)
  unfold unitsAt
  split
  · next hzero =>
    rw [Nat.pow_eq] at hzero
    have hrank := nearestRank_mul_pow (m := rank) (e := 0) (by omega) (.inl rfl)
    rw [pow_zero, Nat.mul_one, Nat.zero_mul, Nat.zero_add, Nat.min_eq_right h] at hrank
    exact hrank
  · next e he =>
    rw [Nat.pow_eq] at he ⊢
    have hplace : e * 2 ^ 52 + (2 ^ 52 + rank % 2 ^ 52) = rank := by omega
    rw [Nat.pow_eq, nearestRank_mul_pow (by omega) (.inr (by omega)), hplace, Nat.min_eq_right h]

theorem unitsAt_pos {rank : Nat} (h : rank ≠ 0) : 0 < unitsAt rank := by
  unfold unitsAt
  split
  · exact Nat.pos_of_ne_zero h
  · exact Nat.mul_pos (Nat.add_pos_left (by decide) _) (Nat.pow_pos (by decide))

theorem unitsInOne_eq : unitsInOne = 2 ^ 1074 := by decide +kernel

theorem pow_le_pow_mul {e a b p : Nat} (hp : p = 2 ^ b) (h : e ≤ a + b) :
    2 ^ e ≤ 2 ^ a * p := by
  rw [hp, ← pow_add]
  exact Nat.pow_le_pow_right Nat.two_pos h

/-- Finite numbers are below `2 ^ 1024`. -/
theorem unitsAt_lt {rank : Nat} (h : rank < infinityRank) :
    unitsAt rank < 2 ^ 1024 * unitsInOne := by
  have hmod := Nat.mod_lt rank (show 2 ^ 52 > 0 by decide)
  have hdiv : rank / 2 ^ 52 < 2047 := Nat.div_lt_of_lt_mul (by
    rw [infinityRank, Nat.pow_eq] at h
    omega)
  have htop : ∀ e ≤ 1024 + 1074, 2 ^ e ≤ 2 ^ 1024 * unitsInOne := fun e =>
    pow_le_pow_mul unitsInOne_eq
  unfold unitsAt
  simp only [Nat.pow_eq]
  split
  · exact Nat.lt_of_lt_of_le (by omega) (htop 52 (by omega))
  · next e he =>
    calc (2 ^ 52 + rank % 2 ^ 52) * 2 ^ e < 2 ^ 53 * 2 ^ e :=
          Nat.mul_lt_mul_of_pos_right (by omega) (by positivity)
      _ = 2 ^ (53 + e) := (pow_add 2 53 e).symm
      _ ≤ 2 ^ 1024 * unitsInOne := htop _ (by omega)

/-- From `2 ^ 1024` on, the nearest number is infinity. -/
theorem nearestRank_of_le {units : Nat} (h : 2 ^ 1024 * unitsInOne ≤ units) :
    nearestRank units 1 = infinityRank := by
  rw [unitsInOne_eq, ← pow_add] at h
  have hne : units ≠ 0 := (Nat.lt_of_lt_of_le (by positivity) h).ne'
  have hlog : 1024 + 1074 ≤ units.log2 := (Nat.le_log2 hne).2 h
  obtain ⟨shift, hshift⟩ := Nat.exists_eq_add_of_le' (show 52 ≤ units.log2 by omega)
  have hlead : 2 ^ 52 ≤ units / 2 ^ shift := by
    rw [Nat.le_div_iff_mul_le (by positivity), ← pow_add, Nat.add_comm, ← hshift]
    exact Nat.log2_self_le hne
  have hround : units / 2 ^ shift ≤ roundHalfEven units (2 ^ shift) := by
    simp only [roundHalfEven]
    split <;> omega
  have hsub : units.log2 - 52 = shift := by omega
  simp only [nearestRank, Nat.div_one, Nat.one_mul, Nat.pow_eq, hsub, infinityRank]
  omega

/-- Below `2 ^ 1023`, the nearest number is finite. -/
theorem nearestRank_lt {units : Nat} (h : units < 2 ^ 1023 * unitsInOne) :
    nearestRank units 1 < infinityRank := by
  rw [unitsInOne_eq, ← pow_add] at h
  obtain ⟨shift, hshift⟩ : ∃ shift, units.log2 - 52 = shift := ⟨_, rfl⟩
  have hle : shift ≤ 2044 := by
    rcases Nat.eq_zero_or_pos units with rfl | hpos
    · exact hshift ▸ Nat.zero_le _
    · have hlog : units.log2 < 1023 + 1074 := (Nat.log2_lt hpos.ne').2 h
      omega
  have hlead : units / 2 ^ shift < 2 ^ 53 := by
    refine Nat.div_lt_of_lt_mul ?_
    calc units < 2 ^ (units.log2 + 1) := Nat.lt_log2_self
      _ ≤ 2 ^ (shift + 53) := Nat.pow_le_pow_right Nat.two_pos (by omega)
      _ = 2 ^ shift * 2 ^ 53 := pow_add 2 shift 53
  have hround : roundHalfEven units (2 ^ shift) ≤ units / 2 ^ shift + 1 := by
    simp only [roundHalfEven]
    split <;> omega
  simp only [nearestRank, Nat.div_one, Nat.one_mul, Nat.pow_eq, hshift, infinityRank]
  omega

namespace Binary64

theorem nearest_units (x : Binary64) : nearest x.negative x.units 1 = x := by
  have hrank := nearestRank_unitsAt x.rank_le
  simp only [nearest, units, hrank]

/-- A remainder is finite where the dividend is. -/
theorem isInfinite_rem {x : Binary64} (hx : x.isInfinite = false) (y : Binary64) :
    (x.rem y).isInfinite = false := by
  have hunits : x.units < 2 ^ 1024 * unitsInOne := by
    refine unitsAt_lt (Nat.lt_of_le_of_ne x.rank_le fun hrank => ?_)
    simp [isInfinite, hrank] at hx
  unfold rem
  split
  · exact hx
  by_cases hsmaller : x.units < y.units ∨ y.units = 0
  · have hmod : x.units % y.units = x.units := by
      rcases hsmaller with hlt | hzero
      · exact Nat.mod_eq_of_lt hlt
      · rw [hzero, Nat.mod_zero]
    rwa [hmod, nearest_units]
  · -- The divisor fits into the dividend, so that the remainder is less than half of it.
    have hpos : 0 < y.units := by omega
    have hmod := Nat.mod_lt x.units hpos
    have hdivmod := Nat.div_add_mod x.units y.units
    have hquotient : y.units ≤ y.units * (x.units / y.units) :=
      Nat.le_mul_of_pos_right _ (Nat.div_pos (by omega) hpos)
    have hhalf : x.units % y.units < 2 ^ 1023 * unitsInOne := by
      generalize y.units * (x.units / y.units) = multiple at hdivmod hquotient
      generalize x.units % y.units = rest at hmod hdivmod ⊢
      omega
    exact beq_false_of_ne (nearestRank_lt hhalf).ne

end Binary64

/-! ## Decimals -/

namespace Decimal

/-- The same number with zeros added to its digits. -/
def pad (d : Decimal) (k : Nat) : Decimal :=
  ⟨d.negative, d.coefficient * 10 ^ k, d.exponent - k⟩

theorem magnitude_pad {d : Decimal} (h : d.coefficient ≠ 0) (k : Nat) :
    (d.pad k).magnitude = d.magnitude := by
  simp only [magnitude, pad, decimalDigits_mul_pow (Nat.pos_of_ne_zero h), List.length_append,
    List.length_replicate]
  omega

/-- The numerator and denominator, in units, that a decimal is rounded from. -/
def fraction (d : Decimal) : Nat × Nat :=
  if 0 ≤ d.exponent then (d.coefficient * unitsInOne * 10 ^ d.exponent.toNat, 1)
  else (d.coefficient * unitsInOne, 10 ^ (-d.exponent).toNat)

theorem fraction_of_nonneg {d : Decimal} (h : 0 ≤ d.exponent) :
    d.fraction = (d.coefficient * unitsInOne * 10 ^ d.exponent.toNat, 1) := if_pos h

theorem fraction_of_neg {d : Decimal} (h : d.exponent < 0) :
    d.fraction = (d.coefficient * unitsInOne, 10 ^ (-d.exponent).toNat) :=
  if_neg (Int.not_le.2 h)

/-- The nearest number to a decimal, however large or small the decimal is. -/
def rounded (d : Decimal) : Binary64 := .nearest d.negative d.fraction.1 d.fraction.2

theorem toBinary64_eq (d : Decimal) :
    d.toBinary64 =
      if d.coefficient = 0 then .zero d.negative
      else if 310 < d.magnitude then .infinity d.negative
      else if d.magnitude < -330 then .zero d.negative
      else d.rounded := by
  unfold toBinary64 rounded fraction
  by_cases he : 0 ≤ d.exponent
  · simp only [if_pos he, Nat.pow_eq]
  · simp only [if_neg he, Nat.pow_eq]

theorem fraction_pos (d : Decimal) : 0 < d.fraction.2 := by
  by_cases h : 0 ≤ d.exponent
  · rw [fraction_of_nonneg h]
    exact Nat.one_pos
  · rw [fraction_of_neg (Int.not_le.1 h)]
    exact Nat.pow_pos (by decide)

theorem fraction_pad (d : Decimal) (k : Nat) :
    (d.pad k).fraction.1 * d.fraction.2 = d.fraction.1 * (d.pad k).fraction.2 := by
  unfold fraction pad
  by_cases hk : 0 ≤ d.exponent - k
  · have hexp : d.exponent.toNat = k + (d.exponent - k).toNat := by omega
    rw [if_pos hk, if_pos (by omega), hexp, pow_add]
    ring
  · rw [if_neg hk]
    by_cases he : 0 ≤ d.exponent
    · have hexp : 10 ^ k = 10 ^ d.exponent.toNat * 10 ^ (-(d.exponent - k)).toNat := by
        rw [← pow_add]
        congr 1
        omega
      rw [if_pos he, hexp]
      ring
    · have hexp : (-(d.exponent - k)).toNat = k + (-d.exponent).toNat := by omega
      rw [if_neg he, hexp, pow_add]
      ring

/-- Zeros added to the digits of a decimal do not change the nearest number. -/
theorem toBinary64_pad (d : Decimal) (k : Nat) : (d.pad k).toBinary64 = d.toBinary64 := by
  by_cases h : d.coefficient = 0
  · have hpad : (d.pad k).coefficient = 0 := by rw [pad, h, Nat.zero_mul]
    rw [toBinary64_eq, toBinary64_eq, if_pos hpad, if_pos h]
    rfl
  · have hpad : (d.pad k).coefficient ≠ 0 := Nat.mul_ne_zero h (by positivity)
    have hrounded : (d.pad k).rounded = d.rounded :=
      nearest_congr (d.pad k).fraction_pos d.fraction_pos (d.fraction_pad k)
    rw [toBinary64_eq, toBinary64_eq, if_neg hpad, if_neg h, magnitude_pad h, hrounded]
    rfl

/-- A decimal without fraction and exponent is rounded like the integer that it is. -/
theorem toBinary64_whole (negative : Bool) {n : Nat} (h : 0 < n) :
    toBinary64 ⟨negative, n, 0⟩ = .nearest negative (n * unitsInOne) 1 := by
  have hrounded : rounded ⟨negative, n, 0⟩ = .nearest negative (n * unitsInOne) 1 := by
    simp [rounded, fraction]
  rw [toBinary64_eq, if_neg h.ne']
  simp only [magnitude, Int.add_zero]
  split
  · next hlarge =>
    have hpow : 10 ^ 310 ≤ n := by
      by_contra hlt
      have hlength := length_le_of_lt_pow h (Nat.lt_of_not_le hlt)
      omega
    have hthreshold : 2 ^ 1024 ≤ 10 ^ 310 := by decide +kernel
    have hrank := nearestRank_of_le (Nat.mul_le_mul_right unitsInOne (hthreshold.trans hpow))
    simp only [Binary64.nearest, Binary64.infinity, hrank]
  · rw [if_neg (by omega), hrounded]

end Decimal

/-! ## The shortest decimal -/

/-- The decimal with `places` digits after the point whose value is `units` units of
`2 ^ -places`. -/
def exactDecimal (negative : Bool) (units places : Nat) : Decimal :=
  ⟨negative, units * Nat.pow 5 places, -places⟩

theorem magnitude_exactDecimal (negative : Bool) {units places high low : Nat}
    (hhigh : units < 10 ^ high * 2 ^ places) (hlow : 10 ^ low ≤ 5 ^ places) (hpos : 0 < units) :
    (exactDecimal negative units places).magnitude ≤ high ∧
      (low : Int) - places < (exactDecimal negative units places).magnitude := by
  have hcoefficient : 0 < units * 5 ^ places := by positivity
  have htop : units * 5 ^ places < 10 ^ (high + places) := by
    calc units * 5 ^ places < 10 ^ high * 2 ^ places * 5 ^ places :=
          Nat.mul_lt_mul_of_pos_right hhigh (by positivity)
      _ = 10 ^ (high + places) := by rw [Nat.mul_assoc, ← Nat.mul_pow, pow_add]
  have hlength := length_le_of_lt_pow hcoefficient htop
  have hlength' := lt_length_of_pow_le (hlow.trans (Nat.le_mul_of_pos_left _ hpos))
  simp only [Decimal.magnitude, exactDecimal, Nat.pow_eq]
  omega

theorem coefficient_exactDecimal_ne_zero {negative : Bool} {units places : Nat}
    (h : 0 < units) : (exactDecimal negative units places).coefficient ≠ 0 :=
  Nat.mul_ne_zero h.ne' (Nat.pow_pos (by decide)).ne'

theorem rounded_exactDecimal (negative : Bool) (units : Nat) {places : Nat}
    (hunits : unitsInOne = 2 ^ places) :
    (exactDecimal negative units places).rounded = .nearest negative units 1 := by
  have hten : 5 ^ places * 2 ^ places = 10 ^ places := (Nat.mul_pow 5 2 places).symm
  have hexponent : (exactDecimal negative units places).exponent = -places := rfl
  have hcoefficient : (exactDecimal negative units places).coefficient = units * 5 ^ places := by
    simp only [exactDecimal, Nat.pow_eq]
  refine nearest_congr (Decimal.fraction_pos _) Nat.one_pos ?_
  by_cases hzero : places = 0
  · rw [Decimal.fraction_of_nonneg (by omega), hexponent, hcoefficient, hunits, hzero]
    simp
  · rw [Decimal.fraction_of_neg (by omega), hexponent, hcoefficient, hunits, neg_neg,
      Int.toNat_natCast, Nat.mul_one, Nat.mul_assoc, hten]

/-- The exact value of a finite number other than zero reads back as the number. -/
theorem toBinary64_exactDecimal {x : Binary64} (hzero : x.rank ≠ 0)
    (hfinite : x.rank < infinityRank) :
    (exactDecimal x.negative x.units 1074).toBinary64 = x := by
  have hpos : 0 < x.units := unitsAt_pos hzero
  have hhigh : x.units < 10 ^ 310 * 2 ^ 1074 := by
    have hlt : x.units < 2 ^ 1024 * unitsInOne := unitsAt_lt hfinite
    have hpow : 2 ^ 1024 ≤ 10 ^ 310 := by decide +kernel
    rw [unitsInOne_eq] at hlt
    exact hlt.trans_le (Nat.mul_le_mul_right _ hpow)
  have hlow : 10 ^ 743 ≤ 5 ^ 1074 := by decide +kernel
  obtain ⟨hhigh, hlow⟩ := magnitude_exactDecimal x.negative hhigh hlow hpos
  rw [Decimal.toBinary64_eq, if_neg (coefficient_exactDecimal_ne_zero hpos),
    if_neg (by omega), if_neg (by omega), rounded_exactDecimal x.negative x.units unitsInOne_eq]
  exact x.nearest_units

/-- The first of two that meets a condition, if one does. -/
theorem of_first_of_two {α : Type} {p : α → Prop} [DecidablePred p] {a b d : α}
    (h : (if p a then some a else if p b then some b else none) = some d) : p d := by
  split at h
  · next ha =>
    cases h
    exact ha
  · split at h
    · next hb =>
      cases h
      exact hb
    · cases h

theorem toBinary64_of_onGrid? {x : Binary64} {exponent : Int} {d : Decimal}
    (h : onGrid? x exponent = some d) : d.toBinary64 = x := by
  simp only [onGrid?] at h
  exact of_first_of_two (p := fun d : Decimal => d.toBinary64 = x) h

theorem shortestFrom_zero (x : Binary64) (power : Int) (digits : Nat) :
    shortestFrom x power digits 0 = exactDecimal x.negative x.units 1074 := by
  rw [shortestFrom, exactDecimal, Nat.cast_ofNat]

theorem toBinary64_shortestFrom {x : Binary64} (hzero : x.rank ≠ 0)
    (hfinite : x.rank < infinityRank) (power : Int) (limit : Nat) :
    ∀ digits, (shortestFrom x power digits limit).toBinary64 = x := by
  induction limit with
  | zero =>
    intro digits
    rw [shortestFrom_zero]
    exact toBinary64_exactDecimal hzero hfinite
  | succ limit ih =>
    intro digits
    unfold shortestFrom
    split
    · next d hd => exact toBinary64_of_onGrid? hd
    · exact ih (digits + 1)

/-- The shortest decimal of a finite number reads back as the number. -/
theorem toBinary64_shortest {x : Binary64} (h : x.isInfinite = false) :
    (shortest x).toBinary64 = x := by
  have hfinite : x.rank < infinityRank :=
    Nat.lt_of_le_of_ne x.rank_le fun he => by simp [Binary64.isInfinite, he] at h
  unfold shortest
  split
  · next hzero =>
    obtain ⟨negative, rank, hrank⟩ := x
    obtain rfl : rank = 0 := by simpa [Binary64.isZero] using hzero
    rfl
  · next hzero =>
    exact toBinary64_shortestFrom (fun he => hzero (by simp [Binary64.isZero, he])) hfinite _ _ _

end SmallLisp.Number
