import Mathlib
import SmallLisp.Proofs.Execution
import SmallLisp.Proofs.FrameEffects
import SmallLisp.Proofs.HostFaults
import SmallLisp.Proofs.Number.ReadBack

/-! # Exact arithmetic

Where no operand is a float, an operator folds integers of any size. Each operand is
converted just before its step, a zero to divide by is refused, and what a step gives has
to lie in the range. The first step that cannot be made decides the error. -/

namespace SmallLisp

open EvalM Number

namespace Arithmetic

/-! ## Exact operations -/

/-- A fraction without what comes after its point. -/
def truncated (q : ℚ) : Int := if 0 ≤ q then ⌊q⌋ else ⌈q⌉

/-- What an operator stands for, on all integers. -/
def exact : Arithmetic → Int → Int → Int
  | add, a, b => a + b
  | sub, a, b => a - b
  | mul, a, b => a * b
  | div, a, b => truncated (a / b)
  | rem, a, b => a - b * truncated (a / b)

/-- The error at a zero, for the operators that divide. -/
def zeroError? : Arithmetic → Option ScriptError
  | div => some .divisionByZero
  | rem => some .remainderByZero
  | _ => none

theorem truncated_neg (q : ℚ) : truncated (-q) = -truncated q := by
  unfold truncated
  rcases lt_trichotomy q 0 with hq | rfl | hq
  · rw [if_pos (by linarith), if_neg (by linarith), Int.floor_neg]
  · simp
  · rw [if_neg (by linarith), if_pos hq.le, Int.ceil_neg]

theorem truncated_natCast_div (a b : ℕ) : truncated ((a : Int) / (b : Int)) = (a : Int).tdiv b := by
  have hnonneg : (0 : ℚ) ≤ (a : Int) / (b : Int) := by positivity
  rw [truncated, if_pos hnonneg, Int.cast_natCast (R := ℚ) b, Rat.floor_intCast_div_natCast,
    Int.tdiv_eq_ediv_of_nonneg (Int.natCast_nonneg a)]

theorem truncated_div (a b : Int) : truncated (a / b) = a.tdiv b := by
  -- A sign on either side goes through the fraction and through the division alike.
  obtain ⟨k, rfl | rfl⟩ := Int.eq_nat_or_neg a <;> obtain ⟨l, rfl | rfl⟩ := Int.eq_nat_or_neg b
  · exact truncated_natCast_div k l
  · rw [Int.cast_neg, div_neg, truncated_neg, truncated_natCast_div, Int.tdiv_neg]
  · rw [Int.cast_neg, neg_div, truncated_neg, truncated_natCast_div, Int.neg_tdiv]
  · rw [Int.cast_neg, Int.cast_neg, neg_div_neg_eq, truncated_natCast_div, Int.neg_tdiv,
      Int.tdiv_neg, neg_neg]

theorem exact_rem (a b : Int) : exact rem a b = a.tmod b := by
  rw [exact, truncated_div, Int.tmod_def]

/-- A remainder is zero or on the side of the dividend, and smaller than the divisor. -/
theorem sign_exact_rem (a : Int) {b : Int} (hb : b ≠ 0) :
    (exact rem a b = 0 ∨ (exact rem a b).sign = a.sign) ∧ |exact rem a b| < |b| := by
  rw [exact_rem]
  constructor
  · by_cases h : b ∣ a
    · exact .inl (Int.tmod_eq_zero_of_dvd h)
    · exact .inr (by rw [Int.sign_tmod, if_neg h])
  · rw [Int.abs_eq_natAbs, Int.abs_eq_natAbs, Int.natAbs_tmod]
    exact_mod_cast Nat.mod_lt _ (Int.natAbs_pos.2 hb)

variable {op : Arithmetic} {a b c : Int} {v : Value} {vs : List Value} {s : Stop}

theorem onInts_eq_ok_iff :
    op.onInts a b = .ok c ↔ (op.zeroError? ≠ none → b ≠ 0) ∧ op.exact a b = c := by
  cases op <;> simp [onInts, exact, zeroError?, truncated_div, Int.tmod_def] <;> grind

theorem onInts_eq_error_iff :
    op.onInts a b = .error s ↔ ∃ e, op.zeroError? = some e ∧ b = 0 ∧ s = .error e := by
  cases op <;> simp [onInts, zeroError?] <;> grind

/-! ## Steps -/

/-- A step is made: the operand converts to an integer that is no zero to divide by, and the
exact result lies in the range. -/
def Steps (op : Arithmetic) (a : Int) (v : Value) (c : Int) : Prop :=
  ∃ b, v.toInt = .ok b ∧ (op.zeroError? ≠ none → b ≠ 0) ∧ op.exact a b = c ∧ inRange c = true

/-- The ways in which a step cannot be made. -/
inductive StepFails (op : Arithmetic) (a : Int) (v : Value) : Stop → Prop
  | conversion {s : Stop} : v.toInt = .error s → StepFails op a v s
  | zero {e : ScriptError} : v.toInt = .ok 0 → op.zeroError? = some e → StepFails op a v (.error e)
  | overflow {b : Int} : v.toInt = .ok b → (op.zeroError? ≠ none → b ≠ 0) →
      inRange (op.exact a b) = false → StepFails op a v (.error .overflow)

/-- A fold takes its first step before it looks at the operands after it. -/
theorem foldInts_cons_eq_ok_iff {n : Int} :
    op.foldInts a (v :: vs) = .ok n ↔ ∃ c, op.Steps a v c ∧ op.foldInts c vs = .ok n := by
  constructor
  · intro h
    obtain ⟨b, hb, h⟩ := exists_of_bind_eq_ok h
    obtain ⟨c, hc, h⟩ := exists_of_bind_eq_ok h
    obtain ⟨hzero, rfl⟩ := onInts_eq_ok_iff.1 hc
    split at h
    · next hrange => exact ⟨_, ⟨b, hb, hzero, rfl, hrange⟩, h⟩
    · cases h
  · rintro ⟨c, ⟨b, hb, hzero, hexact, hrange⟩, h⟩
    have hc : op.onInts a b = .ok c := onInts_eq_ok_iff.2 ⟨hzero, hexact⟩
    simp only [foldInts, hb, hc, hrange, if_true, bind, Except.bind, h]

theorem foldInts_cons_eq_error_iff :
    op.foldInts a (v :: vs) = .error s ↔
      op.StepFails a v s ∨ ∃ c, op.Steps a v c ∧ op.foldInts c vs = .error s := by
  constructor
  · intro h
    cases hb : v.toInt with
    | error s' =>
      simp only [foldInts, hb, bind, Except.bind, Except.error.injEq] at h
      exact .inl (.conversion (h ▸ hb))
    | ok b =>
      cases hc : op.onInts a b with
      | error s' =>
        simp only [foldInts, hb, hc, bind, Except.bind, Except.error.injEq] at h
        obtain ⟨e, herror, rfl, rfl⟩ := onInts_eq_error_iff.1 hc
        exact .inl (h ▸ .zero hb herror)
      | ok c =>
        simp only [foldInts, hb, hc, bind, Except.bind] at h
        obtain ⟨hzero, rfl⟩ := onInts_eq_ok_iff.1 hc
        split at h
        · next hrange => exact .inr ⟨_, ⟨b, hb, hzero, rfl, hrange⟩, h⟩
        · next hrange =>
          cases h
          exact .inl (.overflow hb hzero (Bool.eq_false_iff.2 hrange))
  · rintro (hfails | ⟨c, ⟨b, hb, hzero, hexact, hrange⟩, h⟩)
    · cases hfails with
      | conversion hb => simp only [foldInts, hb, bind, Except.bind]
      | @zero e hb herror =>
        have hc : op.onInts a 0 = .error (.error e) :=
          onInts_eq_error_iff.2 ⟨e, herror, rfl, rfl⟩
        simp only [foldInts, hb, hc, bind, Except.bind]
      | @overflow b hb hzero hrange =>
        have hc : op.onInts a b = .ok (op.exact a b) := onInts_eq_ok_iff.2 ⟨hzero, rfl⟩
        simp only [foldInts, hb, hc, hrange, bind, Except.bind, if_neg Bool.false_ne_true]
    · have hc : op.onInts a b = .ok c := onInts_eq_ok_iff.2 ⟨hzero, hexact⟩
      simp only [foldInts, hb, hc, hrange, if_true, bind, Except.bind, h]

/-! ## Folds -/

/-- The operands convert to integers, none of them a zero to divide by; folded into `a` from
the left they give `n`, and every result on the way lies in the range. -/
def FoldsFrom (op : Arithmetic) (a : Int) (vs : List Value) (n : Int) : Prop :=
  ∃ bs, List.Forall₂ (fun v b => v.toInt = .ok b) vs bs ∧ (op.zeroError? ≠ none → 0 ∉ bs) ∧
    (∀ i < bs.length, inRange ((bs.take (i + 1)).foldl op.exact a) = true) ∧
    bs.foldl op.exact a = n

/-- The first operand, which may lie outside the range, has the others folded into it. -/
def FoldsTo (op : Arithmetic) : List Value → Int → Prop
  | [], _ => False
  | v :: vs, n => ∃ a, v.toInt = .ok a ∧ op.FoldsFrom a vs n

/-- The first step that cannot be made, after those before it have been made. -/
def FailsFrom (op : Arithmetic) (a : Int) (vs : List Value) (s : Stop) : Prop :=
  ∃ done v rest c, vs = done ++ v :: rest ∧ op.FoldsFrom a done c ∧ op.StepFails c v s

/-- Either the first operand does not convert, or a step after it cannot be made. -/
def Fails (op : Arithmetic) (vs : List Value) (s : Stop) : Prop :=
  (∃ v rest, vs = v :: rest ∧ v.toInt = .error s) ∨
    ∃ done v rest c, vs = done ++ v :: rest ∧ op.FoldsTo done c ∧ op.StepFails c v s

theorem foldsFrom_nil {n : Int} : op.FoldsFrom a [] n ↔ a = n := by
  simp [FoldsFrom]

theorem foldsFrom_cons {n : Int} :
    op.FoldsFrom a (v :: vs) n ↔ ∃ c, op.Steps a v c ∧ op.FoldsFrom c vs n := by
  constructor
  · rintro ⟨_, hconverts, hzero, hrange, rfl⟩
    obtain ⟨b, bs, hb, hbs, rfl⟩ := List.forall₂_cons_left_iff.1 hconverts
    rw [List.length_cons, Nat.forall_lt_succ_left] at hrange
    simp only [List.mem_cons, not_or] at hzero
    exact ⟨_, ⟨b, hb, fun h => Ne.symm (hzero h).1, rfl, hrange.1⟩, bs, hbs,
      fun h => (hzero h).2, hrange.2, rfl⟩
  · rintro ⟨_, ⟨b, hb, hzero, rfl, hfirst⟩, bs, hbs, hzeros, hrange, rfl⟩
    refine ⟨b :: bs, .cons hb hbs, fun h => ?_, ?_, rfl⟩
    · exact List.not_mem_cons_of_ne_of_not_mem (Ne.symm (hzero h)) (hzeros h)
    · rw [List.length_cons, Nat.forall_lt_succ_left]
      exact ⟨hfirst, hrange⟩

theorem failsFrom_cons :
    op.FailsFrom a (v :: vs) s ↔
      op.StepFails a v s ∨ ∃ c, op.Steps a v c ∧ op.FailsFrom c vs s := by
  constructor
  · rintro ⟨done, u, rest, c, hsplit, hdone, hfails⟩
    cases done with
    | nil =>
      obtain ⟨rfl, rfl⟩ := List.cons.inj hsplit
      exact .inl (foldsFrom_nil.1 hdone ▸ hfails)
    | cons w done =>
      obtain ⟨rfl, rfl⟩ := List.cons.inj hsplit
      obtain ⟨d, hstep, hrest⟩ := foldsFrom_cons.1 hdone
      exact .inr ⟨d, hstep, done, u, rest, c, rfl, hrest, hfails⟩
  · rintro (hfails | ⟨d, hstep, done, u, rest, c, rfl, hdone, hfails⟩)
    · exact ⟨[], v, vs, a, rfl, foldsFrom_nil.2 rfl, hfails⟩
    · exact ⟨v :: done, u, rest, c, rfl, foldsFrom_cons.2 ⟨d, hstep, hdone⟩, hfails⟩

theorem foldInts_eq_ok_iff {n : Int} : op.foldInts a vs = .ok n ↔ op.FoldsFrom a vs n := by
  induction vs generalizing a with
  | nil => rw [foldsFrom_nil, foldInts, Except.ok.injEq]
  | cons v vs ih => simp only [foldInts_cons_eq_ok_iff, foldsFrom_cons, ih]

theorem foldInts_eq_error_iff : op.foldInts a vs = .error s ↔ op.FailsFrom a vs s := by
  induction vs generalizing a with
  | nil => simp [foldInts, FailsFrom]
  | cons v vs ih => simp only [foldInts_cons_eq_error_iff, failsFrom_cons, ih]

/-! ## Operands -/

/-- Where no float is among the operands and no string is added, they are folded as integers. -/
theorem onOperands_cons (hfloat : ∀ u ∈ v :: vs, u.isFloat = false)
    (hstring : op = add → ∀ u ∈ v :: vs, u.isString = false) :
    op.onOperands (v :: vs) = (v.toInt >>= fun a => op.foldInts a vs).map .int := by
  have hnostring : (op = add && (v :: vs).any Value.isString) = false := by
    by_cases hadd : op = add
    · rw [List.any_eq_false.2 fun u hu => by simp [hstring hadd u hu], Bool.and_false]
    · simp [hadd]
  have hnofloat : (v :: vs).any Value.isFloat = false :=
    List.any_eq_false.2 fun u hu => by simp [hfloat u hu]
  rw [onOperands, hnostring, hnofloat]
  simp only [if_neg Bool.false_ne_true]
  cases v.toInt <;> rfl

theorem foldInts_bind_eq_ok_iff {n : Int} :
    (v.toInt >>= fun a => op.foldInts a vs) = .ok n ↔ op.FoldsTo (v :: vs) n := by
  cases h : v.toInt with
  | error s => simp [FoldsTo, h, bind, Except.bind]
  | ok a => simp [FoldsTo, h, bind, Except.bind, foldInts_eq_ok_iff]

theorem fails_cons :
    op.Fails (v :: vs) s ↔ v.toInt = .error s ∨ ∃ a, v.toInt = .ok a ∧ op.FailsFrom a vs s := by
  constructor
  · rintro (⟨u, rest, hsplit, herror⟩ | ⟨done, u, rest, c, hsplit, hdone, hfails⟩)
    · exact .inl ((List.cons.inj hsplit).1 ▸ herror)
    · cases done with
      | nil => exact hdone.elim
      | cons w done =>
        obtain ⟨rfl, rfl⟩ := List.cons.inj hsplit
        obtain ⟨a, ha, hfold⟩ := hdone
        exact .inr ⟨a, ha, done, u, rest, c, rfl, hfold, hfails⟩
  · rintro (herror | ⟨a, ha, done, u, rest, c, rfl, hfold, hfails⟩)
    · exact .inl ⟨v, vs, rfl, herror⟩
    · exact .inr ⟨v :: done, u, rest, c, rfl, ⟨a, ha, hfold⟩, hfails⟩

theorem foldInts_bind_eq_error_iff :
    (v.toInt >>= fun a => op.foldInts a vs) = .error s ↔ op.Fails (v :: vs) s := by
  cases h : v.toInt with
  | error s' => simp [fails_cons, h, bind, Except.bind]
  | ok a => simp [fails_cons, h, bind, Except.bind, foldInts_eq_error_iff]

/-! ## Overflow -/

theorem inRange_iff {k : Int} : inRange k = true ↔ leastInteger ≤ k ∧ k ≤ greatestInteger := by
  simp [inRange]

/-- A quotient of integers in range leaves the range only when the least of them is negated. -/
theorem inRange_exact_div (ha : inRange a = true) (hb : b ≠ 0) :
    inRange (exact div a b) = false ↔ a = leastInteger ∧ b = -1 := by
  rw [exact, truncated_div, ← Bool.not_eq_true, inRange_iff]
  rw [inRange_iff] at ha
  unfold leastInteger greatestInteger at *
  have hquotient := Int.natAbs_tdiv a b
  change _ = a.natAbs / b.natAbs at hquotient
  by_cases hone : b.natAbs = 1
  · obtain rfl | rfl : b = 1 ∨ b = -1 := by omega
    · rw [Int.tdiv_one]
      omega
    · rw [Int.tdiv_neg, Int.tdiv_one]
      omega
  · -- Any other divisor at least halves the dividend.
    have hhalf : a.natAbs / b.natAbs ≤ a.natAbs / 2 := Nat.div_le_div_left (by omega) (by decide)
    omega

/-- A remainder is nearer to zero than its divisor, so that it stays in range. -/
theorem inRange_exact_rem (a : Int) (hb : inRange b = true) (hzero : b ≠ 0) :
    inRange (exact rem a b) = true := by
  have hlt := (sign_exact_rem a hzero).2
  rw [inRange_iff, leastInteger, greatestInteger] at hb ⊢
  rw [abs_lt] at hlt
  rcases abs_cases b with ⟨habs, -⟩ | ⟨habs, -⟩ <;> omega

/-- Every operand converts to an integer in range. -/
def InRange (vs : List Value) : Prop := ∀ v ∈ vs, ∃ b, v.toInt = .ok b ∧ inRange b = true

/-- What a fold has come to lies in the range, if the first operand does. -/
theorem InRange.inRange_of_foldsTo (h : InRange vs) (hfold : op.FoldsTo vs c) :
    inRange c = true := by
  cases vs with
  | nil => exact hfold.elim
  | cons v vs =>
    obtain ⟨a, ha, bs, -, -, hrange, rfl⟩ := hfold
    cases bs using List.reverseRecOn with
    | nil =>
      obtain ⟨b, hb, hfirst⟩ := h v List.mem_cons_self
      rw [ha, Except.ok.injEq] at hb
      exact hb ▸ hfirst
    | append_singleton bs b _ =>
      have hlast := hrange bs.length (by simp)
      rwa [List.take_of_length_le (by simp)] at hlast

/-- Where all operands convert to integers in range, an overflow is one of a step. -/
theorem InRange.fails_overflow_iff (h : InRange vs) :
    op.Fails vs (.error .overflow) ↔ ∃ done v rest c b, vs = done ++ v :: rest ∧ op.FoldsTo done c ∧
      v.toInt = .ok b ∧ inRange c = true ∧ inRange b = true ∧ (op.zeroError? ≠ none → b ≠ 0) ∧
      inRange (op.exact c b) = false := by
  constructor
  · rintro (⟨v, rest, rfl, herror⟩ | ⟨done, v, rest, c, rfl, hdone, hfails⟩)
    · obtain ⟨b, hb, -⟩ := h v List.mem_cons_self
      rw [hb] at herror
      cases herror
    · obtain ⟨b, hb, hrange⟩ := h v (by simp)
      have hc : inRange c = true :=
        InRange.inRange_of_foldsTo (fun u hu => h u (List.mem_append_left _ hu)) hdone
      cases hfails with
      | conversion herror =>
        rw [hb] at herror
        cases herror
      | zero _ herror => cases op <;> cases herror
      | @overflow b' hb' hzero hexact =>
        rw [hb, Except.ok.injEq] at hb'
        subst hb'
        exact ⟨done, v, rest, c, b, rfl, hdone, hb, hc, hrange, hzero, hexact⟩
  · rintro ⟨done, v, rest, c, b, rfl, hdone, hb, -, -, hzero, hexact⟩
    exact .inr ⟨done, v, rest, c, rfl, hdone, .overflow hb hzero hexact⟩

theorem InRange.fails_div_overflow_iff (h : InRange vs) :
    div.Fails vs (.error .overflow) ↔ ∃ done v rest, vs = done ++ v :: rest ∧
      div.FoldsTo done leastInteger ∧ v.toInt = .ok (-1) := by
  rw [h.fails_overflow_iff]
  constructor
  · rintro ⟨done, v, rest, c, b, rfl, hdone, hb, hc, -, hzero, hexact⟩
    obtain ⟨rfl, rfl⟩ := (inRange_exact_div hc (hzero (by simp [zeroError?]))).1 hexact
    exact ⟨done, v, rest, rfl, hdone, hb⟩
  · rintro ⟨done, v, rest, rfl, hdone, hb⟩
    have hexact : inRange (exact div leastInteger (-1)) = false :=
      (inRange_exact_div (by decide) (by decide)).2 ⟨rfl, rfl⟩
    exact ⟨done, v, rest, _, _, rfl, hdone, hb, by decide, by decide, by simp, hexact⟩

theorem InRange.not_fails_rem_overflow (h : InRange vs) :
    ¬ rem.Fails vs (.error .overflow) := by
  rw [h.fails_overflow_iff]
  rintro ⟨done, v, rest, c, b, -, -, -, -, hb, hzero, hexact⟩
  rw [inRange_exact_rem c hb (hzero (by simp [zeroError?]))] at hexact
  cases hexact

end Arithmetic

/-! ## Operators -/

/-- Whatever the evaluation of the operands leaves, the operator keeps. -/
theorem Evaluator.arithmetic_of_evaluateAll {ev : Evaluator} {op : Arithmetic} {args : List Value}
    {frame : FrameId} {w u : World} {v : Value} {vs : List Value}
    (hargs : ev.evaluateAll args frame w = .ok (v :: vs) u)
    (hfloat : ∀ u ∈ v :: vs, u.isFloat = false)
    (hstring : op = .add → ∀ u ∈ v :: vs, u.isString = false) :
    ev.arithmetic op args frame w =
      match v.toInt >>= fun a => op.foldInts a vs with
      | .ok n => .ok (.int n) u
      | .error s => .error s u := by
  have hsome : require op.name 1 args = pure () := by
    cases args with
    | nil => cases hargs
    | cons => rw [require, if_neg (by simp)]
  have hrequire : require op.name 1 args w = .ok () w := by
    rw [hsome]
    rfl
  rw [Evaluator.arithmetic, bind_of_ok hrequire, bind_of_ok hargs,
    Arithmetic.onOperands_cons hfloat hstring]
  cases v.toInt >>= fun a => op.foldInts a vs <;> rfl

/-- An operator whose operands have values, none of them a float and none a string that is
added, gives their exact fold if every step can be made, and else stops as the first step
that cannot. An operand that does not convert is an error of the language, unless it is a text
with too many digits, which is a fault. A remainder is smaller than the divisor and on the side
of the dividend. From integers in range, a division overflows only where the least integer is
divided by `-1`, and a remainder never. -/
theorem performBuiltin_arithmetic_exact {ev : Evaluator} {op : Arithmetic} {args : List Value}
    {frame : FrameId} {w u : World} {vs : List Value}
    (hargs : ev.evaluateAll args frame w = .ok vs u) (hne : vs ≠ [])
    (hfloat : ∀ v ∈ vs, v.isFloat = false)
    (hstring : op = .add → ∀ v ∈ vs, v.isString = false) :
    let run := ev.performBuiltin (.arithmetic op) args frame w
    (∀ v u', run = .ok v u' ↔ ∃ n, op.FoldsTo vs n ∧ v = .int n ∧ u' = u) ∧
      (∀ s u', run = .error s u' ↔ op.Fails vs s ∧ u' = u) ∧
      (∀ v ∈ vs, ∀ s, v.toInt = .error s →
        (∃ e, s = .error e ∧ e.kind = .typing) ∨
          v.isOverlong = true ∧ ∃ count, s = .fault (.tooManyDigits count)) ∧
      (∀ v ∈ vs, v.isOverlong = true →
        ∃ count, v.toInt = .error (.fault (.tooManyDigits count))) ∧
      (∀ a b : Int, b ≠ 0 →
        let r := Arithmetic.exact .rem a b
        (r = 0 ∨ r.sign = a.sign) ∧ |r| < |b|) ∧
      (Arithmetic.InRange vs →
        (op = .div → (op.Fails vs (.error .overflow) ↔ ∃ done v rest, vs = done ++ v :: rest ∧
          op.FoldsTo done leastInteger ∧ v.toInt = .ok (-1))) ∧
        (op = .rem → ¬ op.Fails vs (.error .overflow))) := by
  intro run
  obtain ⟨v, vs, rfl⟩ := List.exists_cons_of_ne_nil hne
  have hrun : run = match v.toInt >>= fun a => op.foldInts a vs with
      | .ok n => .ok (.int n) u
      | .error s => .error s u :=
    Evaluator.arithmetic_of_evaluateAll hargs hfloat hstring
  refine ⟨?value, ?stop, fun v _ s h => v.toInt_eq_error h, fun v _ h => v.toInt_of_isOverlong h,
    fun a b hb => Arithmetic.sign_exact_rem a hb, ?overflow⟩
  case value =>
    intro r u'
    simp only [← Arithmetic.foldInts_bind_eq_ok_iff, hrun]
    cases v.toInt >>= fun a => op.foldInts a vs <;> simp [eq_comm]
  case stop =>
    intro s u'
    simp only [← Arithmetic.foldInts_bind_eq_error_iff, hrun]
    cases v.toInt >>= fun a => op.foldInts a vs <;> simp [eq_comm]
  case overflow =>
    intro h
    constructor
    · rintro rfl
      exact h.fails_div_overflow_iff
    · rintro rfl
      exact h.not_fails_rem_overflow

/-- `-2^63`, divided by a true operand and then by `-1`, overflows. -/
theorem performBuiltin_arithmetic_exact_least :
    let ev := Evaluator.ofFuel .bare 1
    let vs : List Value := [.int leastInteger, .bool true, .int (-1)]
    vs ≠ [] ∧ (∀ v ∈ vs, v.isFloat = false) ∧
      (Arithmetic.div = .add → ∀ v ∈ vs, v.isString = false) ∧ Arithmetic.InRange vs ∧
      ev.evaluateAll vs Store.root World.bare = .ok vs World.bare ∧
      ev.performBuiltin (.arithmetic .div) vs Store.root World.bare =
        .error (.error .overflow) World.bare := by
  intro ev vs
  have hne : vs ≠ [] := by decide
  have hfloat : ∀ v ∈ vs, v.isFloat = false := by simp [vs, Value.isFloat]
  have hstring : Arithmetic.div = .add → ∀ v ∈ vs, v.isString = false := fun h => by cases h
  have hargs : ev.evaluateAll vs Store.root World.bare = .ok vs World.bare := rfl
  have hrange : Arithmetic.InRange vs := by
    simp [Arithmetic.InRange, vs, Value.toInt, Arithmetic.inRange_iff, leastInteger,
      greatestInteger]
  obtain ⟨-, hstop, -, -, -, hoverflow⟩ :=
    performBuiltin_arithmetic_exact hargs hne hfloat hstring
  have hdone : Arithmetic.div.FoldsTo [.int leastInteger, .bool true] leastInteger :=
    ⟨leastInteger, rfl, Arithmetic.foldInts_eq_ok_iff.1 rfl⟩
  have hfails : Arithmetic.div.Fails vs (.error .overflow) :=
    ((hoverflow hrange).1 rfl).2 ⟨[.int leastInteger, .bool true], .int (-1), [], rfl, hdone, rfl⟩
  exact ⟨hne, hfloat, hstring, hrange, hargs, (hstop _ _).2 ⟨hfails, rfl⟩⟩

theorem Value.toInt_of_areDigits {digits : List Char} (h : AreDigits digits)
    (hlimit : digitLimit < digits.length) :
    (string (String.ofList digits)).toInt = .error (.fault (.tooManyDigits digits.length)) := by
  have hexceeds : exceedsDigitLimit digits = true := by
    simp only [exceedsDigitLimit, h.splitSign_eq, List.all_eq_true.2 h.all, decide_eq_true hlimit,
      Bool.and_true]
  have hread : Reading.readInteger digits = .error (.fault (.tooManyDigits digits.length)) :=
    Reading.readInteger_eq_error_iff.2 ⟨hexceeds, by rw [h.splitSign_eq]⟩
  simp only [toInt, String.toList_ofList, hread]

/-- Seven, with as many zeros in front of it as there may be digits in all. -/
def overlongSeven : List Char := List.replicate digitLimit '0' ++ ['7']

theorem areDigits_overlongSeven : AreDigits overlongSeven where
  ne_nil := by simp [overlongSeven]
  all := by
    refine List.forall_mem_append.2 ⟨fun c hc => ?_, List.forall_mem_singleton.2 rfl⟩
    rw [List.eq_of_mem_replicate hc]
    rfl

theorem length_overlongSeven : overlongSeven.length = 4301 := by
  rw [overlongSeven, List.length_append, List.length_replicate, List.length_singleton, digitLimit]

/-- The text is a decimal integer in range, but an operator neither takes it for one nor
refuses it with an error of the language. -/
theorem performBuiltin_arithmetic_overlong :
    let ev := Evaluator.ofFuel .bare 1
    let args : List Value := [.string (String.ofList overlongSeven), .int 1]
    let run := ev.performBuiltin (.arithmetic .sub) args Store.root World.bare
    ev.evaluateAll args Store.root World.bare = .ok args World.bare ∧
      (∀ v ∈ args, v.isFloat = false) ∧ numeral 10 overlongSeven = 7 ∧
      (∀ v u, run ≠ .ok v u) ∧ (∀ e u, run ≠ .error (.error e) u) ∧
      run = .error (.fault (.tooManyDigits 4301)) World.bare := by
  intro ev args run
  have hargs : ev.evaluateAll args Store.root World.bare = .ok args World.bare := rfl
  have hfloat : ∀ v ∈ args, v.isFloat = false := by simp [args, Value.isFloat]
  have hvalue : numeral 10 overlongSeven = 7 := by
    rw [overlongSeven, numeral_append, numeral_zeros]
    rfl
  have hrun : run = .error (.fault (.tooManyDigits 4301)) World.bare := by
    have hlimit : digitLimit < overlongSeven.length := by
      rw [length_overlongSeven, digitLimit]
      decide
    have hconvert := Value.toInt_of_areDigits areDigits_overlongSeven hlimit
    rw [length_overlongSeven] at hconvert
    refine (Evaluator.arithmetic_of_evaluateAll hargs hfloat fun h => by cases h).trans ?_
    rw [hconvert]
    rfl
  exact ⟨hargs, hfloat, hvalue, by simp [hrun], by simp [hrun], hrun⟩

end SmallLisp
