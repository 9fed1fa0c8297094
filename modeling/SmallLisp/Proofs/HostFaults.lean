import SmallLisp.Loading
import SmallLisp.Proofs.Bounds.Results
import SmallLisp.Proofs.Number.Rounding

/-! # Faults of operations on values

An operation on values gives a value or refuses its operands with an error of the
language. The exceptions are few: texts with too many digits, integers past all floats,
remainders of infinite numbers, halves of pairs, lists that cannot be stored, and paths
that are too long or have no name. -/

namespace SmallLisp

open Number

theorem exists_of_bind_eq_error {ε α β : Type} {x : Except ε α} {f : α → Except ε β} {e : ε}
    (h : x >>= f = .error e) : x = .error e ∨ ∃ a, x = .ok a ∧ f a = .error e := by
  cases x with
  | error e' =>
    cases h
    exact .inl rfl
  | ok a => exact .inr ⟨a, rfl, h⟩

theorem eq_error_of_map {ε α β : Type} {x : Except ε α} {f : α → β} {e : ε}
    (h : x.map f = .error e) : x = .error e := by
  cases x with
  | error e' =>
    cases h
    rfl
  | ok a => cases h

/-! ## Conversions -/

namespace Value

/-- A text that would be an integer, but has too many digits. -/
def isOverlong : Value → Bool
  | string text => exceedsDigitLimit text.toList
  | _ => false

/-- An integer past all floats. -/
def isHuge : Value → Bool
  | int n => (Binary64.ofInt n).isInfinite
  | _ => false

/-- A value that is no integer for an operator has the wrong type, or too many digits. -/
theorem toInt_eq_error {v : Value} {s : Stop} (h : v.toInt = .error s) :
    (∃ e, s = .error e ∧ e.kind = .typing) ∨
      v.isOverlong = true ∧ ∃ count, s = .fault (.tooManyDigits count) := by
  cases v with
  | float x =>
    cases x with
    | nan mark =>
      cases h
      exact .inl ⟨_, rfl, rfl⟩
    | number x =>
      simp only [toInt] at h
      repeat' split at h
      all_goals
        cases h
        try exact .inl ⟨_, rfl, rfl⟩
  | string text =>
    simp only [toInt] at h
    split at h
    · next stop hread =>
      cases h
      obtain ⟨hlimit, rfl⟩ := Reading.readInteger_eq_error_iff.1 hread
      exact .inr ⟨hlimit, _, rfl⟩
    · cases h
    · cases h
      exact .inl ⟨_, rfl, rfl⟩
  | _ => cases h

theorem toInt_of_isOverlong {v : Value} (h : v.isOverlong = true) :
    ∃ count, v.toInt = .error (.fault (.tooManyDigits count)) := by
  cases v with
  | string text =>
    have hread := Reading.readInteger_eq_error_iff.2 ⟨h, rfl⟩
    refine ⟨(splitSign text.toList).2.length, ?_⟩
    rw [toInt, hread]
  | _ => cases h

theorem isOverlong_of_toInt {v : Value} {f : HostFault} (h : v.toInt = .error (.fault f)) :
    v.isOverlong = true := by
  rcases toInt_eq_error h with ⟨e, he, -⟩ | ⟨hlong, -⟩
  · cases he
  · exact hlong

theorem isHuge_of_toFloat {v : Value} {f : HostFault} (h : v.toFloat = .error (.fault f)) :
    v.isHuge = true := by
  cases v with
  | int n =>
    simp only [toFloat, floatOfInt] at h
    split at h
    · next hinfinite => exact hinfinite
    · cases h
  | string text =>
    simp only [toFloat] at h
    split at h <;> cases h
  | _ => cases h

end Value

theorem Conversion.hazard_of_apply {target : Conversion} {v : Value} {f : HostFault}
    (h : target.apply v = .error (.fault f)) :
    target = .int ∧ v.isOverlong = true ∨ target = .float ∧ v.isHuge = true := by
  cases target with
  | int => exact .inl ⟨rfl, Value.isOverlong_of_toInt (eq_error_of_map h)⟩
  | float => exact .inr ⟨rfl, Value.isHuge_of_toFloat (eq_error_of_map h)⟩
  | _ => cases h

theorem isSurrogate_of_codeText {code : Int} {f : HostFault}
    (h : codeText code = .error (.fault f)) : isSurrogate code = true := by
  unfold codeText at h
  repeat' split at h
  all_goals first | cases h; done | assumption

theorem storageLimit_le_of_sequenceItems {start stop step : Int} {f : HostFault}
    (h : sequenceItems start stop step = .error f) :
    storageLimit ≤ sequenceLength start stop step := by
  unfold sequenceItems at h
  dsimp only at h
  split at h
  · next hgreatest =>
    have hlimit : (storageLimit : Int) ≤ greatestInteger := by decide
    omega
  · split at h
    · assumption
    · cases h

/-! ## Paths -/

theorem FileSystem.locate_of_firstFile? {fs : FileSystem} {paths : List Path} {fault : FileFault}
    (h : fs.firstFile? paths = .error fault) :
    ∃ p ∈ paths, fs.locate p = .error .nameTooLong := by
  induction paths with
  | nil => cases h
  | cons p paths ih =>
    rw [List.exists_mem_cons_iff]
    unfold firstFile? at h
    split at h
    · exact .inr (ih h)
    · have hplace : fs.place? p = .error fault := eq_error_of_map h
      unfold place? at hplace
      split at hplace
      · cases hplace
      · next hlocate => exact .inl hlocate
      · cases hplace

/-- The search for the file of an import fails when the path has no name to extend, or when a
path at which the file may be is too long. -/
theorem candidate_of_importPlace {m : Machine} {current : Option Path} {text : String}
    {f : HostFault} (h : importPlace m current text = .error (.fault f)) :
    importCandidates m current text = .error f ∨
      ∃ paths, importCandidates m current text = .ok paths ∧
        ∃ p ∈ paths, m.files.locate p = .error .nameTooLong := by
  unfold importPlace at h
  split at h
  · next hnone =>
    cases h
    exact .inl hnone
  · next paths hpaths =>
    split at h
    · cases h
    · cases h
    · next hfault => exact .inr ⟨paths, hpaths, FileSystem.locate_of_firstFile? hfault⟩

/-! ## Arithmetic -/

namespace Arithmetic

variable {op : Arithmetic} {a : Int} {x y z : Floating} {vs : List Value} {f : HostFault}

/-- The operands at which an operator fails outside the language. -/
inductive Hazard (op : Arithmetic) : List Value → Prop
  /-- An operand that is folded as an integer has too many digits. -/
  | overlong {vs : List Value} {v : Value} (hadd : op ≠ add)
      (hfloat : ∀ u ∈ vs, u.isFloat = false) (hv : v ∈ vs) (hlong : v.isOverlong = true) :
      Hazard op vs
  /-- An operand that is folded as a float is an integer past all floats. -/
  | huge {vs : List Value} {v : Value} (hadd : op = add → ∀ u ∈ vs, u.isString = false)
      (hfloat : ∃ u ∈ vs, u.isFloat = true) (hv : v ∈ vs) (hhuge : v.isHuge = true) :
      Hazard op vs
  /-- A remainder is taken of an infinite float by a number other than zero. -/
  | infinite {v u : Value} {rest : List Value} {x y : Binary64} (hrem : op = rem)
      (hfloat : ∃ t ∈ v :: u :: rest, t.isFloat = true) (hv : v.toFloat = .ok (.number x))
      (hx : x.isInfinite = true) (hu : u.toFloat = .ok (.number y)) (hy : y.isZero = false) :
      Hazard op (v :: u :: rest)

theorem onInts_ne_fault {b : Int} : op.onInts a b ≠ .error (.fault f) := by
  cases op <;> simp only [onInts] <;> (try split) <;> simp

theorem isOverlong_of_foldInts (h : op.foldInts a vs = .error (.fault f)) :
    ∃ v ∈ vs, v.isOverlong = true := by
  induction vs generalizing a with
  | nil => cases h
  | cons v vs ih =>
    rw [List.exists_mem_cons_iff]
    rcases exists_of_bind_eq_error h with hv | ⟨b, -, h⟩
    · exact .inl (Value.isOverlong_of_toInt hv)
    rcases exists_of_bind_eq_error h with hc | ⟨c, -, h⟩
    · exact absurd hc onInts_ne_fault
    · split at h
      · exact .inr (ih h)
      · cases h

theorem infinite_of_onFloats (h : op.onFloats x y = .error (.fault f)) :
    op = rem ∧ ∃ a b, x = .number a ∧ y = .number b ∧ a.isInfinite = true ∧ b.isZero = false := by
  cases op with
  | rem =>
    simp only [onFloats] at h
    split at h
    · cases h
    next hzero =>
    unfold remainder at h
    split at h
    · next x y =>
      split at h
      · next hinfinite => exact ⟨rfl, x, y, rfl, rfl, hinfinite, Bool.not_eq_true _ ▸ hzero⟩
      · cases h
    · cases h
  | div =>
    simp only [onFloats] at h
    split at h <;> cases h
  | _ => cases h

/-- No remainder is infinite: the dividend is not, or there is none. -/
theorem not_isInfinite_of_onFloats_rem {a : Binary64} (h : rem.onFloats x y = .ok (.number a)) :
    a.isInfinite = false := by
  simp only [onFloats] at h
  split at h
  · cases h
  unfold remainder at h
  split at h
  · split at h
    · cases h
    · next hfinite =>
      cases h
      exact Binary64.isInfinite_rem (Bool.eq_false_iff.2 hfinite) _
  · cases h

theorem hazard_of_foldFloats (h : op.foldFloats x vs = .error (.fault f)) :
    (∃ v ∈ vs, v.isHuge = true) ∨ op = rem ∧ ∃ a u b rest, x = .number a ∧ a.isInfinite = true ∧
      vs = u :: rest ∧ u.toFloat = .ok (.number b) ∧ b.isZero = false := by
  induction vs generalizing x with
  | nil => cases h
  | cons v vs ih =>
    rw [List.exists_mem_cons_iff]
    rcases exists_of_bind_eq_error h with hv | ⟨y, hy, h⟩
    · exact .inl (.inl (Value.isHuge_of_toFloat hv))
    rcases exists_of_bind_eq_error h with hz | ⟨z, hz, h⟩
    · obtain ⟨hrem, a, b, rfl, rfl, ha, hb⟩ := infinite_of_onFloats hz
      exact .inr ⟨hrem, a, v, b, vs, rfl, ha, rfl, hy, hb⟩
    · rcases ih h with hhuge | ⟨rfl, a, -, -, -, rfl, ha, -⟩
      · exact .inl (.inr hhuge)
      · rw [not_isInfinite_of_onFloats_rem hz] at ha
        cases ha

/-- An operator fails outside the language only at its hazards. -/
theorem hazard_of_onOperands (h : op.onOperands vs = .error (.fault f)) : op.Hazard vs := by
  unfold onOperands at h
  split at h
  · cases h
  next v rest =>
  split at h
  · cases h
  next hstring =>
  have hadd : op = add → ∀ u ∈ v :: rest, u.isString = false := by
    rintro rfl
    simpa using hstring
  split at h
  · next hfloat =>
    rw [List.any_eq_true] at hfloat
    split at h
    · next hop =>
      subst hop
      rcases hazard_of_foldFloats (eq_error_of_map h) with ⟨u, hu, hhuge⟩ | ⟨hrem, -⟩
      · exact .huge hadd hfloat hu hhuge
      · cases hrem
    · rcases exists_of_bind_eq_error h with hv | ⟨x, hx, h⟩
      · exact .huge hadd hfloat List.mem_cons_self (Value.isHuge_of_toFloat hv)
      · rcases hazard_of_foldFloats (eq_error_of_map h) with
          ⟨u, hu, hhuge⟩ | ⟨rfl, a, u, b, rest, rfl, ha, rfl, hb, hzero⟩
        · exact .huge hadd hfloat (List.mem_cons_of_mem v hu) hhuge
        · exact .infinite rfl hfloat hx ha hb hzero
  · next hfloat =>
    have hnofloat : ∀ u ∈ v :: rest, u.isFloat = false := by simpa using hfloat
    have hlong : ∃ u ∈ v :: rest, u.isOverlong = true := by
      rw [List.exists_mem_cons_iff]
      rcases exists_of_bind_eq_error h with hv | ⟨a, -, h⟩
      · exact .inl (Value.isOverlong_of_toInt hv)
      · exact .inr (isOverlong_of_foldInts (eq_error_of_map h))
    obtain ⟨u, hu, hlong⟩ := hlong
    refine .overlong (fun hop => ?_) hnofloat hu hlong
    -- A text among the operands of an addition would have made it join texts.
    have hstring := hadd hop u hu
    cases u with
    | string text => cases hstring
    | _ => cases hlong

end Arithmetic

end SmallLisp
