import SmallLisp.Builtin.Arithmetic
import SmallLisp.Builtin.Lists
import SmallLisp.Builtin.System
import SmallLisp.Builtin.Texts
import SmallLisp.Proofs.Bounds

/-! # Results within bounds

What the operations of built-in procedures make of values within bounds is within the
bounds again: an integer among the results is in range, is an operand itself, or lies
between two of them. -/

namespace SmallLisp

open Number

/-- Two steps in a row succeed when both do. -/
theorem exists_of_bind_eq_ok {ε α β : Type} {x : Except ε α} {f : α → Except ε β} {b : β}
    (h : x >>= f = .ok b) : ∃ a, x = .ok a ∧ f a = .ok b := by
  cases x with
  | error e => cases h
  | ok a => exact ⟨a, rfl, h⟩

namespace Bounds

variable {B : Bounds} {n : Nat}

/-! ## Texts -/

theorem admits_stringItems (pieces : List (List Char)) : B.Admits n (stringItems pieces) := by
  rw [stringItems, admits_list]
  intro v hv
  obtain ⟨piece, -, rfl⟩ := List.mem_map.1 hv
  exact admits_string _

theorem admits_splitText {text separator : String} {v : Value}
    (h : splitText text separator = .ok v) : B.Admits n v := by
  unfold splitText at h
  split at h
  · cases h
  · cases h
    exact admits_stringItems _

theorem int_firstCode {text : String} {code : Int} (h : firstCode text = .ok code) :
    B.int code := by
  unfold firstCode at h
  split at h
  · cases h
  · next c cs _ =>
    cases h
    have hlt : c.toNat < 1114112 := by
      rcases c.valid with hlow | hhigh
      · exact Nat.lt_trans hlow (by decide)
      · exact hhigh.2
    exact B.int_of_inRange (inRange_of_lt (Nat.lt_trans hlt (by decide)))

/-! ## Arithmetic -/

theorem int_foldInts {op : Arithmetic} {a k : Int} {vs : List Value} (ha : B.int a)
    (h : op.foldInts a vs = .ok k) : B.int k := by
  induction vs generalizing a with
  | nil =>
    cases h
    exact ha
  | cons v vs ih =>
    unfold Arithmetic.foldInts at h
    obtain ⟨b, -, h⟩ := exists_of_bind_eq_ok h
    obtain ⟨c, -, h⟩ := exists_of_bind_eq_ok h
    split at h
    · next hrange => exact ih (B.int_of_inRange hrange) h
    · cases h

theorem admits_map_float {outcome : Except Stop Floating} {v : Value}
    (h : outcome.map .float = .ok v) : B.Admits n v := by
  cases outcome with
  | error s => cases h
  | ok x =>
    cases h
    exact admits_float x

/-- Only the first operand of a fold goes unchecked, and it is within the bounds. -/
theorem admits_onOperands {op : Arithmetic} {vs : List Value} {v : Value}
    (hvs : ∀ u ∈ vs, B.Admits n u) (h : op.onOperands vs = .ok v) : B.Admits n v := by
  unfold Arithmetic.onOperands at h
  split at h
  · cases h
    exact admits_nil
  · next first rest =>
    split at h
    · cases h
      exact admits_string _
    · split at h
      · split at h
        · exact admits_map_float h
        · obtain ⟨x, -, h⟩ := exists_of_bind_eq_ok h
          exact admits_map_float h
      · obtain ⟨a, ha, h⟩ := exists_of_bind_eq_ok h
        have hfirst := (hvs first List.mem_cons_self).1.toInt ha
        cases hk : op.foldInts a rest with
        | error s =>
          rw [hk] at h
          cases h
        | ok k =>
          rw [hk] at h
          cases h
          exact admits_int.2 (int_foldInts hfirst hk)

/-! ## Conversions -/

theorem admits_convert {target : Conversion} {v u : Value} (hv : B.Admits n v)
    (h : target.apply v = .ok u) : B.Admits n u := by
  cases target with
  | string =>
    cases h
    exact admits_string _
  | int =>
    simp only [Conversion.apply] at h
    cases hk : v.toInt with
    | error s => simp [hk, Except.map] at h
    | ok k =>
      simp only [hk, Except.map, Except.ok.injEq] at h
      exact h ▸ admits_int.2 (hv.1.toInt hk)
  | float => exact admits_map_float h
  | bool =>
    cases h
    exact admits_bool _
  | list =>
    cases h
    exact admits_list.2 hv.toItems

/-! ## Sequences -/

/-- Every integer of a sequence lies between the ends. -/
theorem between_of_mem_integersFrom {low high step : Int} (hstep : 0 < step) {k : Nat}
    {start : Int} (hlow : low ≤ start) (hhigh : ∀ i < k, start + step * i ≤ high) :
    ∀ v ∈ integersFrom start step k, ∃ j, v = .int j ∧ low ≤ j ∧ j ≤ high := by
  induction k generalizing start with
  | zero => exact fun _ hv => absurd hv List.not_mem_nil
  | succ k ih =>
    intro v hv
    rcases List.mem_cons.1 hv with rfl | hv
    · have hfirst := hhigh 0 (Nat.succ_pos k)
      exact ⟨start, rfl, hlow, by omega⟩
    · refine ih (by omega) (fun i hi => ?_) v hv
      have hnext := hhigh (i + 1) (by omega)
      calc start + step + step * i = start + step * ((i + 1 : Nat) : Int) := by
            rw [Int.natCast_add, Int.mul_add]
            omega
        _ ≤ high := hnext

theorem le_of_lt_sequenceLength {start stop step : Int} (hstep : 0 < step) {i : Nat}
    (hi : i < sequenceLength start stop step) : start + step * i ≤ stop := by
  unfold sequenceLength at hi
  split at hi
  · have hcount : (i : Int) + 1 ≤ (stop - start + step - 1) / step := by omega
    have hmul : ((i : Int) + 1) * step ≤ stop - start + step - 1 :=
      (Int.le_ediv_iff_mul_le hstep).1 hcount
    have hexpand : ((i : Int) + 1) * step = step * i + step := by
      rw [Int.add_mul, Int.mul_comm, Int.one_mul]
    omega
  · omega

theorem admits_sequenceItems {start stop step : Int} {items : List Value} (hstart : B.int start)
    (hstop : B.int stop) (hstep : 0 < step) (h : sequenceItems start stop step = .ok items) :
    ∀ v ∈ items, B.Admits n v := by
  simp only [sequenceItems] at h
  split at h
  · cases h
  · split at h
    · cases h
    · cases h
      intro v hv
      obtain ⟨j, rfl, hlow, hhigh⟩ := between_of_mem_integersFrom hstep (Int.le_refl start)
        (fun i hi => le_of_lt_sequenceLength hstep hi) v hv
      exact admits_int.2 (B.int_between hstart hstop hlow hhigh)

end Bounds

end SmallLisp
