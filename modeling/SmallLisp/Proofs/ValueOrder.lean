import SmallLisp.Proofs.Reading.RoundTrip
import SmallLisp.Value.Equal
import SmallLisp.Value.Order

/-! # The order of values

The comparison of two values turns around when they are exchanged, also where it is
refused. Where two comparisons in a row do not go down, the first value can be compared
with the third, whatever stands behind the first difference in the lists on the way. -/

namespace SmallLisp

open Number

namespace Value

/-! ## Keys of numbers -/

instance : Std.TransCmp compareKeys :=
  inferInstanceAs (Std.TransCmp (compareLex (compareOn Prod.fst) (compareOn Prod.snd)))

/-- Two comparisons in a row, of which neither goes down. -/
theorem compare_then {α : Type} {cmp : α → α → Ordering} [Std.TransCmp cmp] {a b c : α}
    (h : (cmp a b).isLE) (h' : (cmp b c).isLE) : cmp a c = (cmp a b).then (cmp b c) := by
  cases hab : cmp a b with
  | lt => exact Std.TransCmp.lt_of_lt_of_isLE hab h'
  | eq => exact Std.TransCmp.congr_left hab
  | gt =>
    rw [hab] at h
    cases h

theorem exists_numericKey? {v : Value} (hnumber : v.isNumber = true) (hnan : v.NaNFree) :
    ∃ k, v.numericKey? = some k := by
  cases v with
  | int n => exact ⟨_, rfl⟩
  | float x =>
    cases x with
    | number x => exact ⟨_, rfl⟩
    | nan mark => cases hnan
  | _ => cases hnumber

theorem isNumber_of_numericKey? {v : Value} {k : NumericKey} (h : v.numericKey? = some k) :
    v.isNumber = true := by
  cases v <;> first | rfl | cases h

theorem compareNumbers_eq {a b : Value} {x y : NumericKey} (ha : a.numericKey? = some x)
    (hb : b.numericKey? = some y) : a.compareNumbers b = compareKeys x y := by
  simp only [compareNumbers, ha, hb]

theorem compareKeys_self (x : NumericKey) : compareKeys x x = .eq :=
  Std.ReflCmp.compare_self

theorem compareKeys_swap (x y : NumericKey) : compareKeys y x = (compareKeys x y).swap :=
  Std.OrientedCmp.eq_swap

theorem compareNumbers_swap (a b : Value) : b.compareNumbers a = (a.compareNumbers b).swap := by
  unfold compareNumbers
  cases a.numericKey? <;> cases b.numericKey? <;> first | rfl | exact compareKeys_swap _ _

/-- A zero has the key of the integer zero, whatever its sign. -/
theorem keyOfFloat_of_isZero {x : Binary64} (h : x.isZero = true) : keyOfFloat x = (0, 0) := by
  have hrank : x.rank = 0 := beq_iff_eq.1 h
  have hunits : x.units = 0 := by rw [Binary64.units, hrank, unitsAt, Nat.zero_div]
  have hfinite : x.isInfinite = false := by
    rw [Binary64.isInfinite, hrank]
    decide
  simp [keyOfFloat, hfinite, Binary64.signedUnits, hunits]

/-! ## Results of comparisons -/

/-- How two values compare, by what they are. -/
inductive Compares : Value → Value → Ordering → Prop
  | lists {xs ys : List Value} {o : Ordering} (h : compareAll xs ys = .ok o) :
      Compares (list xs) (list ys) o
  | bools (a b : Bool) : Compares (bool a) (bool b) (Ord.compare a b)
  | strings (s t : String) : Compares (string s) (string t) (Ord.compare s t)
  | numbers {a b : Value} {x y : NumericKey} (ha : a.numericKey? = some x)
      (hb : b.numericKey? = some y) : Compares a b (compareKeys x y)

theorem compare_numbers {a b : Value} (ha : a.isNumber = true) (hb : b.isNumber = true) :
    a.compare b = .ok (a.compareNumbers b) := by
  rw [compare.eq_def]
  split
  · cases ha
  · cases ha
  · cases ha
  · rw [ha, hb]
    rfl

theorem Compares.compare_eq {a b : Value} {o : Ordering} (h : Compares a b o) :
    a.compare b = .ok o := by
  cases h with
  | lists h => rw [compare, h]
  | bools a b => rw [compare]
  | strings s t => rw [compare]
  | numbers ha hb =>
    rw [compare_numbers (isNumber_of_numericKey? ha) (isNumber_of_numericKey? hb),
      compareNumbers_eq ha hb]

theorem compares_of_compare {a b : Value} {o : Ordering} (ha : a.NaNFree) (hb : b.NaNFree)
    (h : a.compare b = .ok o) : Compares a b o := by
  rw [compare.eq_def] at h
  split at h
  · exact .lists h
  · cases h
    exact .bools _ _
  · cases h
    exact .strings _ _
  · split at h
    · next hnumbers =>
      rw [Bool.and_eq_true] at hnumbers
      obtain ⟨x, hx⟩ := exists_numericKey? hnumbers.1 ha
      obtain ⟨y, hy⟩ := exists_numericKey? hnumbers.2 hb
      rw [compareNumbers_eq hx hy] at h
      cases h
      exact .numbers hx hy
    · cases h

/-- The heads of two lists decide, or else the rests. -/
theorem compareAll_cons_eq_ok_iff {x y : Value} {xs ys : List Value} {o : Ordering} :
    compareAll (x :: xs) (y :: ys) = .ok o ↔
      x.compare y = .ok .eq ∧ compareAll xs ys = .ok o ∨ o ≠ .eq ∧ x.compare y = .ok o := by
  rw [compareAll]
  cases x.compare y with
  | error e => simp
  | ok p => cases p <;> cases o <;> simp

/-! ## Exchange -/

/-- What a comparison gives, and what it gives when the values are exchanged. -/
inductive Opposite : Except ScriptError Ordering → Except ScriptError Ordering → Prop
  | compared (o : Ordering) : Opposite (.ok o) (.ok o.swap)
  | refused (a b : Value) : Opposite (.error (.notComparable a b)) (.error (.notComparable b a))

theorem opposite (a b : Value) : Opposite (a.compare b) (b.compare a) := by
  induction a, b using
    compare.induct _ fun xs ys => Opposite (compareAll xs ys) (compareAll ys xs) with
  | case1 xs ys ih => rwa [compare, compare]
  | case2 a b =>
    have hswap : Ord.compare b a = (Ord.compare a b).swap := Std.OrientedCmp.eq_swap
    rw [compare, compare, hswap]
    exact .compared _
  | case3 s t =>
    have hswap : Ord.compare t s = (Ord.compare s t).swap := Std.OrientedCmp.eq_swap
    rw [compare, compare, hswap]
    exact .compared _
  | case4 a b hlists hbools hstrings hnumbers =>
    rw [Bool.and_eq_true] at hnumbers
    rw [compare_numbers hnumbers.2 hnumbers.1, compare_numbers hnumbers.1 hnumbers.2,
      compareNumbers_swap a b]
    exact .compared _
  | case5 a b hlists hbools hstrings hnumbers =>
    rw [compare.eq_4 a b hlists hbools hstrings, if_neg hnumbers,
      compare.eq_4 b a (fun ys xs hb ha => hlists xs ys ha hb)
        (fun y x hb ha => hbools x y ha hb) (fun t s hb ha => hstrings s t ha hb),
      if_neg (by rwa [Bool.and_comm])]
    exact .refused a b
  | case6 => exact .compared .eq
  | case7 y ys => exact .compared .lt
  | case8 x xs => exact .compared .gt
  | case9 x xs y ys heq ihhead ihrest =>
    rw [heq] at ihhead
    rw [compareAll, compareAll, heq]
    generalize y.compare x = outcome at ihhead
    cases ihhead
    exact ihrest
  | case10 x xs y ys hne ihhead =>
    rw [compareAll, compareAll]
    generalize x.compare y = outcome at hne ihhead
    generalize y.compare x = outcome' at ihhead
    cases ihhead with
    | refused a b => exact .refused a b
    | compared o =>
      cases o with
      | eq => exact absurd rfl hne
      | lt => exact .compared .lt
      | gt => exact .compared .gt

/-! ## Transitivity -/

theorem then_of_ne {o : Ordering} (hne : o ≠ .eq) (p : Ordering) : o.then p = o := by
  cases o <;> first | rfl | exact absurd rfl hne

/-- Of two results that do not go down, the second decides unless it is equality. -/
theorem then_of_isLE {o p : Ordering} (ho : o.isLE) (hp : p.isLE) (hne : p ≠ .eq) :
    o.then p = p := by
  cases p with
  | lt =>
    cases o with
    | lt | eq => rfl
    | gt => cases ho
  | eq => exact absurd rfl hne
  | gt => cases hp

/-- The value can stand before two others in a row. -/
def Composes (a : Value) : Prop :=
  ∀ ⦃b c : Value⦄ ⦃o p : Ordering⦄, b.NaNFree → c.NaNFree → a.compare b = .ok o →
    b.compare c = .ok p → o.isLE → p.isLE → a.compare c = .ok (o.then p)

theorem compareAll_then {xs : List Value} (h : ∀ x ∈ xs, x.Composes) :
    ∀ {ys zs : List Value} {o p : Ordering}, NaNFreeAll ys → NaNFreeAll zs →
      compareAll xs ys = .ok o → compareAll ys zs = .ok p → o.isLE → p.isLE →
      compareAll xs zs = .ok (o.then p) := by
  induction xs with
  | nil =>
    rintro (_ | ⟨y, ys⟩) (_ | ⟨z, zs⟩) o p - - hxy hyz ho hp <;> cases hxy
    · exact hyz
    · exact hyz
    · cases hyz
      cases hp
    · rfl
  | cons x xs ih =>
    rw [List.forall_mem_cons] at h
    rintro (_ | ⟨y, ys⟩) (_ | ⟨z, zs⟩) o p hys hzs hxy hyz ho hp
    · cases hxy
      cases ho
    · cases hxy
      cases ho
    · cases hyz
      cases hp
    -- Behind the first difference nothing is compared, so the rests count only where both
    -- heads are equal.
    rw [compareAll_cons_eq_ok_iff] at hxy hyz ⊢
    rcases hxy with ⟨hxy, hrest⟩ | ⟨hne, hxy⟩ <;> rcases hyz with ⟨hyz, hrest'⟩ | ⟨hne', hyz⟩
    · exact .inl ⟨h.1 hys.1 hzs.1 hxy hyz rfl rfl, ih h.2 hys.2 hzs.2 hrest hrest' ho hp⟩
    · rw [then_of_isLE ho hp hne']
      exact .inr ⟨hne', h.1 hys.1 hzs.1 hxy hyz rfl hp⟩
    · rw [then_of_ne hne]
      have hhead := h.1 hys.1 hzs.1 hxy hyz ho rfl
      rw [then_of_ne hne] at hhead
      exact .inr ⟨hne, hhead⟩
    · have hhead := h.1 hys.1 hzs.1 hxy hyz ho hp
      rw [then_of_ne hne] at hhead ⊢
      exact .inr ⟨hne, hhead⟩

theorem composes {a : Value} (ha : a.NaNFree) : a.Composes := by
  induction a using list_induction with
  | list xs ih =>
    intro b c o p hb hc hab hbc ho hp
    have hxs := nanFreeAll_iff.1 ha
    cases compares_of_compare ha hb hab with
    | numbers hx => cases hx
    | lists hab =>
      cases compares_of_compare hb hc hbc with
      | numbers hy => cases hy
      | lists hbc =>
        have hac := compareAll_then (fun x hx => ih x hx (hxs x hx)) hb hc hab hbc ho hp
        exact (Compares.lists hac).compare_eq
  | atom a hatom =>
    intro b c o p hb hc hab hbc ho hp
    cases compares_of_compare ha hb hab with
    | lists => cases hatom
    | bools a b =>
      cases compares_of_compare hb hc hbc with
      | numbers hy => cases hy
      | bools _ c =>
        rw [← compare_then ho hp]
        exact (Compares.bools a c).compare_eq
    | strings s t =>
      cases compares_of_compare hb hc hbc with
      | numbers hy => cases hy
      | strings _ u =>
        rw [← compare_then ho hp]
        exact (Compares.strings s u).compare_eq
    | numbers hx hy =>
      cases compares_of_compare hb hc hbc with
      | lists => cases hy
      | bools => cases hy
      | strings => cases hy
      | numbers hy' hz =>
        rw [hy] at hy'
        cases hy'
        rw [← compare_then ho hp]
        exact (Compares.numbers hx hz).compare_eq

/-! ## Equality -/

theorem numericKey?_of_same {a b : Value} (hnumber : a.isNumber = true)
    (h : a.same b = true) : a.numericKey? = b.numericKey? := by
  cases a with
  | int m =>
    cases b with
    | int n =>
      rw [same, beq_iff_eq] at h
      rw [h]
    | _ => cases h
  | float x =>
    cases b with
    | float y =>
      rw [same] at h
      rcases x with x | _ | mark <;> rcases y with y | _ | mark' <;> first | cases h | skip
      · rw [Floating.same, Bool.or_eq_true, Bool.and_eq_true, beq_iff_eq] at h
        rcases h with rfl | ⟨hx, hy⟩
        · rfl
        · simp only [numericKey?, keyOfFloat_of_isZero hx, keyOfFloat_of_isZero hy]
      · rfl
    | _ => cases h
  | _ => cases hnumber

theorem compareNumbers_of_same {a b : Value} (hnumber : a.isNumber = true)
    (h : a.same b = true) : a.compareNumbers b = .eq := by
  unfold compareNumbers
  rw [numericKey?_of_same hnumber h]
  cases b.numericKey? with
  | none => rfl
  | some k => exact compareKeys_self k

theorem eq_of_same (a b : Value) :
    ∀ o, a.same b = true → a.compare b = .ok o → o = .eq := by
  induction a, b using compare.induct _ fun xs ys =>
    ∀ o, sameAll xs ys = true → compareAll xs ys = .ok o → o = .eq with
  | case1 xs ys ih =>
    intro o hsame h
    rw [same] at hsame
    rw [compare] at h
    exact ih o hsame h
  | case2 a b =>
    intro o hsame h
    rw [same, beq_iff_eq] at hsame
    rw [compare, hsame] at h
    cases h
    exact Std.ReflCmp.compare_self
  | case3 s t =>
    intro o hsame h
    rw [same, beq_iff_eq] at hsame
    rw [compare, hsame] at h
    cases h
    exact Std.ReflCmp.compare_self
  | case4 a b hlists hbools hstrings hnumbers =>
    intro o hsame h
    rw [Bool.and_eq_true] at hnumbers
    rw [compare_numbers hnumbers.1 hnumbers.2] at h
    cases h
    exact compareNumbers_of_same hnumbers.1 hsame
  | case5 a b hlists hbools hstrings hnumbers =>
    intro o hsame h
    rw [compare.eq_4 a b hlists hbools hstrings, if_neg hnumbers] at h
    cases h
  | case6 o hsame h =>
    cases h
    rfl
  | case7 y ys o hsame => cases hsame
  | case8 x xs o hsame => cases hsame
  | case9 x xs y ys heq ihhead ihrest o hsame h =>
    rw [sameAll, Bool.and_eq_true] at hsame
    rw [compareAll, heq] at h
    exact ihrest o hsame.2 h
  | case10 x xs y ys hne ihhead o hsame h =>
    rw [sameAll, Bool.and_eq_true] at hsame
    rcases compareAll_cons_eq_ok_iff.1 h with ⟨heq, -⟩ | ⟨-, hhead⟩
    · exact absurd heq hne
    · exact ihhead o hsame.1 hhead

/-! ## The laws -/

/-- Values without NaNs are compared by a lawful order: an error of type and the opposite
result when they are exchanged, a defined result from a first value to a third, and no
difference between values that are the same. -/
theorem compare_lawful (a b c : Value) (ha : a.NaNFree) (hb : b.NaNFree) (hc : c.NaNFree) :
    ((∃ e, a.compare b = .error e ∧ e.kind = .typing) ↔
      ∃ e, b.compare a = .error e ∧ e.kind = .typing) ∧
    (¬ (∃ e, a.compare b = .error e ∧ e.kind = .typing) →
      ∃ o, a.compare b = .ok o ∧ b.compare a = .ok o.swap) ∧
    (∀ o p, a.compare b = .ok o → b.compare c = .ok p → o.isLE → p.isLE →
      ∃ q, a.compare c = .ok q ∧ q.isLE ∧ (o = .lt ∨ p = .lt → q = .lt)) ∧
    (∀ o, a.same b = true → a.compare b = .ok o → o = .eq) := by
  have hopposite := opposite a b
  refine ⟨?_, ?_, ?_, eq_of_same a b⟩
  · generalize a.compare b = outcome at hopposite
    generalize b.compare a = outcome' at hopposite
    cases hopposite with
    | compared o => simp
    | refused x y => exact iff_of_true ⟨_, rfl, rfl⟩ ⟨_, rfl, rfl⟩
  · generalize a.compare b = outcome at hopposite
    generalize b.compare a = outcome' at hopposite
    intro hdefined
    cases hopposite with
    | compared o => exact ⟨o, rfl, rfl⟩
    | refused x y => exact absurd ⟨_, rfl, rfl⟩ hdefined
  · intro o p hab hbc ho hp
    refine ⟨o.then p, composes ha hb hc hab hbc ho hp, ?_, ?_⟩
    · exact Ordering.isLE_then_iff_and.2 ⟨ho, .inr hp⟩
    · rintro (rfl | rfl)
      · rfl
      · exact then_of_isLE ho hp (by decide)

/-- An integer just below a float that has a symbol after it, and an infinity: what could
not be compared stands behind the first difference. -/
theorem compare_lawful_difference :
    let a : Value := list [int 9007199254740993, nil]
    let b : Value := list [float (.ofInt 9007199254740994), symbol "x"]
    let c : Value := list [float (.number (.infinity false))]
    a.NaNFree ∧ b.NaNFree ∧ c.NaNFree ∧ a.compare b = .ok .lt ∧ b.compare c = .ok .lt ∧
      ∃ q, a.compare c = .ok q ∧ q.isLE ∧ q = .lt := by
  intro a b c
  have ha : a.NaNFree := by simp [a, NaNFree, NaNFreeAll]
  have hb : b.NaNFree := ⟨rfl, trivial, trivial⟩
  have hc : c.NaNFree := ⟨rfl, trivial⟩
  have hkeys : (int 9007199254740993).compareNumbers (float (.ofInt 9007199254740994)) = .lt := by
    decide +kernel
  have hkeys' : (float (.ofInt 9007199254740994)).compareNumbers
      (float (.number (.infinity false))) = .lt := by
    decide +kernel
  have hab : a.compare b = .ok .lt := by
    rw [compare, compareAll_cons_eq_ok_iff, compare_numbers rfl rfl, hkeys]
    exact .inr ⟨by decide, rfl⟩
  have hbc : b.compare c = .ok .lt := by
    rw [compare, compareAll_cons_eq_ok_iff, compare_numbers rfl rfl, hkeys']
    exact .inr ⟨by decide, rfl⟩
  obtain ⟨q, hac, hle, hlt⟩ := (compare_lawful a b c ha hb hc).2.2.1 .lt .lt hab hbc rfl rfl
  exact ⟨ha, hb, hc, hab, hbc, q, hac, hle, hlt (.inl rfl)⟩

end Value

end SmallLisp
