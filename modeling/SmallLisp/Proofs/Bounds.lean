import SmallLisp.Proofs.Frames
import SmallLisp.Reading.Forest
import SmallLisp.Value.Coerce
import SmallLisp.Value.Mark

/-! # Bounds on values

A run may be held to bounds: which integers and which procedures of the embedding
program its values are made of, whether a symbol can be a value, and which frames
its closures hold. Reading, coercions, folding and marks keep within all bounds. -/

namespace SmallLisp

open Number

namespace Value

mutual

/-- No symbol occurs in the value, at any depth of lists. -/
def SymbolFree : Value → Prop
  | symbol _ => False
  | list items => SymbolFreeAll items
  | _ => True

def SymbolFreeAll : List Value → Prop
  | [] => True
  | v :: vs => SymbolFree v ∧ SymbolFreeAll vs

end

theorem symbolFreeAll_iff {vs : List Value} : SymbolFreeAll vs ↔ ∀ v ∈ vs, v.SymbolFree := by
  induction vs with
  | nil => exact ⟨fun _ _ hv => absurd hv List.not_mem_nil, fun _ => trivial⟩
  | cons v vs ih => exact (and_congr_right fun _ => ih).trans List.forall_mem_cons.symm

end Value

/-- What the values of a run may be made of. The frames that closures may hold depend
on how many frames there are. -/
structure Bounds where
  int : Int → Prop
  symbols : Prop
  hosts : Prop
  captured : Nat → FrameId → Prop
  int_of_inRange : ∀ {k : Int}, inRange k = true → int k
  int_between : ∀ {a b k : Int}, int a → int b → a ≤ k → k ≤ b → int k
  /-- A procedure of the embedding program may give its argument forms as a value. -/
  symbols_of_hosts : hosts → symbols
  /-- Such a procedure may count its arguments. -/
  int_of_hosts : hosts → ∀ k : Nat, int k
  captured_mono : ∀ {n m : Nat} {f : FrameId}, n ≤ m → captured n f → captured m f
  /-- Whether a frame may be held does not change once it exists. -/
  captured_of_lt : ∀ {n : Nat} {f : FrameId}, f < n → captured (n + 1) f → captured n f

namespace Bounds

variable (B : Bounds) {n m : Nat}

mutual

/-- The bounds on forms: symbols are welcome, also in the bodies of closures. -/
def AdmitsForm (n : Nat) : Value → Prop
  | .int k => B.int k
  | .host _ => B.hosts
  | .list items => AdmitsForms n items
  | .closure _ _ _ body frame => AdmitsForm n body ∧ B.captured n frame
  | _ => True

def AdmitsForms (n : Nat) : List Value → Prop
  | [] => True
  | v :: vs => AdmitsForm n v ∧ AdmitsForms n vs

end

/-- The bounds on values. -/
def Admits (n : Nat) (v : Value) : Prop := B.AdmitsForm n v ∧ (B.symbols ∨ v.SymbolFree)

variable {B}

theorem admitsForms_iff {vs : List Value} :
    B.AdmitsForms n vs ↔ ∀ v ∈ vs, B.AdmitsForm n v := by
  induction vs with
  | nil => exact ⟨fun _ _ hv => absurd hv List.not_mem_nil, fun _ => trivial⟩
  | cons v vs ih => exact (and_congr_right fun _ => ih).trans List.forall_mem_cons.symm

theorem admitsForm_list {items : List Value} :
    B.AdmitsForm n (.list items) ↔ ∀ v ∈ items, B.AdmitsForm n v :=
  admitsForms_iff

theorem admitsForm_symbol (name : String) : B.AdmitsForm n (.symbol name) := trivial

theorem admits_nil : B.Admits n .nil := ⟨trivial, Or.inr trivial⟩

theorem admits_bool (b : Bool) : B.Admits n (.bool b) := ⟨trivial, Or.inr trivial⟩

theorem admits_string (s : String) : B.Admits n (.string s) := ⟨trivial, Or.inr trivial⟩

theorem admits_float (x : Floating) : B.Admits n (.float x) := ⟨trivial, Or.inr trivial⟩

theorem admits_builtin (b : Builtin) : B.Admits n (.builtin b) := ⟨trivial, Or.inr trivial⟩

theorem admits_int {k : Int} : B.Admits n (.int k) ↔ B.int k :=
  ⟨fun h => h.1, fun h => ⟨h, Or.inr trivial⟩⟩

theorem admits_host {h : HostProcedure} : B.Admits n (.host h) ↔ B.hosts :=
  ⟨fun h => h.1, fun h => ⟨h, Or.inr trivial⟩⟩

theorem admits_closure {id : Nat} {name : String} {params : List String} {body : Value}
    {frame : FrameId} :
    B.Admits n (.closure id name params body frame) ↔
      B.AdmitsForm n body ∧ B.captured n frame :=
  ⟨fun h => h.1, fun h => ⟨h, Or.inr trivial⟩⟩

theorem admits_list {vs : List Value} : B.Admits n (.list vs) ↔ ∀ v ∈ vs, B.Admits n v := by
  have hfree : (Value.list vs).SymbolFree ↔ ∀ v ∈ vs, v.SymbolFree := Value.symbolFreeAll_iff
  unfold Admits
  rw [admitsForm_list, hfree]
  constructor
  · rintro ⟨hform, hsymbols | hfree⟩ v hv
    · exact ⟨hform v hv, Or.inl hsymbols⟩
    · exact ⟨hform v hv, Or.inr (hfree v hv)⟩
  · intro h
    refine ⟨fun v hv => (h v hv).1, ?_⟩
    by_cases hsymbols : B.symbols
    · exact Or.inl hsymbols
    · exact Or.inr fun v hv => (h v hv).2.resolve_left hsymbols

theorem admits_strings (names : List String) : B.Admits n (.list (names.map .string)) := by
  rw [admits_list]
  intro v hv
  obtain ⟨name, -, rfl⟩ := List.mem_map.1 hv
  exact admits_string name

/-- A form that is neither a list nor a symbol stands for itself. -/
theorem Admits.of_form {v : Value} (h : B.AdmitsForm n v) (hlist : ∀ items, v ≠ .list items)
    (hsymbol : ∀ name, v ≠ .symbol name) : B.Admits n v := by
  refine ⟨h, Or.inr ?_⟩
  cases v with
  | symbol name => exact absurd rfl (hsymbol name)
  | list items => exact absurd rfl (hlist items)
  | _ => exact trivial

/-- Where host procedures are, forms are values. -/
theorem Admits.of_hosts {v : Value} (hh : B.hosts) (h : B.AdmitsForm n v) : B.Admits n v :=
  ⟨h, Or.inl (B.symbols_of_hosts hh)⟩

/-! ## More frames -/

mutual

theorem AdmitsForm.mono (hnm : n ≤ m) : ∀ {v : Value}, B.AdmitsForm n v → B.AdmitsForm m v
  | .int _, h | .host _, h => h
  | .list _, h => AdmitsForms.mono hnm h
  | .closure _ _ _ _ _, h => ⟨AdmitsForm.mono hnm h.1, B.captured_mono hnm h.2⟩
  | .nil, _ | .bool _, _ | .float _, _ | .string _, _ | .symbol _, _ | .builtin _, _ => trivial

theorem AdmitsForms.mono (hnm : n ≤ m) :
    ∀ {vs : List Value}, B.AdmitsForms n vs → B.AdmitsForms m vs
  | [], _ => trivial
  | _ :: _, h => ⟨AdmitsForm.mono hnm h.1, AdmitsForms.mono hnm h.2⟩

end

theorem Admits.mono (hnm : n ≤ m) {v : Value} (h : B.Admits n v) : B.Admits m v :=
  ⟨h.1.mono hnm, h.2⟩

/-! ## Folding, coercions and marks -/

theorem Admits.unwrap {v : Value} (h : B.Admits n v) : B.Admits n v.unwrap := by
  unfold Value.unwrap
  split
  · next v => exact admits_list.1 h v List.mem_cons_self
  · exact h

theorem Admits.toItems {v : Value} (h : B.Admits n v) : ∀ u ∈ v.toItems, B.Admits n u := by
  cases v with
  | list items => exact admits_list.1 h
  | _ =>
    intro u hu
    rw [Value.toItems, List.mem_singleton] at hu
    exact hu ▸ h
    intro _ he
    cases he

theorem Admits.toFunction {v : Value} {p : Function} (h : B.Admits n v)
    (hp : v.toFunction = .ok p) : B.Admits n p.toValue := by
  unfold Value.toFunction at hp
  split at hp
  · next f hf =>
    cases hp
    rwa [Value.toValue_of_function? hf]
  · cases hp

theorem inRange_of_lt {k : Nat} (h : k < 0x8000000000000000) : inRange k = true := by
  have hleast : leastInteger ≤ k := Int.le_trans (by decide) (Int.natCast_nonneg k)
  have hgreatest : (k : Int) ≤ greatestInteger := by
    rw [greatestInteger]
    omega
  rw [inRange, decide_eq_true hleast, decide_eq_true hgreatest]
  rfl

theorem inRange_of_integer? {cs : List Char} {k : Int} (h : integer? cs = some k) :
    inRange k = true := by
  simp only [integer?] at h
  repeat' split at h
  all_goals first | cases h; assumption | cases h

/-- Converted to an integer, a value within the bounds gives one within the bounds. -/
theorem AdmitsForm.toInt {v : Value} {k : Int} (h : B.AdmitsForm n v) (hk : v.toInt = .ok k) :
    B.int k := by
  have hzero : B.int 0 := B.int_of_inRange (by decide)
  cases v with
  | int a =>
    cases hk
    exact h
  | bool b =>
    cases hk
    exact B.int_of_inRange (by cases b <;> decide)
  | float x =>
    cases x with
    | nan mark => cases hk
    | number x =>
      simp only [Value.toInt] at hk
      split at hk
      · cases hk
      · split at hk
        · next hrange =>
          cases hk
          exact B.int_of_inRange hrange
        · cases hk
  | string s =>
    simp only [Value.toInt] at hk
    split at hk
    · cases hk
    · next hs =>
      cases hk
      exact B.int_of_inRange (inRange_of_integer? (Reading.readInteger_eq_ok_iff.1 hs).2)
    · cases hk
  | _ =>
    cases hk
    exact hzero

mutual

theorem AdmitsForm.mark (next : Nat) :
    ∀ {v : Value}, B.AdmitsForm n v → B.AdmitsForm n (v.mark next).1
  | .list _, h => AdmitsForms.markAll next h
  | .closure _ _ _ _ _, h => ⟨AdmitsForm.mark next h.1, h.2⟩
  | .float (.nan none), _ | .float (.nan (some _)), _ | .float (.number _), _ => trivial
  | .nil, h | .bool _, h | .int _, h | .string _, h | .symbol _, h | .builtin _, h | .host _, h => h

theorem AdmitsForms.markAll (next : Nat) :
    ∀ {vs : List Value}, B.AdmitsForms n vs → B.AdmitsForms n (Value.markAll next vs).1
  | [], _ => trivial
  | _ :: _, h => ⟨AdmitsForm.mark next h.1, AdmitsForms.markAll _ h.2⟩

end

mutual

theorem symbolFree_mark (next : Nat) : ∀ {v : Value}, v.SymbolFree → (v.mark next).1.SymbolFree
  | .list _, h => symbolFreeAll_markAll next h
  | .float (.nan none), _ | .float (.nan (some _)), _ | .float (.number _), _ => trivial
  | .nil, _ | .bool _, _ | .int _, _ | .string _, _ | .builtin _, _ | .host _, _
  | .closure .., _ => trivial

theorem symbolFreeAll_markAll (next : Nat) :
    ∀ {vs : List Value}, Value.SymbolFreeAll vs → Value.SymbolFreeAll (Value.markAll next vs).1
  | [], _ => trivial
  | _ :: _, h => ⟨symbolFree_mark next h.1, symbolFreeAll_markAll _ h.2⟩

end

theorem Admits.mark {v : Value} (h : B.Admits n v) (next : Nat) : B.Admits n (v.mark next).1 :=
  ⟨h.1.mark next, h.2.imp_right (symbolFree_mark next)⟩

end Bounds

end SmallLisp
