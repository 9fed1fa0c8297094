import SmallLisp.Builtin.Arithmetic
import SmallLisp.Builtin.Console
import SmallLisp.Builtin.Lists
import SmallLisp.Builtin.Logic
import SmallLisp.Proofs.Bounds.Results
import SmallLisp.Proofs.Lockstep.Evaluation

/-! # Operations in lockstep

The built-in procedures that compute a result from the values of their arguments.
The results are within the bounds because the values are: an integer is in range, is
one of the operands, or lies between two of them. Only a length may be any number. -/

namespace SmallLisp.Coupling

open EvalM Number

variable {L : Coupling} {n m : Nat} {ev₁ ev₂ : Evaluator} {args : List Value} {frame : FrameId}

/-- Argument forms within the bounds, in a frame where they may be evaluated. -/
structure AdmitsCall (L : Coupling) (n : Nat) (args : List Value) (frame : FrameId) : Prop where
  forms : ∀ form ∈ args, L.AdmitsForm n form
  active : L.active n frame

theorem AdmitsCall.mono (hnm : n ≤ m) (h : L.AdmitsCall n args frame) :
    L.AdmitsCall m args frame :=
  ⟨forms_mono hnm h.forms, L.active_mono hnm h.active⟩

/-- A value that is a number of things, within the bounds or not. -/
def IsSize (v : Value) : Prop := ∃ k : Nat, v = .int k

namespace Lockstep

theorem require (procedure : String) (required : Nat) (args : List Value) :
    L.Lockstep n (fun _ _ => True) (SmallLisp.require procedure required args)
      (SmallLisp.require procedure required args) := by
  unfold SmallLisp.require
  split
  · exact fail _
  · exact pure trivial

end Lockstep

namespace Matched

variable (h : L.Matched ev₁ ev₂) (hc : L.AdmitsCall n args frame)
include h hc

/-! ## Arguments -/

theorem argument {procedure : String} {i : Nat} :
    L.Lockstep n L.Admits (ev₁.argument procedure args i frame)
      (ev₂.argument procedure args i frame) := by
  unfold Evaluator.argument
  split
  · next form hform => exact h.evaluate (hc.forms form (List.mem_of_getElem? hform)) hc.active
  · exact .fail _

theorem textArgument {procedure : String} {i : Nat} :
    L.Lockstep n (fun _ _ => True) (ev₁.textArgument procedure args i frame)
      (ev₂.textArgument procedure args i frame) :=
  (h.argument hc).bind fun _ _ _ _ => .pure trivial

theorem listArgument {procedure : String} {i : Nat} :
    L.Lockstep n (fun m vs => ∀ v ∈ vs, L.Admits m v) (ev₁.listArgument procedure args i frame)
      (ev₂.listArgument procedure args i frame) :=
  (h.argument hc).bind fun _ _ _ hv => .pure hv.toItems

theorem intArgument (hfaults : L.Permissive) {procedure : String} {i : Nat} :
    L.Lockstep n (fun _ k => L.int k) (ev₁.intArgument procedure args i frame)
      (ev₂.intArgument procedure args i frame) :=
  (h.argument hc).bind fun _ _ _ hv =>
    .ofOutcome (fun f _ => hfaults f) fun _ hk => hv.1.toInt hk

theorem functionArgument {procedure : String} {i : Nat} :
    L.Lockstep n (fun m p => L.Admits m p.toValue) (ev₁.functionArgument procedure args i frame)
      (ev₂.functionArgument procedure args i frame) :=
  (h.argument hc).bind fun _ _ _ hv =>
    .ofExcept (Q := fun m (p : Function) => L.Admits m p.toValue) fun _ hp => hv.toFunction hp

/-! ## Texts -/

theorem changeText {b : Builtin} {op : List Char → List Char} :
    L.Lockstep n L.Admits (ev₁.changeText b op args frame) (ev₂.changeText b op args frame) :=
  (h.textArgument hc).bind fun _ _ _ _ => .pure (Bounds.admits_string _)

theorem formatted :
    L.Lockstep n (fun _ _ => True) (ev₁.formatted args frame) (ev₂.formatted args frame) := by
  refine (Lockstep.require _ _ _).bind fun _ m hm _ => ?_
  have hc := hc.mono hm
  refine (h.evaluateAll hc.forms hc.active).bind fun vs k hk _ => ?_
  split <;> exact .pure trivial

theorem format : L.Lockstep n L.Admits (ev₁.format args frame) (ev₂.format args frame) :=
  (h.formatted hc).bind fun _ _ _ _ => .pure (Bounds.admits_string _)

theorem split : L.Lockstep n L.Admits (ev₁.split args frame) (ev₂.split args frame) := by
  refine (h.textArgument hc).bind fun text m hm _ => ?_
  split
  · exact .pure (Bounds.admits_stringItems _)
  · refine (h.textArgument (hc.mono hm)).bind fun separator k _ _ => ?_
    exact .ofExcept fun _ hv => Bounds.admits_splitText hv

theorem join : L.Lockstep n L.Admits (ev₁.join args frame) (ev₂.join args frame) :=
  (h.listArgument hc).bind fun _ _ hm _ =>
    (h.textArgument (hc.mono hm)).bind fun _ _ _ _ => .pure (Bounds.admits_string _)

/-- A test of two texts, in whichever order they are evaluated. -/
theorem textTest {procedure : String} {i j : Nat} {test : String → String → Bool} :
    L.Lockstep n L.Admits
      (do let a ← ev₁.textArgument procedure args i frame
          let b ← ev₁.textArgument procedure args j frame
          pure (.bool (test a b)))
      (do let a ← ev₂.textArgument procedure args i frame
          let b ← ev₂.textArgument procedure args j frame
          pure (.bool (test a b))) :=
  (h.textArgument hc).bind fun _ _ hm _ =>
    (h.textArgument (hc.mono hm)).bind fun _ _ _ _ => .pure (Bounds.admits_bool _)

theorem replace : L.Lockstep n L.Admits (ev₁.replace args frame) (ev₂.replace args frame) := by
  refine (h.textArgument hc).bind fun text m hm _ => ?_
  refine (h.textArgument (hc.mono hm)).bind fun old k hk _ => ?_
  have hmk := Nat.le_trans hm hk
  exact (h.textArgument (hc.mono hmk)).bind fun _ _ _ _ => .pure (Bounds.admits_string _)

theorem byteLength :
    L.Lockstep n (fun _ => IsSize) (ev₁.byteLength args frame) (ev₂.byteLength args frame) :=
  (h.textArgument hc).bind fun _ _ _ _ => .pure ⟨_, rfl⟩

theorem charCode : L.Lockstep n L.Admits (ev₁.charCode args frame) (ev₂.charCode args frame) :=
  (h.textArgument hc).bind fun _ _ _ _ =>
    (Lockstep.ofExcept (Q := fun _ k => L.int k)
      fun _ hcode => Bounds.int_firstCode hcode).bind
        fun _ _ _ hk => .pure (Bounds.admits_int.2 hk)

theorem charOfCode (hfaults : L.Permissive) :
    L.Lockstep n L.Admits (ev₁.charOfCode args frame) (ev₂.charOfCode args frame) :=
  (h.intArgument hc hfaults).bind fun _ _ _ _ =>
    (Lockstep.ofOutcome (Q := fun _ _ => True) (fun f _ => hfaults f) fun _ _ => trivial).bind
      fun _ _ _ _ => .pure (Bounds.admits_string _)

/-! ## Console -/

theorem joined :
    L.Lockstep n (fun _ _ => True) (ev₁.joined args frame) (ev₂.joined args frame) :=
  (h.evaluateAll hc.forms hc.active).bind fun _ _ _ _ => .pure trivial

theorem print : L.Lockstep n L.Admits (ev₁.print args frame) (ev₂.print args frame) :=
  (h.joined hc).bind fun _ _ _ _ => (Lockstep.note _).bind fun _ _ _ _ =>
    (Lockstep.write _).bind fun _ _ _ _ => .pure (Bounds.admits_string _)

theorem printFormat :
    L.Lockstep n L.Admits (ev₁.printFormat args frame) (ev₂.printFormat args frame) :=
  (h.formatted hc).bind fun _ _ _ _ =>
    (Lockstep.write _).bind fun _ _ _ _ => .pure (Bounds.admits_string _)

theorem readLine (hfault : L.faults .interrupted) :
    L.Lockstep n L.Admits (ev₁.readLine args frame) (ev₂.readLine args frame) := by
  have hline : ∀ m, L.Lockstep m L.Admits
      (do let line ← EvalM.readLine; pure (.string (String.ofList (Text.trim line))))
      (do let line ← EvalM.readLine; pure (.string (String.ofList (Text.trim line)))) :=
    fun _ => (Lockstep.readLine hfault).bind fun _ _ _ _ => .pure (Bounds.admits_string _)
  cases args with
  | nil => exact hline n
  | cons form rest =>
    refine (h.evaluate (hc.forms form List.mem_cons_self) hc.active).bind fun v m _ _ => ?_
    exact (Lockstep.write _).bind fun _ k _ _ => hline k

theorem log {severity : Severity} :
    L.Lockstep n L.Admits (ev₁.log severity args frame) (ev₂.log severity args frame) :=
  (h.joined hc).bind fun _ _ _ _ =>
    (Lockstep.note _).bind fun _ _ _ _ => .pure (Bounds.admits_string _)

/-! ## Arithmetic -/

theorem arithmetic (hfaults : L.Permissive) {op : Arithmetic} :
    L.Lockstep n L.Admits (ev₁.arithmetic op args frame) (ev₂.arithmetic op args frame) := by
  refine (Lockstep.require _ _ _).bind fun _ m hm _ => ?_
  have hc := hc.mono hm
  refine (h.evaluateAll hc.forms hc.active).bind fun vs k _ hvs => ?_
  refine (Lockstep.ofOutcome (Q := fun _ v => L.Admits k v) (fun f _ => hfaults f)
    fun v hv => Bounds.admits_onOperands hvs hv).bind fun v l hl hv => ?_
  exact .marked fun next => (hv.mono hl).mark next

/-! ## Comparison and logic -/

omit hc in
theorem allPass {test : Value → Except ScriptError Bool} : ∀ {forms : List Value} {n : Nat},
    L.AdmitsCall n forms frame →
    L.Lockstep n (fun _ _ => True) (ev₁.allPass test forms frame)
      (ev₂.allPass test forms frame) := by
  intro forms
  induction forms with
  | nil => exact fun _ => .pure trivial
  | cons form forms ih =>
    intro n hc
    obtain ⟨hform, hforms⟩ := List.forall_mem_cons.1 hc.forms
    refine (h.evaluate hform hc.active).bind fun v m hm _ => ?_
    refine (Lockstep.checked _).bind fun passes k hk _ => ?_
    have hmk := Nat.le_trans hm hk
    split
    · exact ih ⟨forms_mono hmk hforms, L.active_mono hmk hc.active⟩
    · exact .pure trivial

theorem againstFirst {procedure : String} {test : Value → Value → Except ScriptError Bool} :
    L.Lockstep n L.Admits (ev₁.againstFirst procedure test args frame)
      (ev₂.againstFirst procedure test args frame) := by
  refine (h.argument hc).bind fun first m hm _ => ?_
  have hrest : L.AdmitsCall n (args.drop 1) frame :=
    ⟨fun form hf => hc.forms form (List.mem_of_mem_drop hf), hc.active⟩
  exact (h.allPass (hrest.mono hm)).bind fun _ _ _ _ => .pure (Bounds.admits_bool _)

theorem conjunction :
    L.Lockstep n L.Admits (ev₁.conjunction args frame) (ev₂.conjunction args frame) :=
  (h.allPass hc).bind fun _ _ _ _ => .pure (Bounds.admits_bool _)

theorem disjunction :
    L.Lockstep n L.Admits (ev₁.disjunction args frame) (ev₂.disjunction args frame) :=
  (h.allPass hc).bind fun _ _ _ _ => .pure (Bounds.admits_bool _)

theorem negation : L.Lockstep n L.Admits (ev₁.negation args frame) (ev₂.negation args frame) :=
  (h.argument hc).bind fun _ _ _ _ => .pure (Bounds.admits_bool _)

/-! ## Lists -/

theorem head : L.Lockstep n L.Admits (ev₁.head args frame) (ev₂.head args frame) := by
  refine (h.listArgument hc).bind fun items m _ hitems => ?_
  split
  · next v hv => exact .pure (hitems v (List.mem_of_head? hv))
  · exact .fail _

theorem last : L.Lockstep n L.Admits (ev₁.last args frame) (ev₂.last args frame) := by
  refine (h.listArgument hc).bind fun items m _ hitems => ?_
  split
  · next v hv => exact .pure (hitems v (List.mem_of_getLast? hv))
  · exact .fail _

theorem sequence (hfaults : L.Permissive) :
    L.Lockstep n L.Admits (ev₁.sequence args frame) (ev₂.sequence args frame) := by
  refine (h.intArgument hc hfaults).bind fun start m hm hstart => ?_
  refine (h.intArgument (hc.mono hm) hfaults).bind fun stop k hk hstop => ?_
  have hmk := Nat.le_trans hm hk
  refine .choose (fun _ => L.int_of_inRange (by decide)) (h.intArgument (hc.mono hmk) hfaults) ?_
  intro step _ _ _
  beta_reduce
  split
  · exact .fail _
  · next hstep =>
    have hpositive : 0 < step := Int.not_le.1 hstep
    split
    · next items hitems =>
      exact .pure (Bounds.admits_list.2
        (Bounds.admits_sequenceItems hstart hstop hpositive hitems))
    · exact .stop (s := .fault _) (hfaults _)

theorem count :
    L.Lockstep n (fun _ => IsSize) (ev₁.count args frame) (ev₂.count args frame) :=
  (h.listArgument hc).bind fun _ _ _ _ => .pure ⟨_, rfl⟩

omit hc in
theorem mapItems {p : Function} : ∀ {items : List Value} {n : Nat}, L.Admits n p.toValue →
    (∀ v ∈ items, L.Admits n v) → L.captured n frame →
    L.Lockstep n (fun m vs => ∀ v ∈ vs, L.Admits m v) (ev₁.mapItems p frame items)
      (ev₂.mapItems p frame items) := by
  intro items
  induction items with
  | nil => exact fun _ _ _ => .pure fun _ hv => absurd hv List.not_mem_nil
  | cons item items ih =>
    intro n hp hitems hframe
    rw [List.forall_mem_cons] at hitems
    have hitem : ∀ v ∈ [item], L.Admits n v := List.forall_mem_singleton.2 hitems.1
    refine (h.callValues hp hitem hframe).bind fun v m hm hv => ?_
    refine (ih (hp.mono hm) (values_mono hm hitems.2) (L.captured_mono hm hframe)).bind
      fun vs k hk hvs => ?_
    exact .pure (List.forall_mem_cons.2 ⟨hv.mono hk, hvs⟩)

omit hc in
theorem filterItems {p : Function} : ∀ {items : List Value} {n : Nat}, L.Admits n p.toValue →
    (∀ v ∈ items, L.Admits n v) → L.captured n frame →
    L.Lockstep n (fun m vs => ∀ v ∈ vs, L.Admits m v) (ev₁.filterItems p frame items)
      (ev₂.filterItems p frame items) := by
  intro items
  induction items with
  | nil => exact fun _ _ _ => .pure fun _ hv => absurd hv List.not_mem_nil
  | cons item items ih =>
    intro n hp hitems hframe
    rw [List.forall_mem_cons] at hitems
    have hitem : ∀ v ∈ [item], L.Admits n v := List.forall_mem_singleton.2 hitems.1
    refine (h.callValues hp hitem hframe).bind fun v m hm _ => ?_
    refine (ih (hp.mono hm) (values_mono hm hitems.2) (L.captured_mono hm hframe)).bind
      fun kept k hk hkept => ?_
    split
    · exact .pure (List.forall_mem_cons.2 ⟨hitems.1.mono (Nat.le_trans hm hk), hkept⟩)
    · exact .pure hkept

theorem map : L.Lockstep n L.Admits (ev₁.map args frame) (ev₂.map args frame) := by
  refine (h.functionArgument hc).bind fun p m hm hp => ?_
  refine (h.listArgument (hc.mono hm)).bind fun items k hk hitems => ?_
  have hframe := (hc.mono (Nat.le_trans hm hk)).active
  refine (h.mapItems (hp.mono hk) hitems (L.captured_of_active hframe)).bind fun vs l _ hvs => ?_
  exact .pure (Bounds.admits_list.2 hvs)

theorem filter : L.Lockstep n L.Admits (ev₁.filter args frame) (ev₂.filter args frame) := by
  refine (h.functionArgument hc).bind fun p m hm hp => ?_
  refine (h.listArgument (hc.mono hm)).bind fun items k hk hitems => ?_
  have hframe := (hc.mono (Nat.le_trans hm hk)).active
  refine (h.filterItems (hp.mono hk) hitems (L.captured_of_active hframe)).bind
    fun vs l _ hvs => ?_
  exact .pure (Bounds.admits_list.2 hvs)

end Matched

end SmallLisp.Coupling
