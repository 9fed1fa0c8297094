import SmallLisp.Builtin.Binding
import SmallLisp.Builtin.System
import SmallLisp.Proofs.Lockstep.Loading
import SmallLisp.Proofs.Lockstep.Operations

/-! # Definitions and control in lockstep

The built-in procedures that bind names, decide what is evaluated, look at the
bindings in sight, or reach outside the language. A loop runs in lockstep because
every turn of it does. -/

namespace SmallLisp.Coupling

open EvalM

variable {L : Coupling} {n m : Nat} {ev₁ ev₂ : Evaluator} {args : List Value} {frame : FrameId}

/-! ## Functions -/

namespace Lockstep

theorem makeClosure {name : String} {params : List String} {body : Value}
    (hbody : L.AdmitsForm n body) (hframe : L.active n frame) :
    L.Lockstep n L.Admits (SmallLisp.makeClosure name params body frame)
      (SmallLisp.makeClosure name params body frame) := by
  refine freshId.bind fun id m hm _ => ?_
  have hactive := L.active_mono hm hframe
  have hclosure : L.Admits m (Function.closure ⟨id, name, params, body, frame⟩).toValue :=
    Bounds.admits_closure.2 ⟨hbody.mono hm, L.captured_of_active hactive⟩
  dsimp only
  split
  · exact pure hclosure
  · refine (note _).bind fun _ k hk _ => ?_
    refine (defineProcedure (L.active_mono hk hactive) (hclosure.mono hk)).bind fun _ l hl _ => ?_
    exact pure (hclosure.mono (Nat.le_trans hk hl))

theorem functionForms {name : String} {required given : Nat} (hc : L.AdmitsCall n args frame) :
    L.Lockstep n L.Admits (SmallLisp.functionForms name required given args frame)
      (SmallLisp.functionForms name required given args frame) := by
  unfold SmallLisp.functionForms
  split
  · next params body rest =>
    have hbody := hc.forms body (List.mem_cons_of_mem _ List.mem_cons_self)
    refine (checked _).bind fun names m hm _ => ?_
    exact makeClosure (hbody.mono hm) (L.active_mono hm hc.active)
  · exact fail _
  · exact fail _

theorem makeFunction (hc : L.AdmitsCall n args frame) :
    L.Lockstep n L.Admits (SmallLisp.makeFunction args frame)
      (SmallLisp.makeFunction args frame) := by
  unfold SmallLisp.makeFunction
  split
  · exact fail _
  · exact functionForms hc
  · have hrest := (List.forall_mem_cons.1 hc.forms).2
    refine (checked _).bind fun name m hm _ => ?_
    exact functionForms ⟨forms_mono hm hrest, L.active_mono hm hc.active⟩

theorem undefine (hframe : L.active n frame) :
    L.Lockstep n L.Admits (SmallLisp.undefine args frame) (SmallLisp.undefine args frame) := by
  unfold SmallLisp.undefine
  split
  · refine (checked _).bind fun name m hm _ => ?_
    refine (eraseVariable (L.active_mono hm hframe)).bind fun _ _ _ _ => ?_
    exact pure Bounds.admits_nil
  · exact fail _

/-! ## Inspection -/

theorem noteNames (names : List String) :
    L.Lockstep n (fun _ _ => True) (SmallLisp.noteNames names) (SmallLisp.noteNames names) := by
  induction names generalizing n with
  | nil => exact pure trivial
  | cons name names ih => exact (note _).bind fun _ _ _ _ => ih

theorem writeAll (lines : List String) :
    L.Lockstep n (fun _ _ => True) (SmallLisp.writeAll lines) (SmallLisp.writeAll lines) := by
  induction lines generalizing n with
  | nil => exact pure trivial
  | cons line lines ih => exact (write _).bind fun _ _ _ _ => ih

theorem listProcedures (hframe : L.captured n frame) :
    L.Lockstep n L.Admits (SmallLisp.listProcedures frame) (SmallLisp.listProcedures frame) := by
  refine get fun w₁ w₂ hw hn => ?_
  subst hn
  rw [← (hw.sameSight hframe).names .procs]
  exact ((noteNames _).bind fun _ _ _ _ => pure (Bounds.admits_strings _)) w₁ w₂ hw rfl

theorem showBindings (hframe : L.captured n frame) :
    L.Lockstep n L.Admits (SmallLisp.showBindings frame) (SmallLisp.showBindings frame) := by
  refine get fun w₁ w₂ hw hn => ?_
  subst hn
  have hsight := hw.sameSight hframe
  unfold bindingLines
  rw [← hsight.visible .procs, ← hsight.visible .vars]
  exact ((writeAll _).bind fun _ _ _ _ => pure Bounds.admits_nil) w₁ w₂ hw rfl

end Lockstep

namespace Matched

variable (h : L.Matched ev₁ ev₂)
include h

/-! ## Loops -/

theorem repeatWhile {condition : Value} {body : Option Value} : ∀ {fuel n : Nat},
    L.AdmitsForm n condition → (∀ form, body = some form → L.AdmitsForm n form) →
    L.active n frame →
    L.Lockstep n L.Admits (ev₁.repeatWhile condition body frame fuel)
      (ev₂.repeatWhile condition body frame fuel) := by
  intro fuel
  induction fuel with
  | zero => exact fun _ _ _ => .stop (s := .outOfFuel) trivial
  | succ fuel ih =>
    intro n hcondition hbody hframe
    refine (h.evaluate hcondition hframe).bind fun v m hm _ => ?_
    have hframe := L.active_mono hm hframe
    have hcondition := hcondition.mono hm
    have hbody := fun form hform => (hbody form hform).mono hm
    have hagain : ∀ (_ : Value) k, m ≤ k → True →
        L.Lockstep k L.Admits (ev₁.repeatWhile condition body frame fuel)
          (ev₂.repeatWhile condition body frame fuel) := fun _ k hk _ =>
      ih (hcondition.mono hk) (fun form hform => (hbody form hform).mono hk)
        (L.active_mono hk hframe)
    split
    · cases body with
      | none => exact (Lockstep.pure trivial).bind hagain
      | some form =>
        exact ((h.evaluate (hbody form rfl) hframe).imp fun _ _ _ _ => trivial).bind hagain
    · exact .pure Bounds.admits_nil

theorem forEach {name : String} {body : Value} : ∀ {items : List Value} {n : Nat},
    (∀ v ∈ items, L.Admits n v) → L.AdmitsForm n body → L.active n frame →
    L.Lockstep n L.Admits (ev₁.forEach name body frame items)
      (ev₂.forEach name body frame items) := by
  intro items
  induction items with
  | nil => exact fun _ _ _ => .pure Bounds.admits_nil
  | cons item items ih =>
    intro n hitems hbody hframe
    rw [List.forall_mem_cons] at hitems
    refine (Lockstep.setVariable hframe hitems.1).bind fun _ m hm _ => ?_
    refine (h.evaluate (hbody.mono hm) (L.active_mono hm hframe)).bind fun _ k hk _ => ?_
    have hmk := Nat.le_trans hm hk
    exact ih (values_mono hmk hitems.2) (hbody.mono hmk) (L.active_mono hmk hframe)

variable (hc : L.AdmitsCall n args frame)
include hc

theorem whileLoop :
    L.Lockstep n L.Admits (ev₁.whileLoop args frame) (ev₂.whileLoop args frame) := by
  unfold Evaluator.whileLoop
  split
  · next condition rest =>
    obtain ⟨hcondition, hrest⟩ := List.forall_mem_cons.1 hc.forms
    rw [h.fuel]
    exact h.repeatWhile hcondition
      (fun form hform => hrest form (List.mem_of_head? hform)) hc.active
  · exact .fail _

theorem forLoop : L.Lockstep n L.Admits (ev₁.forLoop args frame) (ev₂.forLoop args frame) := by
  unfold Evaluator.forLoop
  split
  · next variableForm sequence body rest =>
    have hsequence := hc.forms sequence (by simp)
    have hbody := hc.forms body (by simp)
    refine (Lockstep.checked _).bind fun name m hm _ => ?_
    refine (h.evaluate (hsequence.mono hm) (L.active_mono hm hc.active)).bind
      fun v k hk hv => ?_
    have hmk := Nat.le_trans hm hk
    exact h.forEach hv.toItems (hbody.mono hmk) (L.active_mono hmk hc.active)
  · exact .fail _

/-! ## Definitions and branches -/

theorem define : L.Lockstep n L.Admits (ev₁.define args frame) (ev₂.define args frame) := by
  unfold Evaluator.define
  split
  · exact .fail _
  · next first rest =>
    refine (Lockstep.checked _).bind fun name m hm _ => ?_
    have hc := hc.mono hm
    have hbind : ∀ v k, m ≤ k → L.Admits k v →
        L.Lockstep k L.Admits
          (do note (.variableSet name); updateVariable frame name v; pure v)
          (do note (.variableSet name); updateVariable frame name v; pure v) := by
      intro v k hk hv
      refine (Lockstep.note _).bind fun _ l hl _ => ?_
      have hframe := L.active_mono (Nat.le_trans hk hl) hc.active
      refine (Lockstep.updateVariable hframe (hv.mono hl)).bind fun _ j hj _ => ?_
      exact .pure (hv.mono (Nat.le_trans hl hj))
    cases rest with
    | nil => exact (Lockstep.pure Bounds.admits_nil).bind hbind
    | cons form rest => exact (h.evaluate (hc.forms form (by simp)) hc.active).bind hbind

theorem branch : L.Lockstep n L.Admits (ev₁.branch args frame) (ev₂.branch args frame) := by
  unfold Evaluator.branch
  split
  · next condition consequence rest =>
    have hcondition := hc.forms condition (by simp)
    refine (h.evaluate hcondition hc.active).bind fun v m hm _ => ?_
    have hc := hc.mono hm
    split
    · exact h.evaluate (hc.forms consequence (by simp)) hc.active
    · cases rest with
      | nil => exact .pure Bounds.admits_nil
      | cons alternative rest => exact h.evaluate (hc.forms alternative (by simp)) hc.active
  · exact .fail _

/-! ## System -/

theorem convert (hfaults : L.Permissive) {target : Conversion} :
    L.Lockstep n L.Admits (ev₁.convert target args frame) (ev₂.convert target args frame) := by
  refine (h.argument hc).bind fun v m _ hv => ?_
  refine (Lockstep.ofOutcome (Q := fun _ u => L.Admits m u) (fun f _ => hfaults f)
    fun u hu => Bounds.admits_convert hv hu).bind fun u k hk hu => ?_
  exact .marked fun next => (hu.mono hk).mark next

theorem callByName :
    L.Lockstep n L.Admits (ev₁.callByName args frame) (ev₂.callByName args frame) := by
  refine (h.textArgument hc).bind fun name m hm _ => ?_
  have hrest : ∀ form ∈ args.drop 1, L.AdmitsForm n form := fun form hf =>
    hc.forms form (List.mem_of_mem_drop hf)
  exact h.callNamed (forms_mono hm hrest) (L.active_mono hm hc.active)

theorem assert : L.Lockstep n L.Admits (ev₁.assert args frame) (ev₂.assert args frame) := by
  refine (h.argument hc).bind fun v m _ _ => ?_
  split
  · exact (Lockstep.note _).bind fun _ _ _ _ => .pure Bounds.admits_nil
  · exact .fail _

theorem assertEqual :
    L.Lockstep n L.Admits (ev₁.assertEqual args frame) (ev₂.assertEqual args frame) := by
  refine (h.argument hc).bind fun a m hm _ => ?_
  refine (h.argument (hc.mono hm)).bind fun b k _ _ => ?_
  split
  · exact (Lockstep.note _).bind fun _ _ _ _ => .pure Bounds.admits_nil
  · exact .fail _

theorem random (hfaults : L.Permissive) :
    L.Lockstep n L.Admits (ev₁.random args frame) (ev₂.random args frame) := by
  refine .choose (fun _ => L.int_of_inRange (by decide)) (h.intArgument hc hfaults) ?_
  intro low m hm hlow
  refine .choose (fun _ => L.int_of_inRange (by decide)) (h.intArgument (hc.mono hm) hfaults) ?_
  intro high k _ hhigh
  dsimp only
  split
  · exact .fail _
  · next hlt =>
    refine (Lockstep.drawBetween hlow hhigh (Int.not_lt.1 hlt)).bind fun r l _ hr => ?_
    exact .pure (Bounds.admits_int.2 hr)

theorem exit (hfaults : L.Permissive) :
    L.Lockstep n L.Admits (ev₁.exit args frame) (ev₂.exit args frame) := by
  refine .choose (fun _ => L.int_of_inRange (by decide)) (h.intArgument hc hfaults) ?_
  exact fun code _ _ _ => (Lockstep.note _).bind fun _ _ _ _ => .stop (s := .exit code) trivial

theorem importArgument (hL : L.SharesImports) (hfaults : L.Permissive) :
    L.Lockstep n L.Admits (ev₁.importArgument args frame) (ev₂.importArgument args frame) :=
  (h.textArgument hc).bind fun _ _ hm _ => h.importFile hL hfaults (hc.mono hm).active

end Matched

end SmallLisp.Coupling
