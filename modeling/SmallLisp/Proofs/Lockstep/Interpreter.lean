import SmallLisp.Interpreter
import SmallLisp.Proofs.Lockstep.Control

/-! # The interpreter in lockstep

All built-in procedures run in lockstep, and by induction on the fuel so does the
interpreter. The two sides may differ by a change that is made to the evaluator at
every level of the recursion, if the change keeps matched evaluators matched. -/

namespace SmallLisp

open EvalM

/-- Does the procedure give the size of its argument? -/
def Builtin.measures : Builtin → Bool
  | count | byteLength => true
  | _ => false

/-- Can the procedure fail outside the language although none of its arguments does? -/
def Builtin.mayFault : Builtin → Bool
  | arithmetic _ | convert _ | sequence | charOfCode | random | exit | readLine | importFile => true
  | _ => false

/-- The interpreter with a change made to the evaluator at every level. -/
def Evaluator.ofFuelWith (change : Evaluator → Evaluator) (m : Machine) : Nat → Evaluator
  | 0 => change ⟨m, 0, fun _ _ => stop .outOfFuel, fun _ _ _ => stop .outOfFuel⟩
  | fuel + 1 =>
    change ⟨m, fuel + 1, fun form frame => (ofFuelWith change m fuel).evaluateForm form frame,
      fun b args frame => (ofFuelWith change m fuel).performBuiltin b args frame⟩

theorem Evaluator.ofFuelWith_id (m : Machine) (fuel : Nat) :
    ofFuelWith id m fuel = ofFuel m fuel := by
  induction fuel with
  | zero => rfl
  | succ fuel ih => rw [ofFuelWith, ofFuel, ih, id]

/-- Changes that leave the machine alone do so at every level. -/
theorem Evaluator.machine_ofFuelWith {change : Evaluator → Evaluator}
    (h : ∀ ev, (change ev).machine = ev.machine) (m : Machine) (fuel : Nat) :
    (ofFuelWith change m fuel).machine = m := by
  cases fuel with
  | zero => exact h _
  | succ fuel => exact h _

namespace Coupling

variable {L : Coupling} {n : Nat} {ev₁ ev₂ : Evaluator}

/-- The coupling where a procedure may fail in its own ways. -/
def raising (L : Coupling) (b : Builtin) : Coupling :=
  L.withFaults (fun f => L.faults f ∨ b.mayFault = true) fun hosts f =>
    .inl (L.faults_of_hosts hosts f)

theorem Lockstep.of_raising {α : Type} {b : Builtin} {Q : Nat → α → Prop} {x y : EvalM α}
    (h : (L.raising b).Lockstep n Q x y) (hpermissive : L.Permissive) : L.Lockstep n Q x y := by
  have hall : ((L.raising b).withFaults L.faults L.faults_of_hosts).Lockstep n Q x y :=
    h.withFaults fun f _ => hpermissive f
  exact hall

/-- Evaluators whose means run in lockstep, where sizes need not be within the bounds, and
procedures may fail in their own ways. -/
structure NearlyMatched (L : Coupling) (ev₁ ev₂ : Evaluator) : Prop where
  machine : ev₁.machine = ev₂.machine
  fuel : ev₁.fuel = ev₂.fuel
  evaluate : ∀ {n : Nat} {form : Value} {frame : FrameId}, L.AdmitsForm n form →
    L.active n frame →
    L.Lockstep n L.Admits (ev₁.evaluate form frame) (ev₂.evaluate form frame)
  perform : ∀ {n : Nat} (b : Builtin) {args : List Value} {frame : FrameId},
    L.AdmitsCall n args frame →
    (L.raising b).Lockstep n (fun m v => L.Admits m v ∨ b.measures = true ∧ IsSize v)
      (ev₁.perform b args frame) (ev₂.perform b args frame)

/-- Where all sizes are within the bounds and all faults allowed, there is no difference. -/
theorem NearlyMatched.matched (h : L.NearlyMatched ev₁ ev₂) (hsize : ∀ k : Nat, L.int k)
    (hpermissive : L.Permissive) : L.Matched ev₁ ev₂ where
  machine := h.machine
  fuel := h.fuel
  evaluate := h.evaluate
  perform b _ _ hargs hframe := by
    refine ((h.perform b ⟨hargs, hframe⟩).of_raising hpermissive).imp fun m v _ hv => ?_
    rcases hv with hv | ⟨-, k, rfl⟩
    · exact hv
    · exact Bounds.admits_int.2 (hsize k)

/-- Evaluators that give up at once match. -/
theorem nearlyMatched_zero (m : Machine) :
    L.NearlyMatched ⟨m, 0, fun _ _ => stop .outOfFuel, fun _ _ _ => stop .outOfFuel⟩
      ⟨m, 0, fun _ _ => stop .outOfFuel, fun _ _ _ => stop .outOfFuel⟩ where
  machine := rfl
  fuel := rfl
  evaluate _ _ := .stop (s := .outOfFuel) trivial
  perform _ _ _ _ := .stop (s := .outOfFuel) trivial

namespace Matched

variable (h : L.Matched ev₁ ev₂)
include h

/-- Only the import of a file depends on the import state. -/
theorem performBuiltin (b : Builtin) (hL : b = .importFile → L.SharesImports)
    (hfaults : b.mayFault = true → L.Permissive) {args : List Value} {frame : FrameId}
    (hc : L.AdmitsCall n args frame) :
    L.Lockstep n (fun m v => L.Admits m v ∨ b.measures = true ∧ IsSize v)
      (ev₁.performBuiltin b args frame) (ev₂.performBuiltin b args frame) := by
  have value : ∀ {x y : EvalM Value}, L.Lockstep n L.Admits x y →
      L.Lockstep n (fun m v => L.Admits m v ∨ b.measures = true ∧ IsSize v) x y :=
    fun hxy => hxy.imp fun _ _ _ hv => Or.inl hv
  have size : ∀ {x y : EvalM Value}, b.measures = true → L.Lockstep n (fun _ => IsSize) x y →
      L.Lockstep n (fun m v => L.Admits m v ∨ b.measures = true ∧ IsSize v) x y :=
    fun hb hxy => hxy.imp fun _ _ _ hv => Or.inr ⟨hb, hv⟩
  have hframe := L.captured_of_active hc.active
  cases b with
  | function => exact value (.makeFunction hc)
  | define => exact value (h.define hc)
  | undefine => exact value (.undefine hc.active)
  | branch => exact value (h.branch hc)
  | repeatWhile => exact value (h.whileLoop hc)
  | forEach => exact value (h.forLoop hc)
  | print => exact value (h.print hc)
  | printLine => exact value (h.print hc)
  | printFormat => exact value (h.printFormat hc)
  | readLine => exact value (h.readLine hc (hfaults rfl _))
  | log severity => exact value (h.log hc)
  | convert target => exact value (h.convert hc (hfaults rfl))
  | arithmetic op => exact value (h.arithmetic hc (hfaults rfl))
  | equal => exact value (h.againstFirst hc)
  | notEqual => exact value (h.againstFirst hc)
  | compare relation => exact value (h.againstFirst hc)
  | and => exact value (h.conjunction hc)
  | or => exact value (h.disjunction hc)
  | not => exact value (h.negation hc)
  | head => exact value (h.head hc)
  | last => exact value (h.last hc)
  | sequence => exact value (h.sequence hc (hfaults rfl))
  | count => exact size rfl (h.count hc)
  | map => exact value (h.map hc)
  | filter => exact value (h.filter hc)
  | trim => exact value (h.changeText hc)
  | trimLeft => exact value (h.changeText hc)
  | trimRight => exact value (h.changeText hc)
  | lower => exact value (h.changeText hc)
  | upper => exact value (h.changeText hc)
  | format => exact value (h.format hc)
  | split => exact value (h.split hc)
  | join => exact value (h.join hc)
  | contains => exact value (h.textTest hc)
  | startsWith => exact value (h.textTest hc)
  | endsWith => exact value (h.textTest hc)
  | replace => exact value (h.replace hc)
  | byteLength => exact size rfl (h.byteLength hc)
  | charCode => exact value (h.charCode hc)
  | charOfCode => exact value (h.charOfCode hc (hfaults rfl))
  | callByName => exact value (h.callByName hc)
  | listProcedures => exact value (.listProcedures hframe)
  | showBindings => exact value (.showBindings hframe)
  | assert => exact value (h.assert hc)
  | assertEqual => exact value (h.assertEqual hc)
  | random => exact value (h.random hc (hfaults rfl))
  | exit => exact value (h.exit hc (hfaults rfl))
  | importFile => exact value (h.importArgument hc (hL rfl) (hfaults rfl))

/-- With one unit of fuel more, evaluators that matched match, but for sizes and faults. -/
theorem nearlyMatched_succ (hL : L.SharesImports) (fuel : Nat) :
    L.NearlyMatched
      ⟨ev₁.machine, fuel, fun form frame => ev₁.evaluateForm form frame,
        fun b args frame => ev₁.performBuiltin b args frame⟩
      ⟨ev₂.machine, fuel, fun form frame => ev₂.evaluateForm form frame,
        fun b args frame => ev₂.performBuiltin b args frame⟩ where
  machine := h.machine
  fuel := rfl
  evaluate hform hframe := h.evaluateForm hform hframe
  perform b _ _ hc := by
    have hraising : (L.raising b).Matched ev₁ ev₂ := h.withFaults fun f => .inl
    have hshares : (L.raising b).SharesImports := ⟨hL.imports_eq, hL.enter, hL.leave⟩
    exact hraising.performBuiltin b (fun _ => hshares) (fun hmay f => .inr hmay)
      ⟨hc.forms, hc.active⟩

end Matched

/-- Interpreters match at every amount of fuel, if the changes made to them match
evaluators that nearly match. -/
theorem matched_ofFuelWith (change₁ change₂ : Evaluator → Evaluator) (hL : L.SharesImports)
    (hmachine₁ : ∀ ev, (change₁ ev).machine = ev.machine)
    (hmachine₂ : ∀ ev, (change₂ ev).machine = ev.machine)
    (hchange : ∀ ev₁ ev₂, L.NearlyMatched ev₁ ev₂ → L.Matched (change₁ ev₁) (change₂ ev₂))
    (m : Machine) (fuel : Nat) :
    L.Matched (Evaluator.ofFuelWith change₁ m fuel) (Evaluator.ofFuelWith change₂ m fuel) := by
  induction fuel with
  | zero => exact hchange _ _ (nearlyMatched_zero m)
  | succ fuel ih =>
    -- The level below matches, and this level nearly; the change makes up for the difference.
    have hnear := ih.nearlyMatched_succ hL (fuel + 1)
    rw [Evaluator.machine_ofFuelWith hmachine₁, Evaluator.machine_ofFuelWith hmachine₂] at hnear
    exact hchange _ _ hnear

/-- The interpreter runs in lockstep with itself, if sizes are within the bounds and faults
allowed. -/
theorem matched_ofFuel (hL : L.SharesImports) (hsize : ∀ k : Nat, L.int k)
    (hpermissive : L.Permissive) (m : Machine) (fuel : Nat) :
    L.Matched (Evaluator.ofFuel m fuel) (Evaluator.ofFuel m fuel) := by
  rw [← Evaluator.ofFuelWith_id]
  exact matched_ofFuelWith id id hL (fun _ => rfl) (fun _ => rfl)
    (fun _ _ h => h.matched hsize hpermissive) m fuel

end Coupling

end SmallLisp
