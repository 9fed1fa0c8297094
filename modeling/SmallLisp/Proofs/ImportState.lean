import SmallLisp.Proofs.Lockstep.Invariant
import SmallLisp.Session

/-! # The import state of a run

However forms come to be evaluated, and however their evaluation ends, the files in
progress and the current file are afterwards what they were before. If the current
file is one of those in progress, it is so at the start of every evaluation on the
way: a run does not notice what evaluations would do in other worlds. -/

namespace SmallLisp

open EvalM

/-- The ways in which forms come to be evaluated in a frame. -/
inductive Task where
  | form (form : Value)
  | forms (forms : List Value)
  | source (source : String)
  | importing (text : String)
  | place (place : Place)

namespace Task

def run (task : Task) (ev : Evaluator) (frame : FrameId) : EvalM Value :=
  match task with
  | .form v => ev.evaluate v frame
  | .forms vs => ev.evaluateForms .nil vs frame
  | .source text => ev.evaluateText text frame
  | .importing text => ev.importFile text frame
  | .place p => ev.loadPlace p frame

/-- The forms that are at hand from the start. -/
def given : Task → List Value
  | .form v => [v]
  | .forms vs => vs
  | _ => []

end Task

theorem Coupling.Matched.task {L : Coupling} {n : Nat} {ev₁ ev₂ : Evaluator}
    (h : L.Matched ev₁ ev₂) (hL : L.SharesImports) (hpermissive : L.Permissive) (task : Task)
    (frame : FrameId) (hgiven : ∀ form ∈ task.given, L.AdmitsForm n form)
    (hframe : L.active n frame) :
    L.Lockstep n L.Admits (task.run ev₁ frame) (task.run ev₂ frame) := by
  cases task with
  | form v => exact h.evaluate (hgiven v (List.mem_singleton_self v)) hframe
  | forms vs => exact h.evaluateForms Bounds.admits_nil hgiven hframe
  | source text => exact h.evaluateText (fun f _ => hpermissive f) hframe
  | importing text => exact h.importFile hL hpermissive hframe
  | place p => exact h.loadPlace hL (fun _ f _ _ => hpermissive f) hframe

/-! ## Properties of the import state -/

/-- A property of the import state, which only loading could break. -/
def importInvariant (P : Option ImportState → Prop) : Invariant where
  toBounds := .all
  holds w := P w.imports
  active _ _ := True
  active_mono _ _ := trivial
  captured_of_active _ := trivial
  aside change h := by cases change <;> exact h
  makeChild h := h
  active_child _ := trivial
  change _ _ h _ := h
  overwrite _ h _ := h

theorem sharesImports_importInvariant {P : Option ImportState → Prop}
    (hP : ∀ state file, P (some state) → P (some (state.entered file))) :
    (importInvariant P).SharesImports where
  enter file h hstate := hP _ file (by rw [← hstate]; exact h)
  leave h _ := h

/-- The current file, if there is one, is in progress. -/
def ImportState.anchored (state : ImportState) : Bool :=
  match state.current with
  | none => true
  | some file => file ∈ state.inProgress

def World.anchored (w : World) : Bool := w.imports.all ImportState.anchored

theorem ImportState.anchored_entered (state : ImportState) (file : Path) :
    (state.entered file).anchored = true :=
  decide_eq_true List.mem_cons_self

/-! ## Evaluations under guard -/

/-- The evaluator that does something else in worlds that are not safe. -/
def Evaluator.guarded (safe : World → Bool) (trap : Value → FrameId → EvalM Value)
    (ev : Evaluator) : Evaluator :=
  { ev with evaluate := fun form frame w =>
      if safe w then ev.evaluate form frame w else trap form frame w }

/-- Where an invariant makes all worlds safe, the guard changes nothing. -/
theorem Coupling.NearlyMatched.guarded {I : Invariant} {safe : World → Bool}
    (hsafe : ∀ w, I.holds w → safe w = true) (trap : Value → FrameId → EvalM Value)
    (hsize : ∀ k : Nat, I.int k) {ev₁ ev₂ : Evaluator} (h : I.coupling.NearlyMatched ev₁ ev₂) :
    I.coupling.Matched (ev₁.guarded safe trap) ev₂ where
  machine := h.machine
  fuel := h.fuel
  evaluate hform hframe := by
    intro w₁ w₂ hw hn
    have hrun := h.evaluate hform hframe w₁ w₂ hw hn
    simp only [Evaluator.guarded, hsafe w₁ hw.worlds.2, if_true]
    exact hrun
  perform := (h.matched hsize I.permissive).perform

namespace Task

variable (task : Task) (m : Machine) (fuel : Nat) (frame : FrameId) {w : World}

theorem admitsForm_given (n : Nat) : ∀ form ∈ task.given, Bounds.all.AdmitsForm n form :=
  fun form _ => Bounds.admitsForm_all form

/-- A run leaves the import state as it was, and takes no frame away. -/
theorem after_run :
    (worldAfter (task.run (.ofFuel m fuel) frame) w).imports = w.imports ∧
      w.size ≤ (worldAfter (task.run (.ofFuel m fuel) frame) w).size := by
  have hL := (sharesImports_importInvariant (P := fun _ => True) fun _ _ _ => trivial).coupling
  have hmatched := Coupling.matched_ofFuel hL (fun _ => trivial) (Invariant.permissive _) m fuel
  have hrun := hmatched.task hL (Invariant.permissive _) task frame (task.admitsForm_given w.size)
    trivial
  have hafter := Invariant.after hrun (w := w) trivial (Bounds.admitsStore_all _) rfl
  exact ⟨hafter.imports_left, hafter.size_le⟩

/-- What evaluations would do in worlds whose current file is not in progress is never
asked, if the run does not start in such a world. -/
theorem run_guarded (hanchored : w.anchored = true) (trap : Value → FrameId → EvalM Value) :
    task.run (.ofFuelWith (.guarded World.anchored trap) m fuel) frame w =
      task.run (.ofFuel m fuel) frame w := by
  have hL := (sharesImports_importInvariant (P := fun s => s.all ImportState.anchored)
    fun state file _ => state.anchored_entered file).coupling
  have hmatched := Coupling.matched_ofFuelWith (.guarded World.anchored trap) id hL
    (fun _ => rfl) (fun _ => rfl)
    (fun _ _ h => h.guarded (fun _ hw => hw) trap fun _ => trivial) m fuel
  rw [Evaluator.ofFuelWith_id] at hmatched
  have hrun := hmatched.task hL (Invariant.permissive _) task frame (task.admitsForm_given w.size)
    trivial
  exact Invariant.run_eq hrun hanchored (Bounds.admitsStore_all _) rfl

end Task

/-- However a run ends, its import state is what it was. If the current file was in
progress, every evaluation within the run starts in a world where it is. -/
theorem Task.imports_run (task : Task) (m : Machine) (fuel : Nat) (frame : FrameId) (w : World) :
    (worldAfter (task.run (.ofFuel m fuel) frame) w).imports = w.imports ∧
      (w.anchored = true → ∀ trap : Value → FrameId → EvalM Value,
        task.run (.ofFuelWith (.guarded World.anchored trap) m fuel) frame w =
          task.run (.ofFuel m fuel) frame w) := by
  constructor
  · exact (task.after_run m fuel frame).1
  · intro hanchored trap
    exact task.run_guarded m fuel frame hanchored trap

/-- A directory with one file, which imports itself. -/
def selfImport : Machine where
  files := ⟨.directory [("a.ssli", .file "(import \"a\")".toUTF8.toList)], []⟩
  environment := []
  users := []

/-- Although the file is met again while it is current, nothing is evaluated in a world
whose current file is not in progress. -/
theorem Task.imports_run_selfImport :
    (World.fresh ⟨[], false⟩).anchored = true ∧
      (Task.importing "a").run
          (.ofFuelWith (.guarded World.anchored fun _ _ => stop .outOfFuel) selfImport 9)
          Store.root (World.fresh ⟨[], false⟩) =
        (Task.importing "a").run (.ofFuel selfImport 9) Store.root (World.fresh ⟨[], false⟩) := by
  have hanchored : (World.fresh ⟨[], false⟩).anchored = true := rfl
  have hrun := (Task.imports_run (.importing "a") selfImport 9 Store.root
    (World.fresh ⟨[], false⟩)).2 hanchored fun _ _ => stop .outOfFuel
  exact ⟨hanchored, hrun⟩

end SmallLisp
