import SmallLisp.Proofs.Bounds.Reach
import SmallLisp.Proofs.Lockstep.Interpreter

/-! # Invariants of runs

A property of single worlds that every step keeps is an invariant: two runs that start
in one world where it holds and are in lockstep end in one world where it holds again. -/

namespace SmallLisp

open EvalM

/-- Properties of worlds that the steps of a run keep. In some frames, names may be bound
and forms evaluated; in others, only the variables that are there may be changed. -/
structure Invariant extends Bounds where
  holds : World → Prop
  active : Nat → FrameId → Prop
  active_mono : ∀ {n m : Nat} {f : FrameId}, n ≤ m → active n f → active m f
  captured_of_active : ∀ {n : Nat} {f : FrameId}, active n f → captured n f
  aside : ∀ {w : World} (change : Aside), holds w → holds (change.apply w)
  makeChild : ∀ {w : World} {outer : FrameId}, holds w →
    holds (w.onStore fun s => (s.makeChild outer).2)
  active_child : ∀ {w : World}, holds w → active (w.size + 1) w.size
  change : ∀ {w : World} {α : Type} {f : FrameId} (ns : Namespace α) (op : Table α → Table α),
    holds w → active w.size f → holds (w.onStore (·.change ns f op))
  overwrite : ∀ {w : World} {f : FrameId} {name : String} (v : Value), holds w →
    (w.store.table .vars f).contains name = true → holds (w.onStore (·.set .vars f name v))

namespace Invariant

variable (I : Invariant)

/-- A world where the invariant holds is held against itself. -/
def coupling : Coupling where
  toBounds := I.toBounds
  worlds w₁ w₂ := w₁ = w₂ ∧ I.holds w₁
  active := I.active
  active_mono := I.active_mono
  captured_of_active := I.captured_of_active
  faults _ := True
  faults_of_hosts _ _ := trivial
  size_eq h := by rw [h.1]
  nextId_eq h := by rw [h.1]
  input_eq h := by rw [h.1]
  draws_eq h := by rw [h.1]
  frames_eq h _ := by rw [h.1]
  aside change h := ⟨by rw [h.1], I.aside change h.2⟩
  makeChild h _ := ⟨by rw [h.1], I.makeChild h.2⟩
  active_child h := I.active_child h.2
  set name v h hf := ⟨by rw [h.1], I.change .vars (·.set name v) h.2 hf⟩
  overwrite v h _ hin := ⟨by rw [h.1], I.overwrite v h.2 hin⟩
  erase name h hf := ⟨by rw [h.1], I.change .vars (·.erase name) h.2 hf⟩
  define name p h hf := ⟨by rw [h.1], I.change .procs (·.set name p) h.2 hf⟩

theorem permissive : I.coupling.Permissive := fun _ => trivial

variable {I}

/-- The invariant holds on as files are entered and left. -/
structure SharesImports (I : Invariant) : Prop where
  enter : ∀ {w : World} {state : ImportState} (file : Path), I.holds w →
    w.imports = some state → I.holds (w.importing (state.entered file))
  leave : ∀ {w w' : World}, I.holds w → I.holds w' → I.holds (w'.importing w.imports)

theorem SharesImports.coupling (h : I.SharesImports) : I.coupling.SharesImports where
  imports_eq hw := by rw [hw.1]
  enter file hw hstate := ⟨by rw [hw.1], h.enter file hw.2 hstate⟩
  leave hw hw' := ⟨by rw [hw'.1], h.leave hw.2 hw'.2⟩

variable {α : Type} {n : Nat} {Q : Nat → α → Prop} {x y : EvalM α} {w : World}

/-- Runs in lockstep from a world where the invariant holds are the same run. -/
theorem run_eq (h : I.coupling.Lockstep n Q x y) (hw : I.holds w) (hs : I.AdmitsStore w.store)
    (hn : w.size = n) : x w = y w :=
  have hheld : I.coupling.Held w w := ⟨⟨rfl, hw⟩, hs⟩
  EvalM.run_eq (h.outcome_eq hheld hn) (h.after hheld hn).held.worlds.1

theorem after (h : I.coupling.Lockstep n Q x y) (hw : I.holds w) (hs : I.AdmitsStore w.store)
    (hn : w.size = n) : I.coupling.After w w (worldAfter x w) (worldAfter y w) :=
  Coupling.Lockstep.after h ⟨⟨rfl, hw⟩, hs⟩ hn

end Invariant

end SmallLisp
