import SmallLisp.Proofs.Lockstep.Invariant
import SmallLisp.Session

/-! # Runs within bounds

Where closures may hold all frames, bounds on values are an invariant by themselves. A new
session lies within all such bounds, for its procedures are built in and it has no variables. -/

namespace SmallLisp

open EvalM

namespace Coupling.Lockstep

variable {L : Coupling} {n : Nat} {frame : FrameId}

theorem defineNative {p : Function} (hframe : L.active n frame) (hp : L.Admits n p.toValue) :
    L.Lockstep n (fun _ _ => True) (SmallLisp.defineNative frame p)
      (SmallLisp.defineNative frame p) :=
  (note _).bind fun _ _ hm _ => defineProcedure (L.active_mono hm hframe) (hp.mono hm)

theorem defineAll {bs : List Builtin} (hframe : L.active n frame) :
    L.Lockstep n (fun _ _ => True) (SmallLisp.defineAll frame bs)
      (SmallLisp.defineAll frame bs) := by
  induction bs generalizing n with
  | nil => exact pure trivial
  | cons b bs ih =>
    refine (defineNative hframe (Bounds.admits_builtin b)).bind fun _ m hm _ => ?_
    exact ih (L.active_mono hm hframe)

end Coupling.Lockstep

namespace Bounds

/-- The bounds on values, in all frames alike. -/
def everywhere (B : Bounds) (hall : ∀ n f, B.captured n f) : Invariant where
  toBounds := B
  holds _ := True
  active _ _ := True
  active_mono _ _ := trivial
  captured_of_active _ := hall _ _
  aside _ _ := trivial
  makeChild _ := trivial
  active_child _ := trivial
  change _ _ _ _ := trivial
  overwrite _ _ _ := trivial

variable {B : Bounds}

theorem sharesImports_everywhere (hall : ∀ n f, B.captured n f) :
    (B.everywhere hall).SharesImports where
  enter _ _ _ := trivial
  leave _ _ := trivial

theorem admitsStore_fresh (hall : ∀ n f, B.captured n f) (input : Input) :
    B.AdmitsStore (World.fresh input).store := by
  have hbare : B.AdmitsStore Store.bare := by
    intro f frame _ hframe
    have hmem := Array.mem_of_getElem? hframe
    rw [Store.bare, List.mem_toArray, List.mem_singleton] at hmem
    subst hmem
    exact ⟨fun _ he => absurd he List.not_mem_nil, fun _ he => absurd he List.not_mem_nil,
      fun _ _ => hall _ _⟩
  have hrun : (B.everywhere hall).coupling.Lockstep 1 (fun _ _ => True) defineBuiltins
      defineBuiltins := .defineAll trivial
  exact (Invariant.after hrun (w := World.initial input) trivial hbare rfl).held.store

end Bounds

end SmallLisp
