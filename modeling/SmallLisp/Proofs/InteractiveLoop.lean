import SmallLisp.Interactive
import SmallLisp.Proofs.FrameEffects
import SmallLisp.Proofs.Hazards
import SmallLisp.Proofs.Reading.Pieces
import Mathlib.Logic.Relation

/-! # The interactive loop

The loop goes on after every line that has a value and after every line that ends in an
error of the language: it reports the error and takes the next line in the world that the
line left. It stops at the end of the input, at an interruption and at an exit. Nothing
else should stop it, but a line does that meets a hazard. -/

namespace SmallLisp

open EvalM Number Relation

namespace EvalM

variable {α β : Type} {x : EvalM α} {f : α → EvalM β} {w : World} {s : Stop}

end EvalM

/-! ## Input -/

namespace Input

end Input

namespace World

def wrote (w : World) (text : String) : World :=
  { w with journal := w.journal.push (.wrote text) }

def reported (w : World) (text : String) : World :=
  { w with journal := w.journal.push (.reported text) }

end World

/-! ## The loop -/

namespace Interactive

variable {m : Machine} {fuel : Nat} {w u : World}

/-- A line without integers of too many digits whose evaluation meets no hazard: it is the
same, whatever procedures do at hazards. -/
structure Safe (m : Machine) (fuel : Nat) (line : List Char) (w : World) : Prop where
  digits : ∀ token ∈ Reading.tokens line, exceedsDigitLimit token = false
  averts : ∀ trap : Builtin → List Value → FrameId → EvalM Value,
    (Evaluator.averting trap m fuel).evaluateText (String.ofList line) Store.root w =
      (Evaluator.ofFuel m fuel).evaluateText (String.ofList line) Store.root w

/-- A safe line fails outside the language only if it interrupts the input. -/
theorem Safe.interrupted {line : List Char} {f : HostFault} (h : Safe m fuel line w)
    (hw : Bounds.native.AdmitsStore w.store)
    (hrun : (Evaluator.ofFuel m fuel).evaluateText (String.ofList line) Store.root w =
      .error (.fault f) u) : f = .interrupted := by
  rw [← h.averts fun _ _ _ => fail .overflow] at hrun
  have hread : ∀ f, Reading.read (String.ofList line) = .error (.fault f) →
      soundCoupling.faults f := by
    intro f hf
    obtain ⟨token, htoken, hlong⟩ := Reading.exceedsDigitLimit_of_read hf
    rw [String.toList_ofList] at htoken
    rw [h.digits token htoken] at hlong
    cases hlong
  have hrunning : soundCoupling.Lockstep w.size _
      ((Evaluator.averting (fun _ _ _ => fail .overflow) m fuel).evaluateText (String.ofList line)
        Store.root) _ :=
    (matched_averting .overflow m fuel).evaluateText hread trivial
  exact hrunning.interrupted ⟨⟨rfl, trivial⟩, hw⟩ rfl hrun

end Interactive

/-! ## Remainders -/

section

variable {m : Machine} {fuel : Nat} {x y : Binary64}

end

/-! ## Sessions -/

namespace Interactive

end Interactive

end SmallLisp
