import SmallLisp.Loading
import SmallLisp.Proofs.Bounds.Reading
import SmallLisp.Proofs.Lockstep.Evaluation

/-! # Loading in lockstep

Where both worlds have the same import state, sources are loaded in lockstep: they
are found at the same places, and what is read from them is within all bounds. A
file that is entered is left again, however the evaluation of its forms ends. -/

namespace SmallLisp

open EvalM

def World.importing (w : World) (imports : Option ImportState) : World := { w with imports }

/-- The import state while a file is loaded. -/
def ImportState.entered (state : ImportState) (file : Path) : ImportState :=
  ⟨file :: state.inProgress, some file⟩

namespace Coupling

variable {L : Coupling} {n : Nat} {ev₁ ev₂ : Evaluator}

/-- The worlds have the same import state, and stay held against each other when a file
is entered and left. -/
structure SharesImports (L : Coupling) : Prop where
  imports_eq : ∀ {w₁ w₂ : World}, L.worlds w₁ w₂ → w₁.imports = w₂.imports
  enter : ∀ {w₁ w₂ : World} {state : ImportState} (file : Path), L.worlds w₁ w₂ →
    w₁.imports = some state →
    L.worlds (w₁.importing (state.entered file)) (w₂.importing (state.entered file))
  leave : ∀ {w₁ w₂ w₁' w₂' : World}, L.worlds w₁ w₂ → L.worlds w₁' w₂' →
    L.worlds (w₁'.importing w₁.imports) (w₂'.importing w₁.imports)

namespace Lockstep

variable {α : Type}

/-- However the body ends, the import state is again what it was. -/
theorem whileLoading (hL : L.SharesImports) {file : Path} {state : ImportState}
    {Q : Nat → α → Prop} {x y : EvalM α} (h : L.Lockstep n Q x y) {w₁ w₂ : World}
    (hw : L.Held w₁ w₂) (hn : w₁.size = n) (hstate : w₁.imports = some state) :
    L.Ends w₁ w₂ Q (SmallLisp.whileLoading file state x w₁)
      (SmallLisp.whileLoading file state y w₂) := by
  have hentered : L.Held (w₁.importing (state.entered file)) (w₂.importing (state.entered file)) :=
    ⟨hL.enter file hw.worlds hstate, hw.store⟩
  -- By lockstep the body leaves the import state as it found it, so only the file that was
  -- entered has to be taken off again.
  have hleave : ∀ w : World, w.imports = some (state.entered file) →
      { w with imports := w.imports.map fun s => ⟨s.inProgress.erase file, state.current⟩ } =
        w.importing w₁.imports := by
    intro w hw
    simp only [World.importing, hw, hstate, ImportState.entered, Option.map_some,
      List.erase_cons_head]
  have heq := hL.imports_eq hw.worlds
  have hafter : ∀ u₁ u₂ : World,
      L.After (w₁.importing (state.entered file)) (w₂.importing (state.entered file)) u₁ u₂ →
      L.After w₁ w₂ (u₁.importing w₁.imports) (u₂.importing w₁.imports) := fun u₁ u₂ hu =>
    ⟨⟨hL.leave hw.worlds hu.held.worlds, hu.held.store⟩, hu.size_le, rfl, heq⟩
  have hrun := h _ _ hentered hn
  simp only [World.importing, ImportState.entered] at hrun
  unfold SmallLisp.whileLoading
  revert hrun
  generalize x _ = r₁, y _ = r₂
  intro hrun
  cases hrun with
  | ok result after =>
    simp only [hleave _ after.imports_left, hleave _ after.imports_right]
    exact .ok result (hafter _ _ after)
  | error allowed after =>
    simp only [hleave _ after.imports_left, hleave _ after.imports_right]
    exact .error allowed (hafter _ _ after)

end Lockstep

/-- The faults of an import before any form is evaluated: those of the search for the file,
and those of reading it. -/
inductive ImportFault (m : Machine) (imports : Option ImportState) (text : String)
    (f : HostFault) : Prop
  | search {state : ImportState} (hstate : imports = some state)
      (h : importPlace m state.current text = .error (.fault f)) : ImportFault m imports text f
  | reading {state : ImportState} {place : Place} {source : List Char}
      (hstate : imports = some state) (hplace : importPlace m state.current text = .ok place)
      (hsource : m.files.readText place = .ok source)
      (h : Reading.read (String.ofList source) = .error (.fault f)) : ImportFault m imports text f

namespace Matched

variable (h : L.Matched ev₁ ev₂)
include h

theorem evaluateText {source : String} {frame : FrameId}
    (hfaults : ∀ f, Reading.read source = .error (.fault f) → L.faults f)
    (hframe : L.active n frame) :
    L.Lockstep n L.Admits (ev₁.evaluateText source frame) (ev₂.evaluateText source frame) := by
  refine (Lockstep.ofOutcome (Q := fun m forms => ∀ form ∈ forms, L.AdmitsForm m form) hfaults
    fun forms hforms => Bounds.admitsForm_read hforms).bind fun forms m hm hforms => ?_
  exact h.evaluateForms Bounds.admits_nil hforms (L.active_mono hm hframe)

variable (hL : L.SharesImports)
include hL

theorem loadPlace {place : Place} {frame : FrameId}
    (hfaults : ∀ source f, ev₁.machine.files.readText place = .ok source →
      Reading.read (String.ofList source) = .error (.fault f) → L.faults f)
    (hframe : L.active n frame) :
    L.Lockstep n L.Admits (ev₁.loadPlace place frame) (ev₂.loadPlace place frame) := by
  refine .get fun w₁ w₂ hw hn => ?_
  rw [← hL.imports_eq hw.worlds, ← h.machine]
  cases hstate : w₁.imports with
  | none => exact Lockstep.fail _ w₁ w₂ hw hn
  | some state =>
    dsimp only
    split
    · exact Lockstep.fail _ w₁ w₂ hw hn
    · refine Lockstep.whileLoading hL ?_ hw hn hstate
      cases hsource : ev₁.machine.files.readText place with
      | error fault => exact .fail _
      | ok source => exact h.evaluateText (fun f => hfaults source f hsource) hframe

/-- Where the faults of an import are allowed, it ends alike in both worlds. -/
theorem importFile_ends {text : String} {frame : FrameId} (hframe : L.active n frame)
    {w₁ w₂ : World} (hw : L.Held w₁ w₂) (hn : w₁.size = n)
    (hfaults : ∀ f, ImportFault ev₁.machine w₁.imports text f → L.faults f) :
    L.Ends w₁ w₂ L.Admits (ev₁.importFile text frame w₁) (ev₂.importFile text frame w₂) := by
  refine Ends.get ?_
  rw [← hL.imports_eq hw.worlds, ← h.machine]
  cases hstate : w₁.imports with
  | none => exact Lockstep.fail _ w₁ w₂ hw hn
  | some state =>
    rw [hstate] at hfaults
    dsimp only
    cases hplace : importPlace ev₁.machine state.current text with
    | error s =>
      refine Lockstep.stop ?_ w₁ w₂ hw hn
      cases s with
      | fault f => exact hfaults f (.search rfl hplace)
      | _ => trivial
    | ok place =>
      refine ((Lockstep.note _).bind fun _ m hm _ => ?_) w₁ w₂ hw hn
      exact h.loadPlace hL (fun source f hsource hread => hfaults f
        (.reading rfl hplace hsource hread)) (L.active_mono hm hframe)

theorem importFile {text : String} {frame : FrameId} (hpermissive : L.Permissive)
    (hframe : L.active n frame) :
    L.Lockstep n L.Admits (ev₁.importFile text frame) (ev₂.importFile text frame) :=
  fun _ _ hw hn => h.importFile_ends hL hframe hw hn fun f _ => hpermissive f

end Matched

end Coupling

end SmallLisp
