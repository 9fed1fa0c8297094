import SmallLisp.Proofs.FrameEffects
import SmallLisp.Proofs.Lockstep.Bounded

/-! # Settled values

In a session with the built-in procedures, no symbol passes for a value, and integers
stay in range: this holds of every value that a source gives and of every variable in
every frame, whether the sources before it came to their ends or not. Only sizes could
leave the range, so the sessions considered are those that never see such a size. -/

namespace SmallLisp

open EvalM Number

namespace Value

mutual

/-- At any depth of lists, there are no symbols and no integers out of range. -/
def Settled : Value → Prop
  | int n => inRange n = true
  | symbol _ => False
  | list items => SettledAll items
  | _ => True

def SettledAll : List Value → Prop
  | [] => True
  | v :: vs => Settled v ∧ SettledAll vs

end

/-- An integer is in range; other values have no size to speak of. -/
def fits : Value → Bool
  | int n => inRange n
  | _ => true

end Value

/-! ## Bounds -/

namespace Bounds

/-- Integers in range, no symbols as values, and no procedures from outside. -/
def settled : Bounds where
  int k := inRange k = true
  symbols := False
  hosts := False
  captured _ _ := True
  int_of_inRange h := h
  int_between {a b k} ha hb hlow hhigh := by
    simp only [inRange, Bool.and_eq_true, decide_eq_true_eq] at ha hb ⊢
    exact ⟨Int.le_trans ha.1 hlow, Int.le_trans hhigh hb.2⟩
  symbols_of_hosts h := h
  int_of_hosts h := h.elim
  captured_mono _ _ := trivial
  captured_of_lt _ _ := trivial

variable {n : Nat}

mutual

theorem settled_of_admitsForm : ∀ {v : Value}, settled.AdmitsForm n v → v.SymbolFree → v.Settled
  | .int _, h, _ => h
  | .symbol _, _, hfree => hfree
  | .list _, h, hfree => settledAll_of_admitsForms h hfree
  | .nil, _, _ | .bool _, _, _ | .float _, _, _ | .string _, _, _ | .builtin _, _, _
  | .host _, _, _ | .closure .., _, _ => trivial

theorem settledAll_of_admitsForms : ∀ {vs : List Value}, settled.AdmitsForms n vs →
    Value.SymbolFreeAll vs → Value.SettledAll vs
  | [], _, _ => trivial
  | _ :: _, h, hfree =>
    ⟨settled_of_admitsForm h.1 hfree.1, settledAll_of_admitsForms h.2 hfree.2⟩

end

theorem settled_of_admits {v : Value} (h : settled.Admits n v) : v.Settled :=
  settled_of_admitsForm h.1 (h.2.resolve_left not_false)

end Bounds

/-- The bounds on values, in all frames alike. -/
def settledInvariant : Invariant := Bounds.settled.everywhere fun _ _ => trivial

theorem sharesImports_settledInvariant : settledInvariant.SharesImports :=
  Bounds.sharesImports_everywhere fun _ _ => trivial

/-! ## Sizes -/

/-- The evaluator that stops at a size out of range. -/
def Evaluator.sizeLimited (ev : Evaluator) : Evaluator :=
  { ev with perform := fun b args frame => do
      let v ← ev.perform b args frame
      if b.measures && !v.fits then stop (.fault .outOfMemory) else pure v }

theorem Coupling.NearlyMatched.sizeLimited {ev₁ ev₂ : Evaluator}
    (h : settledInvariant.coupling.NearlyMatched ev₁ ev₂) :
    settledInvariant.coupling.Matched ev₁.sizeLimited ev₂.sizeLimited where
  machine := h.machine
  fuel := h.fuel
  evaluate := h.evaluate
  perform b _ _ hargs hframe := by
    have hperform := (h.perform b ⟨hargs, hframe⟩).of_raising (Invariant.permissive _)
    refine hperform.bind fun v m _ hv => ?_
    split
    · exact .stop (s := .fault _) trivial
    · next hfits =>
      refine .pure ?_
      rcases hv with hv | ⟨hmeasures, k, rfl⟩
      · exact hv
      · rw [hmeasures, Bool.true_and, Bool.not_eq_true, Bool.not_eq_false'] at hfits
        exact Bounds.admits_int.2 hfits

theorem matched_sizeLimited (m : Machine) (fuel : Nat) :
    settledInvariant.coupling.Matched (.ofFuelWith .sizeLimited m fuel)
      (.ofFuelWith .sizeLimited m fuel) :=
  Coupling.matched_ofFuelWith .sizeLimited .sizeLimited sharesImports_settledInvariant.coupling
    (fun _ => rfl) (fun _ => rfl) (fun _ _ h => h.sizeLimited) m fuel

/-! ## Sessions -/

/-- A source that a session evaluates in its root frame. -/
inductive Source where
  | text (source : String)
  | file (path : String)

def Source.run (source : Source) (ev : Evaluator) : EvalM Value :=
  match source with
  | .text source => ev.evaluateText source Store.root
  | .file path => ev.evaluateFile path

/-- A source, the machine that it meets, and the fuel that its evaluation has. -/
structure Turn where
  source : Source
  machine : Machine
  fuel : Nat

/-- What the turns of a session give or stop at, each with the world that it leaves. -/
def transcript (interpreter : Machine → Nat → Evaluator) :
    List Turn → World → List (Except Stop Value × World)
  | [], _ => []
  | turn :: turns, w =>
    let run := turn.source.run (interpreter turn.machine turn.fuel)
    (outcome run w, worldAfter run w) :: transcript interpreter turns (worldAfter run w)

namespace Coupling

variable {L : Coupling} {n : Nat} {ev₁ ev₂ : Evaluator}

theorem Matched.evaluateFile (h : L.Matched ev₁ ev₂) (hL : L.SharesImports)
    (hpermissive : L.Permissive) (path : String) (hroot : L.active n Store.root) :
    L.Lockstep n L.Admits (ev₁.evaluateFile path) (ev₂.evaluateFile path) := by
  unfold Evaluator.evaluateFile Evaluator.filePlace
  rw [h.machine]
  split
  · exact .stop (hpermissive.allows _)
  · refine (Lockstep.note _).bind fun _ m hm _ => ?_
    exact h.loadPlace hL (fun _ f _ _ => hpermissive f) (L.active_mono hm hroot)

theorem Matched.source (h : L.Matched ev₁ ev₂) (hL : L.SharesImports) (hpermissive : L.Permissive)
    (source : Source) (hroot : L.active n Store.root) :
    L.Lockstep n L.Admits (source.run ev₁) (source.run ev₂) := by
  cases source with
  | text source => exact h.evaluateText (fun f _ => hpermissive f) hroot
  | file path => exact h.evaluateFile hL hpermissive path hroot

end Coupling

/-- All values that variables are bound to are settled. -/
def Store.Settled (s : Store) : Prop :=
  ∀ (f : FrameId) (frame : Frame), s.frames[f]? = some frame →
    ∀ entry ∈ frame.vars.entries, entry.2.Settled

theorem Store.settled_of_admitsStore {s : Store} (h : Bounds.settled.AdmitsStore s) :
    s.Settled :=
  fun f frame hframe entry he => Bounds.settled_of_admits ((h f frame trivial hframe).vars entry he)

theorem transcript_sizeLimited_settled (turns : List Turn) {w : World}
    (hw : Bounds.settled.AdmitsStore w.store) :
    ∀ entry ∈ transcript (Evaluator.ofFuelWith .sizeLimited) turns w,
      (∀ v, entry.1 = .ok v → v.Settled) ∧ entry.2.store.Settled := by
  induction turns generalizing w with
  | nil => exact fun _ h => absurd h List.not_mem_nil
  | cons turn turns ih =>
    have hrun := (matched_sizeLimited turn.machine turn.fuel).source (n := w.size)
      sharesImports_settledInvariant.coupling (Invariant.permissive _) turn.source trivial
    -- The turn may end in an error: the bounds on the store still pass on to the next one.
    have hheld : settledInvariant.coupling.Held w w := ⟨⟨rfl, trivial⟩, hw⟩
    have hafter := (hrun.after hheld rfl).held.store
    intro entry he
    rcases List.mem_cons.1 he with rfl | he
    · refine ⟨fun v hv => ?_, Store.settled_of_admitsStore hafter⟩
      exact Bounds.settled_of_admits (hrun.result hheld rfl hv)
    · exact ih hafter entry he

/-- As long as no size is out of range, every value that a session gives is settled, and
after every source so are all variables in all frames. -/
theorem transcript_settled (turns : List Turn) (input : Input) (draws : Nat → Draw)
    (hsizes : transcript (Evaluator.ofFuelWith .sizeLimited) turns
        { World.fresh input with draws } =
      transcript Evaluator.ofFuel turns { World.fresh input with draws }) :
    ∀ entry ∈ transcript Evaluator.ofFuel turns { World.fresh input with draws },
      (∀ v, entry.1 = .ok v → v.Settled) ∧ entry.2.store.Settled := by
  rw [← hsizes]
  exact transcript_sizeLimited_settled turns
    (Bounds.admitsStore_fresh (fun _ _ => trivial) input)

/-- The greatest integer is stored, cannot be added to, is counted in a list, and may be
drawn. -/
def greatestSession : List Turn :=
  [⟨.text "(def x 9223372036854775807)", .bare, 6⟩, ⟨.text "(+ x 1)", .bare, 6⟩,
    ⟨.text "(list.len (1 x))", .bare, 6⟩, ⟨.text "(def y (rnd.int 1 x))", .bare, 6⟩]

/-- Every draw between 1 and the greatest integer gives the greatest integer. -/
def greatestDraws : Nat → Draw := fun _ => .counting 9223372036854775806

set_option maxRecDepth 20000 in
/-- The size is in range, so what the session gives and stores is settled. -/
theorem transcript_settled_greatest :
    let start := { World.fresh ⟨[], false⟩ with draws := greatestDraws }
    transcript (Evaluator.ofFuelWith .sizeLimited) greatestSession start =
        transcript Evaluator.ofFuel greatestSession start ∧
      ∀ entry ∈ transcript Evaluator.ofFuel greatestSession start,
        (∀ v, entry.1 = .ok v → v.Settled) ∧ entry.2.store.Settled := by
  intro start
  have hsizes : transcript (Evaluator.ofFuelWith .sizeLimited) greatestSession start =
      transcript Evaluator.ofFuel greatestSession start := by cbv
  exact ⟨hsizes, transcript_settled greatestSession ⟨[], false⟩ greatestDraws hsizes⟩

end SmallLisp
