import SmallLisp.Proofs.BindingEffects
import SmallLisp.Proofs.ImportState

/-! # Changes of worlds

All that a run does to a world is a sequence of changes of a few kinds. No change takes a
frame away or moves it, and a procedure stays what it is until it is defined anew in its
own frame. -/

namespace SmallLisp

open EvalM

/-- What one step of a run changes. -/
inductive Change where
  | aside (change : Aside)
  | imports (imports : Option ImportState)
  | child (outer : FrameId)
  | bind (f : FrameId) (name : String) (v : Value)
  | unbind (f : FrameId) (name : String)
  | define (f : FrameId) (name : String) (p : Function)

namespace Change

def apply : Change → World → World
  | aside change, w => change.apply w
  | imports state, w => w.importing state
  | child outer, w => w.onStore fun s => (s.makeChild outer).2
  | bind f name v, w => w.onStore (·.set .vars f name v)
  | unbind f name, w => w.onStore (·.erase .vars f name)
  | define f name p, w => w.onStore (·.set .procs f name p)

/-- The procedure is not defined anew in the frame. -/
def Spares (change : Change) (f : FrameId) (name : String) : Prop :=
  ∀ p, change ≠ define f name p

end Change

/-- A world becomes another by changes of which each has the property. -/
def World.Evolves (P : Change → Prop) : World → World → Prop :=
  Relation.ReflTransGen fun w t => ∃ change, P change ∧ t = change.apply w

/-! ## What changes keep -/

namespace Change

variable (change : Change) (w : World) {f : FrameId} {name : String}

theorem size_le : w.size ≤ (change.apply w).size := by
  cases change with
  | aside change => cases change <;> exact le_rfl
  | imports state => exact le_rfl
  | child outer => exact (Nat.le_succ w.size).trans_eq (w.size_onStore_makeChild outer).symm
  | bind f name v => exact (w.size_onStore_change .vars f _).ge
  | unbind f name => exact (w.size_onStore_change .vars f _).ge
  | define f name p => exact (w.size_onStore_change .procs f _).ge

theorem outer_eq (hf : f < w.size) :
    (change.apply w).store.frames[f]?.map Frame.outer = w.store.frames[f]?.map Frame.outer := by
  cases change with
  | aside change => cases change <;> rfl
  | imports state => rfl
  | child outer => exact congrArg _ (Store.frames_makeChild_of_lt hf outer)
  | bind g name v => exact Store.outer_change Namespace.apart_vars w.store g f _
  | unbind g name => exact Store.outer_change Namespace.apart_vars w.store g f _
  | define g name p => exact Store.outer_change Namespace.apart_procs w.store g f _

variable {change}

/-- A procedure stays what it is unless it is defined anew. -/
theorem procedure_eq (hspares : change.Spares f name) (hf : f < w.size) :
    ((change.apply w).store.table .procs f).get? name = (w.store.table .procs f).get? name := by
  cases change with
  | aside change => cases change <;> rfl
  | imports state => rfl
  | child outer =>
    have htable := Store.table_congr .procs (Store.frames_makeChild_of_lt hf outer)
    exact congrArg (Table.get? · name) htable
  | bind g other v =>
    have htable := Store.table_change_apart Namespace.apart_vars w.store g f (·.set other v)
    exact congrArg (Table.get? · name) htable
  | unbind g other =>
    have htable := Store.table_change_apart Namespace.apart_vars w.store g f (·.erase other)
    exact congrArg (Table.get? · name) htable
  | define g other p =>
    have hother : f ≠ g ∨ name ≠ other := by
      rw [← not_and_or]
      rintro ⟨rfl, rfl⟩
      exact hspares p rfl
    by_cases hg : g = f
    · subst hg
      exact (Store.writes_set Namespace.apart_procs hf p).spared g name hother
    · have htable : (w.store.set .procs g other p).table .procs f = w.store.table .procs f :=
        Store.table_change_of_ne _ hg
      exact congrArg (Table.get? · name) htable

end Change

namespace World.Evolves

variable {P : Change → Prop} {w t : World} {f : FrameId} {name : String}

theorem refl (w : World) : w.Evolves P w := Relation.ReflTransGen.refl

theorem step (h : w.Evolves P t) (change : Change) (hchange : P change) :
    w.Evolves P (change.apply t) :=
  Relation.ReflTransGen.tail h ⟨change, hchange, rfl⟩

theorem size_le (h : w.Evolves P t) : w.size ≤ t.size := by
  induction h with
  | refl => exact le_rfl
  | tail _ hstep ih =>
    obtain ⟨change, -, rfl⟩ := hstep
    exact ih.trans (change.size_le _)

theorem outer_eq (h : w.Evolves P t) (hf : f < w.size) :
    t.store.frames[f]?.map Frame.outer = w.store.frames[f]?.map Frame.outer := by
  induction h with
  | refl => rfl
  | tail hrun hstep ih =>
    obtain ⟨change, -, rfl⟩ := hstep
    exact (change.outer_eq _ (hf.trans_le (size_le hrun))).trans ih

theorem procedure_eq (h : w.Evolves P t) (hspares : ∀ change, P change → change.Spares f name)
    (hf : f < w.size) :
    (t.store.table .procs f).get? name = (w.store.table .procs f).get? name := by
  induction h with
  | refl => rfl
  | tail hrun hstep ih =>
    obtain ⟨change, hchange, rfl⟩ := hstep
    exact (Change.procedure_eq _ (hspares change hchange) (hf.trans_le (size_le hrun))).trans ih

end World.Evolves

/-! ## Runs as sequences of changes -/

/-- A world that the world `w` has become is held against itself. -/
def Coupling.evolving (w : World) : Coupling where
  toBounds := .all
  worlds w₁ w₂ := w₁ = w₂ ∧ w.Evolves (fun _ => True) w₁
  active _ _ := True
  active_mono _ _ := trivial
  captured_of_active _ := trivial
  faults _ := True
  faults_of_hosts _ _ := trivial
  size_eq h := by rw [h.1]
  nextId_eq h := by rw [h.1]
  input_eq h := by rw [h.1]
  draws_eq h := by rw [h.1]
  frames_eq h _ := by rw [h.1]
  aside change h := ⟨by rw [h.1], h.2.step (.aside change) trivial⟩
  makeChild h _ := ⟨by rw [h.1], h.2.step (.child _) trivial⟩
  active_child _ := trivial
  set name v h _ := ⟨by rw [h.1], h.2.step (.bind _ name v) trivial⟩
  overwrite v h _ _ := ⟨by rw [h.1], h.2.step (.bind _ _ v) trivial⟩
  erase name h _ := ⟨by rw [h.1], h.2.step (.unbind _ name) trivial⟩
  define name p h _ := ⟨by rw [h.1], h.2.step (.define _ name p) trivial⟩

theorem Coupling.sharesImports_evolving (w : World) : (Coupling.evolving w).SharesImports where
  imports_eq h := by rw [h.1]
  enter file h _ := ⟨by rw [h.1], h.2.step (.imports _) trivial⟩
  leave _ h := ⟨by rw [h.1], h.2.step (.imports _) trivial⟩

/-- However a run ends, it has made nothing but changes of these kinds. -/
theorem Task.evolves_run (task : Task) (m : Machine) (fuel : Nat) (frame : FrameId) (w : World) :
    w.Evolves (fun _ => True) (worldAfter (task.run (.ofFuel m fuel) frame) w) := by
  have hL := Coupling.sharesImports_evolving w
  have hmatched := Coupling.matched_ofFuel hL (fun _ => trivial) (fun _ => trivial) m fuel
  have hrun := hmatched.task hL (fun _ => trivial) task frame (task.admitsForm_given w.size) trivial
  have hheld : (Coupling.evolving w).Held w w := ⟨⟨rfl, .refl w⟩, Bounds.admitsStore_all _⟩
  exact (hrun.after hheld rfl).held.worlds.2

end SmallLisp
