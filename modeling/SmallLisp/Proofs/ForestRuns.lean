import SmallLisp.Proofs.Forests
import SmallLisp.Proofs.SettledValues

/-! # Sessions in forests

A session starts with a single frame, and makes frames only inside frames that are
there. However its evaluations end, and at every evaluation within them, the frames
form a forest, and closures hold only frames that are there. -/

namespace SmallLisp

open EvalM

/-! ## Bounds -/

namespace Bounds

/-- The only bound is that closures hold frames that are there. -/
def existing : Bounds where
  int _ := True
  symbols := True
  hosts := True
  captured n f := f < n
  int_of_inRange _ := trivial
  int_between _ _ _ _ := trivial
  symbols_of_hosts _ := trivial
  int_of_hosts _ _ := trivial
  captured_mono hnm h := h.trans_le hnm
  captured_of_lt h _ := h

variable {n : Nat}

mutual

theorem admitsForm_existing_iff : ∀ {v : Value},
    existing.AdmitsForm n v ↔ ∀ f ∈ v.captured, f < n
  | .list _ => admitsForms_existing_iff
  | .closure .. =>
    (and_congr_left' admitsForm_existing_iff).trans (and_comm.trans List.forall_mem_cons.symm)
  | .int _ | .host _ | .nil | .bool _ | .float _ | .string _ | .symbol _ | .builtin _ =>
    ⟨fun _ _ hf => absurd hf List.not_mem_nil, fun _ => trivial⟩

theorem admitsForms_existing_iff : ∀ {vs : List Value},
    existing.AdmitsForms n vs ↔ ∀ f ∈ Value.capturedAll vs, f < n
  | [] => ⟨fun _ _ hf => absurd hf List.not_mem_nil, fun _ => trivial⟩
  | _ :: _ =>
    (and_congr admitsForm_existing_iff admitsForms_existing_iff).trans
      List.forall_mem_append.symm

end

theorem admits_existing_iff {v : Value} : existing.Admits n v ↔ ∀ f ∈ v.captured, f < n :=
  (and_iff_left (Or.inl trivial)).trans admitsForm_existing_iff

theorem forall_admits_existing_iff {β : Type} {entries : List β} {value : β → Value} :
    (∀ entry ∈ entries, existing.Admits n (value entry)) ↔
      ∀ g ∈ Value.capturedAll (entries.map value), g < n := by
  rw [← admitsForms_existing_iff, admitsForms_iff, List.forall_mem_map]
  exact forall₂_congr fun _ _ => and_iff_left (Or.inl trivial)

theorem admitsFrame_existing_iff {frame : Frame} :
    existing.AdmitsFrame n frame ↔ ∀ g ∈ frame.links, g < n := by
  simp only [Frame.links, List.forall_mem_append, ← forall_admits_existing_iff,
    Option.mem_toList]
  constructor
  · intro h
    exact ⟨⟨h.outer, h.vars⟩, h.procs⟩
  · rintro ⟨⟨houter, hvars⟩, hprocs⟩
    exact ⟨hvars, hprocs, houter⟩

end Bounds

/-! ## Runs in forests -/

/-- A world whose frames form a forest that has grown out of the store `s` is held against
itself. Forms are evaluated in frames that are there. -/
def Coupling.linkedFrom (s : Store) : Coupling where
  toBounds := .existing
  worlds w₁ w₂ := w₁ = w₂ ∧ w₁.store.LinkedFrom s
  active n f := f < n
  active_mono hnm h := h.trans_le hnm
  captured_of_active h := h
  faults _ := True
  faults_of_hosts _ _ := trivial
  size_eq h := by rw [h.1]
  nextId_eq h := by rw [h.1]
  input_eq h := by rw [h.1]
  draws_eq h := by rw [h.1]
  frames_eq h _ := by rw [h.1]
  aside change h := ⟨by rw [h.1], by cases change <;> exact h.2⟩
  makeChild h houter := ⟨by rw [h.1], h.2.makeChild houter⟩
  active_child _ := Nat.lt_succ_self _
  set name v h _ := ⟨by rw [h.1], h.2.change Namespace.apart_vars _ (·.set name v)⟩
  overwrite v h _ _ := ⟨by rw [h.1], h.2.change Namespace.apart_vars _ (·.set _ v)⟩
  erase name h _ := ⟨by rw [h.1], h.2.change Namespace.apart_vars _ (·.erase name)⟩
  define name p h _ := ⟨by rw [h.1], h.2.change Namespace.apart_procs _ (·.set name p)⟩

/-- The computation starts in a frame of a forest and leaves a forest that has grown out of
it. The value that it gives, if any, holds only frames that are there by then. -/
structure EvalM.KeepsForest (x : EvalM Value) (frame : FrameId) (w : World) : Prop where
  before : w.store.IsForest
  frame_lt : frame < w.size
  after : (worldAfter x w).store.IsForest
  grown : (worldAfter x w).store.Extends w.store
  value : ∀ v, outcome x w = .ok v → ∀ f ∈ v.captured, f < (worldAfter x w).size

open Classical in
/-- The computation, but a trap where it does not keep the forest. -/
noncomputable def EvalM.watched (x : EvalM Value) (frame : FrameId) (trap : EvalM Value) :
    EvalM Value := fun w =>
  if x.KeepsForest frame w then x w else trap w

/-- The evaluator with a trap wherever the evaluation of a form, or the performance of a
built-in procedure, does not keep the forest. -/
noncomputable def Evaluator.watched (trap : EvalM Value) (ev : Evaluator) : Evaluator :=
  { ev with
    evaluate := fun form frame => (ev.evaluate form frame).watched frame trap
    perform := fun b args frame => (ev.perform b args frame).watched frame trap }

namespace Coupling

variable {n : Nat} {s : Store} {w₁ w₂ : World} {frame : FrameId} {x y : EvalM Value}

theorem permissive_linkedFrom (s : Store) : (linkedFrom s).Permissive := fun _ => trivial

theorem sharesImports_linkedFrom (s : Store) : (linkedFrom s).SharesImports where
  imports_eq h := by rw [h.1]
  enter file h _ := ⟨by rw [h.1], h.2⟩
  leave _ h := ⟨by rw [h.1], h.2⟩

theorem Held.isForest (h : (linkedFrom s).Held w₁ w₂) : w₁.store.IsForest where
  toLinked := h.worlds.2.toLinked
  links f frame hframe :=
    have hf := (Array.getElem?_eq_some_iff.1 hframe).1
    Bounds.admitsFrame_existing_iff.1 (h.store f frame hf hframe)

theorem held_of_isForest {w : World} (h : w.store.IsForest) :
    (linkedFrom w.store).Held w w where
  worlds := ⟨rfl, .refl h.toLinked⟩
  store f frame _ hframe := Bounds.admitsFrame_existing_iff.2 (h.links f frame hframe)

/-- To know how a run has grown out of the world where it starts, it is compared with that
very world. -/
theorem keepsForest_of_lockstep
    (h : ∀ s, (linkedFrom s).Lockstep n (linkedFrom s).Admits x y) (hframe : frame < n)
    (hforest : w₁.store.IsForest) (hn : w₁.size = n) : x.KeepsForest frame w₁ := by
  have hheld := held_of_isForest hforest
  have hafter := (h w₁.store).after hheld hn
  exact ⟨hforest, hn ▸ hframe, hafter.held.isForest, hafter.held.worlds.2.toExtends,
    fun _ hv => Bounds.admits_existing_iff.1 ((h w₁.store).result hheld hn hv)⟩

/-- No trap is met. -/
theorem Lockstep.watched (h : ∀ s, (linkedFrom s).Lockstep n (linkedFrom s).Admits x y)
    (hframe : frame < n) (trap : EvalM Value) (s : Store) :
    (linkedFrom s).Lockstep n (linkedFrom s).Admits (x.watched frame trap) y := by
  intro w₁ w₂ hw hn
  rw [EvalM.watched, if_pos (keepsForest_of_lockstep h hframe hw.isForest hn)]
  exact h s w₁ w₂ hw hn

theorem NearlyMatched.watched {ev₁ ev₂ : Evaluator}
    (h : ∀ s, (linkedFrom s).NearlyMatched ev₁ ev₂) (trap : EvalM Value) (s : Store) :
    (linkedFrom s).Matched (ev₁.watched trap) ev₂ where
  machine := (h s).machine
  fuel := (h s).fuel
  evaluate hform hframe := Lockstep.watched (fun r => (h r).evaluate hform hframe) hframe trap s
  perform b _ _ hargs hframe :=
    Lockstep.watched
      (fun r => ((h r).matched (fun _ => trivial) (permissive_linkedFrom r)).perform b hargs hframe)
      hframe trap s

/-- The interpreter under watch matches the interpreter, out of whichever store the forest
has grown. -/
theorem matched_watched (trap : EvalM Value) (m : Machine) (fuel : Nat) :
    ∀ s, (linkedFrom s).Matched (.ofFuelWith (.watched trap) m fuel) (.ofFuel m fuel) := by
  induction fuel with
  | zero => exact NearlyMatched.watched (fun _ => nearlyMatched_zero m) trap
  | succ fuel ih =>
    refine NearlyMatched.watched (fun s => ?_) trap
    have hnear := (ih s).nearlyMatched_succ (sharesImports_linkedFrom s) (fuel + 1)
    have hwatched : ∀ ev, (Evaluator.watched trap ev).machine = ev.machine := fun _ => rfl
    rw [← (ih s).machine, Evaluator.machine_ofFuelWith hwatched] at hnear
    exact hnear

end Coupling

/-! ## Sessions -/

/-- What a session may be asked to evaluate: a task in one of its frames, or a file by its
path in the root frame. -/
inductive Evaluation where
  | task (task : Task) (frame : FrameId)
  | file (path : String)

namespace Evaluation

def run (e : Evaluation) (ev : Evaluator) : EvalM Value :=
  match e with
  | task t f => t.run ev f
  | file path => ev.evaluateFile path

def frame : Evaluation → FrameId
  | task _ f => f
  | file _ => Store.root

def given : Evaluation → List Value
  | task t _ => t.given
  | file _ => []

/-- The frame is there, and so are those that closures in the forms at hand hold. -/
structure Proper (e : Evaluation) (w : World) : Prop where
  frame : e.frame < w.size
  given : ∀ form ∈ e.given, ∀ f ∈ form.captured, f < w.size

variable (e : Evaluation) (m : Machine) (fuel : Nat) {w : World}

theorem lockstep {ev₁ ev₂ : Evaluator} (h : ∀ s, (Coupling.linkedFrom s).Matched ev₁ ev₂)
    (he : e.Proper w) (s : Store) :
    (Coupling.linkedFrom s).Lockstep w.size (Coupling.linkedFrom s).Admits (e.run ev₁)
      (e.run ev₂) := by
  have hL := Coupling.sharesImports_linkedFrom s
  have hpermissive := Coupling.permissive_linkedFrom s
  have hgiven := fun form hform => Bounds.admitsForm_existing_iff.2 (he.given form hform)
  cases e with
  | task t f => exact (h s).task hL hpermissive t f hgiven he.frame
  | file path => exact (h s).evaluateFile hL hpermissive path he.frame

theorem keepsForest_run (hw : w.store.IsForest) (he : e.Proper w) :
    (e.run (.ofFuel m fuel)).KeepsForest e.frame w := by
  have hmatched := fun s =>
    Coupling.matched_ofFuel (Coupling.sharesImports_linkedFrom s) (fun _ => trivial)
      (Coupling.permissive_linkedFrom s) m fuel
  exact Coupling.keepsForest_of_lockstep (e.lockstep hmatched he) he.frame hw rfl

theorem run_watched (hw : w.store.IsForest) (he : e.Proper w) (trap : EvalM Value) :
    e.run (.ofFuelWith (.watched trap) m fuel) w = e.run (.ofFuel m fuel) w := by
  have hrun := e.lockstep (Coupling.matched_watched trap m fuel) he w.store
  have hheld := Coupling.held_of_isForest hw
  exact EvalM.run_eq (hrun.outcome_eq hheld rfl) (hrun.after hheld rfl).held.worlds.1

end Evaluation

/-- One world leads to another through evaluations, however they end. -/
def World.LeadsTo : World → World → Prop :=
  Relation.ReflTransGen fun w t => ∃ (e : Evaluation) (m : Machine) (fuel : Nat),
    e.Proper w ∧ t = worldAfter (e.run (.ofFuel m fuel)) w

theorem isForest_fresh (input : Input) : (World.fresh input).store.IsForest := by
  have hbare : Store.bare.IsForest := by
    refine ⟨Store.Linked.bare, fun f frame hframe => ?_⟩
    have hmem := Array.mem_of_getElem? hframe
    rw [Store.bare, List.mem_toArray, List.mem_singleton] at hmem
    subst hmem
    exact fun g hg => absurd hg List.not_mem_nil
  have hheld := Coupling.held_of_isForest (w := World.initial input) hbare
  have hrun : (Coupling.linkedFrom .bare).Lockstep 1 (fun _ _ => True) defineBuiltins
      defineBuiltins := .defineAll Nat.zero_lt_one
  exact (hrun.after hheld rfl).held.isForest

namespace World.LeadsTo

variable {w t : World}

theorem isForest (h : w.LeadsTo t) (hw : w.store.IsForest) : t.store.IsForest := by
  induction h with
  | refl => exact hw
  | tail _ hstep ih =>
    obtain ⟨e, m, fuel, he, rfl⟩ := hstep
    exact (e.keepsForest_run m fuel ih he).after

theorem grown (h : w.LeadsTo t) (hw : w.store.IsForest) : t.store.Extends w.store := by
  induction h with
  | refl => exact .refl w.store
  | tail hrun hstep ih =>
    obtain ⟨e, m, fuel, he, rfl⟩ := hstep
    exact (e.keepsForest_run m fuel (isForest hrun hw) he).grown.trans ih

end World.LeadsTo

/-- The frames form a forest, now and in all that the session may come to. -/
structure World.Rooted (w : World) : Prop where
  forest : w.store.IsForest
  chain_ends : ∀ f < w.size, (w.store.chain f).getLast? = some Store.root
  imports_shared : ∀ f < w.size, ∀ state, w.TakesImports f state ↔ state = w.imports
  frames_end : ∀ f < w.size, ∀ frames,
    Climb.frames.Ends w.store (some f) [] frames ↔ frames = w.store.chain f
  find_ends : ∀ {α : Type} (ns : Namespace α), ∀ f < w.size, ∀ name owner,
    (Climb.find w.store ns name).Ends w.store (some f) () owner ↔
      owner = w.store.owner? ns f name
  names_end : ∀ {α : Type} (ns : Namespace α), ∀ f < w.size, ∀ names,
    (Climb.names w.store ns).Ends w.store (some f) [] names ↔ names = w.store.names ns f
  /-- An evaluation keeps the forest, however it ends. -/
  evaluation : ∀ (e : Evaluation) (m : Machine) (fuel : Nat), e.Proper w →
    (e.run (.ofFuel m fuel)).KeepsForest e.frame w
  /-- So does every evaluation within it, and every procedure that it performs. -/
  nested : ∀ (e : Evaluation) (m : Machine) (fuel : Nat), e.Proper w → ∀ trap,
    e.run (.ofFuelWith (.watched trap) m fuel) w = e.run (.ofFuel m fuel) w
  grown : ∀ t, w.LeadsTo t → t.store.Extends w.store

/-- From the start of a session with the built-in procedures on, whatever is evaluated and
however it ends, the frames form a forest. -/
theorem World.rooted_of_session {input : Input} {draws : Nat → Draw} {w : World}
    (h : World.LeadsTo { World.fresh input with draws } w) : w.Rooted := by
  have hforest := h.isForest (isForest_fresh input)
  have hlinked := hforest.toLinked
  exact {
    forest := hforest
    chain_ends := fun f hf => hlinked.getLast?_chain hf
    imports_shared := fun f hf state => takesImports_iff hlinked hf
    frames_end := fun f hf => hlinked.ends_frames_iff hf
    find_ends := fun ns f hf => hlinked.ends_find_iff hf ns
    names_end := fun ns f hf => hlinked.ends_names_iff hf ns
    evaluation := fun e m fuel he => e.keepsForest_run m fuel hforest he
    nested := fun e m fuel he => e.run_watched m fuel hforest he
    grown := fun t ht => ht.grown hforest }

/-- A closure that holds the frame of a call is bound to a name. -/
def Evaluation.adding : Evaluation :=
  .task (.source "(def make (fn (x) (fn (y) (+ x y)))) (def add (make 1))") Store.root

/-- The closure is called, but on a name that is not bound. -/
def Evaluation.failing : Evaluation := .task (.source "(add missing)") Store.root

namespace World

def sessionStart : World := { World.fresh ⟨[], false⟩ with draws := fun _ => .counting 0 }

def afterAdding : World := worldAfter (Evaluation.adding.run (.ofFuel .bare 9)) sessionStart

def afterFailing : World := worldAfter (Evaluation.failing.run (.ofFuel .bare 9)) afterAdding

/-- The frame that the failed call has made stays, inside the one that the closure holds. -/
theorem rooted_of_session_failing :
    sessionStart.LeadsTo afterFailing ∧ afterFailing.store.chain 2 = [2, 1, Store.root] ∧
      afterFailing.Rooted := by
  have hadding : Evaluation.adding.Proper sessionStart :=
    ⟨by decide +kernel, fun form hform => absurd hform List.not_mem_nil⟩
  have hfailing : Evaluation.failing.Proper afterAdding :=
    ⟨by decide +kernel, fun form hform => absurd hform List.not_mem_nil⟩
  have hsession : sessionStart.LeadsTo afterFailing :=
    .tail (.single ⟨.adding, .bare, 9, hadding, rfl⟩) ⟨.failing, .bare, 9, hfailing, rfl⟩
  exact ⟨hsession, by decide +kernel, World.rooted_of_session hsession⟩

end World

end SmallLisp
