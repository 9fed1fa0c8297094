import SmallLisp.Proofs.Bounds.Store
import SmallLisp.World

/-! # Runs in lockstep

Two computations run in lockstep when they end alike from any two worlds that are
held against each other: with the same value or the same stop, in worlds that are
again held against each other, each with the import state that it started with.
A single computation held against itself is the case of an invariant. -/

namespace SmallLisp

open EvalM

/-- How many frames there are. -/
abbrev World.size (w : World) : Nat := w.store.frames.size

/-- A change of what a world holds beside its frames and its import state. Of the input,
a line at a time is taken. -/
inductive Aside where
  | record (e : Event)
  | nextId (n : Nat)
  | line
  | draws (choices : Nat → Draw)

def Aside.apply : Aside → World → World
  | record e, w => { w with journal := w.journal.push e }
  | nextId n, w => { w with nextId := n }
  | line, w => { w with input := { w.input with rest := (Input.takeLine w.input.rest).2 } }
  | draws choices, w => { w with draws := choices }

def World.onStore (op : Store → Store) (w : World) : World := { w with store := op w.store }

@[simp] theorem World.store_onStore (op : Store → Store) (w : World) :
    (w.onStore op).store = op w.store := rfl

theorem World.size_onStore_change {α : Type} (w : World) (ns : Namespace α) (f : FrameId)
    (op : Table α → Table α) : (w.onStore (·.change ns f op)).size = w.size :=
  w.store.size_change ns f op

theorem World.size_onStore_makeChild (w : World) (outer : FrameId) :
    (w.onStore fun s => (s.makeChild outer).2).size = w.size + 1 :=
  w.store.size_makeChild outer

/-- Which worlds are held against each other, and in which frames forms are evaluated
there. The laws say what runs in lockstep need: the two worlds look the same from
every frame that a closure may hold, and each step of a run keeps them together. -/
structure Coupling extends Bounds where
  worlds : World → World → Prop
  active : Nat → FrameId → Prop
  active_mono : ∀ {n m : Nat} {f : FrameId}, n ≤ m → active n f → active m f
  captured_of_active : ∀ {n : Nat} {f : FrameId}, active n f → captured n f
  /-- How the runs may fail outside the language. -/
  faults : HostFault → Prop
  /-- Procedures of the embedding program fail in any way. -/
  faults_of_hosts : hosts → ∀ f, faults f
  size_eq : ∀ {w₁ w₂ : World}, worlds w₁ w₂ → w₁.size = w₂.size
  nextId_eq : ∀ {w₁ w₂ : World}, worlds w₁ w₂ → w₁.nextId = w₂.nextId
  input_eq : ∀ {w₁ w₂ : World}, worlds w₁ w₂ → w₁.input = w₂.input
  draws_eq : ∀ {w₁ w₂ : World}, worlds w₁ w₂ → w₁.draws = w₂.draws
  frames_eq : ∀ {w₁ w₂ : World} {f : FrameId}, worlds w₁ w₂ → captured w₁.size f →
    w₁.store.frames[f]? = w₂.store.frames[f]?
  aside : ∀ {w₁ w₂ : World} (change : Aside), worlds w₁ w₂ →
    worlds (change.apply w₁) (change.apply w₂)
  makeChild : ∀ {w₁ w₂ : World} {outer : FrameId}, worlds w₁ w₂ → captured w₁.size outer →
    worlds (w₁.onStore fun s => (s.makeChild outer).2) (w₂.onStore fun s => (s.makeChild outer).2)
  active_child : ∀ {w₁ w₂ : World}, worlds w₁ w₂ → active (w₁.size + 1) w₁.size
  set : ∀ {w₁ w₂ : World} {f : FrameId} (name : String) (v : Value), worlds w₁ w₂ →
    active w₁.size f →
      worlds (w₁.onStore (·.set .vars f name v)) (w₂.onStore (·.set .vars f name v))
  /-- A variable that is there may be changed from afar. -/
  overwrite : ∀ {w₁ w₂ : World} {f : FrameId} {name : String} (v : Value), worlds w₁ w₂ →
    captured w₁.size f → (w₁.store.table .vars f).contains name = true →
    worlds (w₁.onStore (·.set .vars f name v)) (w₂.onStore (·.set .vars f name v))
  erase : ∀ {w₁ w₂ : World} {f : FrameId} (name : String), worlds w₁ w₂ → active w₁.size f →
    worlds (w₁.onStore (·.erase .vars f name)) (w₂.onStore (·.erase .vars f name))
  define : ∀ {w₁ w₂ : World} {f : FrameId} (name : String) (p : Function), worlds w₁ w₂ →
    active w₁.size f →
    worlds (w₁.onStore (·.set .procs f name p)) (w₂.onStore (·.set .procs f name p))

namespace EvalM

variable {α : Type}

/-- The value that a computation gives, or the stop that it comes to. -/
def outcome (x : EvalM α) (w : World) : Except Stop α :=
  match x w with
  | .ok a _ => .ok a
  | .error s _ => .error s

/-- The world that a computation leaves, whichever way it ends. -/
def worldAfter (x : EvalM α) (w : World) : World :=
  match x w with
  | .ok _ w => w
  | .error _ w => w

theorem worldAfter_of_ok {x : EvalM α} {w w' : World} {a : α} (h : x w = .ok a w') :
    worldAfter x w = w' := by
  rw [worldAfter, h]

theorem eq_ok_of_outcome {x : EvalM α} {w : World} {a : α}
    (h : outcome x w = .ok a) : x w = .ok a (worldAfter x w) := by
  rw [outcome] at h
  rw [worldAfter]
  cases hrun : x w with
  | ok b u =>
    rw [hrun] at h
    cases h
    rfl
  | error s u =>
    rw [hrun] at h
    cases h

/-- Two steps in a row give a value when both do. -/
theorem exists_of_bind_ok {β : Type} {x : EvalM α} {f : α → EvalM β} {w w' : World} {b : β}
    (h : (x >>= f) w = .ok b w') : ∃ a u, x w = .ok a u ∧ f a u = .ok b w' := by
  simp only [bind, EStateM.bind] at h
  cases hx : x w with
  | ok a u =>
    rw [hx] at h
    exact ⟨a, u, rfl, h⟩
  | error s u =>
    rw [hx] at h
    cases h

/-- What goes on after a choice between a value at hand and a computation. -/
theorem exists_of_choose_ok {β : Type} {c : Prop} [Decidable c] {a : α} {x : EvalM α}
    {f : α → EvalM β} {w w' : World} {b : β}
    (h : (if c then pure a >>= f else x >>= f) w = .ok b w') : ∃ a u, f a u = .ok b w' := by
  split at h
  · exact ⟨a, w, h⟩
  · obtain ⟨a, u, -, h⟩ := exists_of_bind_ok h
    exact ⟨a, u, h⟩

/-- What each of two steps keeps, both keep in a row. -/
theorem worldAfter_bind {β : Type} {P : World → Prop} {x : EvalM α} {f : α → EvalM β} {w : World}
    (hx : P (worldAfter x w)) (hf : ∀ a u, P u → P (worldAfter (f a) u)) :
    P (worldAfter (x >>= f) w) := by
  simp only [worldAfter, bind, EStateM.bind] at hx ⊢
  cases hrun : x w with
  | ok a u =>
    rw [hrun] at hx
    exact hf a u hx
  | error s u =>
    rw [hrun] at hx
    exact hx

theorem run_eq {x y : EvalM α} {w : World} (houtcome : outcome x w = outcome y w)
    (hworld : worldAfter x w = worldAfter y w) : x w = y w := by
  unfold outcome at houtcome
  unfold worldAfter at hworld
  revert houtcome hworld
  cases x w <;> cases y w <;> intro houtcome hworld <;> cases houtcome <;> cases hworld <;> rfl

end EvalM

namespace Coupling

variable {L : Coupling} {n m : Nat} {α β : Type}

/-- Worlds held against each other, the frames of the first within the bounds. -/
structure Held (L : Coupling) (w₁ w₂ : World) : Prop where
  worlds : L.worlds w₁ w₂
  store : L.AdmitsStore w₁.store

/-- What holds between two worlds and those that two runs have made of them. -/
structure After (L : Coupling) (w₁ w₂ w₁' w₂' : World) : Prop where
  held : L.Held w₁' w₂'
  size_le : w₁.size ≤ w₁'.size
  imports_left : w₁'.imports = w₁.imports
  imports_right : w₂'.imports = w₂.imports

/-- Whether a run may stop in a way: only faults are held to anything. -/
def Allows (L : Coupling) : Stop → Prop
  | .fault f => L.faults f
  | _ => True

/-- Runs may fail in every way. -/
def Permissive (L : Coupling) : Prop := ∀ f, L.faults f

theorem Permissive.allows (h : L.Permissive) (s : Stop) : L.Allows s := by
  cases s with
  | fault f => exact h f
  | _ => trivial

/-- The same ending on both sides. -/
inductive Ends (L : Coupling) (w₁ w₂ : World) (Q : Nat → α → Prop) :
    EStateM.Result Stop World α → EStateM.Result Stop World α → Prop
  | ok {a : α} {w₁' w₂' : World} (result : Q w₁'.size a) (after : L.After w₁ w₂ w₁' w₂') :
      Ends L w₁ w₂ Q (.ok a w₁') (.ok a w₂')
  | error {s : Stop} {w₁' w₂' : World} (allowed : L.Allows s) (after : L.After w₁ w₂ w₁' w₂') :
      Ends L w₁ w₂ Q (.error s w₁') (.error s w₂')

/-- From worlds with `n` frames that are held against each other, both computations end
alike; what `Q` says of the result may depend on the number of frames by then. -/
def Lockstep (L : Coupling) (n : Nat) (Q : Nat → α → Prop) (x y : EvalM α) : Prop :=
  ∀ w₁ w₂, L.Held w₁ w₂ → w₁.size = n → L.Ends w₁ w₂ Q (x w₁) (y w₂)

theorem After.refl {w₁ w₂ : World} (h : L.Held w₁ w₂) : L.After w₁ w₂ w₁ w₂ :=
  ⟨h, Nat.le_refl _, rfl, rfl⟩

theorem After.trans {w₁ w₂ u₁ u₂ v₁ v₂ : World} (h : L.After w₁ w₂ u₁ u₂)
    (h' : L.After u₁ u₂ v₁ v₂) : L.After w₁ w₂ v₁ v₂ where
  held := h'.held
  size_le := Nat.le_trans h.size_le h'.size_le
  imports_left := h'.imports_left.trans h.imports_left
  imports_right := h'.imports_right.trans h.imports_right

theorem Ends.after {w₁ w₂ u₁ u₂ : World} {Q : Nat → α → Prop}
    {r₁ r₂ : EStateM.Result Stop World α} (h : L.After w₁ w₂ u₁ u₂) (hr : L.Ends u₁ u₂ Q r₁ r₂) :
    L.Ends w₁ w₂ Q r₁ r₂ := by
  cases hr with
  | ok result after => exact .ok result (h.trans after)
  | error allowed after => exact .error allowed (h.trans after)

theorem Ends.imp {w₁ w₂ : World} {P Q : Nat → α → Prop} {r₁ r₂ : EStateM.Result Stop World α}
    (hr : L.Ends w₁ w₂ P r₁ r₂) (h : ∀ m a, w₁.size ≤ m → P m a → Q m a) :
    L.Ends w₁ w₂ Q r₁ r₂ := by
  cases hr with
  | ok result after => exact .ok (h _ _ after.size_le result) after
  | error allowed after => exact .error allowed after

namespace Lockstep

variable {Q : Nat → α → Prop} {x y : EvalM α} {w₁ w₂ : World}

theorem outcome_eq (h : L.Lockstep n Q x y) (hw : L.Held w₁ w₂) (hn : w₁.size = n) :
    outcome x w₁ = outcome y w₂ := by
  have hrun := h w₁ w₂ hw hn
  unfold outcome
  revert hrun
  generalize x w₁ = r₁, y w₂ = r₂
  rintro (_ | _) <;> rfl

theorem after (h : L.Lockstep n Q x y) (hw : L.Held w₁ w₂) (hn : w₁.size = n) :
    L.After w₁ w₂ (worldAfter x w₁) (worldAfter y w₂) := by
  have hrun := h w₁ w₂ hw hn
  unfold worldAfter
  revert hrun
  generalize x w₁ = r₁, y w₂ = r₂
  rintro (⟨-, after⟩ | ⟨-, after⟩) <;> exact after

theorem result (h : L.Lockstep n Q x y) (hw : L.Held w₁ w₂) (hn : w₁.size = n) {a : α}
    (ha : outcome x w₁ = .ok a) : Q (worldAfter x w₁).size a := by
  have hrun := h w₁ w₂ hw hn
  unfold outcome at ha
  unfold worldAfter
  revert hrun ha
  generalize x w₁ = r₁, y w₂ = r₂
  rintro ha (⟨result, -⟩ | _)
  · cases ha
    exact result
  · cases ha

/-- A run stops only in the ways that are allowed. -/
theorem allows (h : L.Lockstep n Q x y) (hw : L.Held w₁ w₂) (hn : w₁.size = n) {s : Stop}
    (hs : outcome x w₁ = .error s) : L.Allows s := by
  have hrun := h w₁ w₂ hw hn
  unfold outcome at hs
  revert hrun hs
  generalize x w₁ = r₁, y w₂ = r₂
  rintro hs (_ | ⟨allowed, -⟩)
  · cases hs
  · cases hs
    exact allowed

end Lockstep

/-! ## Other faults -/

/-- The same coupling, but for the faults that runs may come to. -/
def withFaults (L : Coupling) (faults : HostFault → Prop) (hfaults : L.hosts → ∀ f, faults f) :
    Coupling :=
  { L with faults, faults_of_hosts := hfaults }

section

variable {faults : HostFault → Prop} {hfaults : L.hosts → ∀ f, faults f}

/-- Ends are the same where the faults that they come to are allowed. -/
theorem Ends.withFaults {Q : Nat → α → Prop} {w₁ w₂ : World}
    {r₁ r₂ : EStateM.Result Stop World α} (hr : L.Ends w₁ w₂ Q r₁ r₂)
    (h : ∀ f u, r₁ = .error (.fault f) u → L.faults f → faults f) :
    (L.withFaults faults hfaults).Ends w₁ w₂ Q r₁ r₂ := by
  have hafter : ∀ {u₁ u₂ : World}, L.After w₁ w₂ u₁ u₂ →
      (L.withFaults faults hfaults).After w₁ w₂ u₁ u₂ := fun after =>
    ⟨⟨after.held.worlds, after.held.store⟩, after.size_le, after.imports_left, after.imports_right⟩
  cases hr with
  | ok result after => exact .ok result (hafter after)
  | @error s u _ allowed after =>
    refine .error ?_ (hafter after)
    cases s with
    | fault f => exact h f u rfl allowed
    | _ => trivial

/-- Runs in lockstep stay so where more faults are allowed. -/
theorem Lockstep.withFaults {Q : Nat → α → Prop} {x y : EvalM α} (hx : L.Lockstep n Q x y)
    (h : ∀ f, L.faults f → faults f) : (L.withFaults faults hfaults).Lockstep n Q x y :=
  fun w₁ w₂ hw hn => (hx w₁ w₂ ⟨hw.worlds, hw.store⟩ hn).withFaults fun f _ _ => h f

end

/-! ## Rules for all computations -/

theorem Ends.get {Q : Nat → α → Prop} {f g : World → EvalM α} {w₁ w₂ : World}
    (h : L.Ends w₁ w₂ Q (f w₁ w₁) (g w₂ w₂)) :
    L.Ends w₁ w₂ Q ((MonadState.get >>= f) w₁) ((MonadState.get >>= g) w₂) := h

namespace Lockstep

theorem pure {Q : Nat → α → Prop} {a : α} (h : Q n a) :
    L.Lockstep n Q (Pure.pure a) (Pure.pure a) := by
  intro w₁ w₂ hw hn
  exact .ok (hn ▸ h) (.refl hw)

theorem stop {Q : Nat → α → Prop} {s : Stop} (h : L.Allows s) :
    L.Lockstep n Q (EvalM.stop s) (EvalM.stop s) :=
  fun _ _ hw _ => .error h (.refl hw)

theorem fail {Q : Nat → α → Prop} (e : ScriptError) :
    L.Lockstep n Q (EvalM.fail e) (EvalM.fail e) := stop (s := .error e) trivial

theorem bind {P : Nat → α → Prop} {Q : Nat → β → Prop} {x y : EvalM α} {f g : α → EvalM β}
    (hx : L.Lockstep n P x y)
    (hf : ∀ a m, n ≤ m → P m a → L.Lockstep m Q (f a) (g a)) :
    L.Lockstep n Q (x >>= f) (y >>= g) := by
  intro w₁ w₂ hw hn
  have h := hx w₁ w₂ hw hn
  simp only [Bind.bind, EStateM.bind]
  revert h
  generalize x w₁ = r₁, y w₂ = r₂
  intro h
  cases h with
  | ok result after =>
    exact (hf _ _ (hn ▸ after.size_le) result _ _ after.held rfl).after after
  | error allowed after => exact .error allowed after

/-- What goes on after a choice between a value at hand and a computation. -/
theorem choose {c : Prop} [Decidable c] {P : Nat → α → Prop} {Q : Nat → β → Prop} {a : α}
    {x y : EvalM α} {f g : α → EvalM β} (ha : c → P n a) (hx : L.Lockstep n P x y)
    (hf : ∀ a m, n ≤ m → P m a → L.Lockstep m Q (f a) (g a)) :
    L.Lockstep n Q (if c then Pure.pure a >>= f else x >>= f)
      (if c then Pure.pure a >>= g else y >>= g) := by
  split
  · next hc => exact (pure (ha hc)).bind hf
  · exact hx.bind hf

/-- The result need not satisfy more than is asked of it. -/
theorem imp {P Q : Nat → α → Prop} {x y : EvalM α} (hx : L.Lockstep n P x y)
    (h : ∀ m a, n ≤ m → P m a → Q m a) : L.Lockstep n Q x y :=
  fun w₁ w₂ hw hn => (hx w₁ w₂ hw hn).imp fun m a hm => h m a (hn ▸ hm)

theorem ofExcept {Q : Nat → α → Prop} {outcome : Except ScriptError α}
    (h : ∀ a, outcome = .ok a → Q n a) :
    L.Lockstep n Q (EvalM.ofExcept outcome) (EvalM.ofExcept outcome) := by
  cases outcome with
  | ok a => exact pure (h a rfl)
  | error e => exact fail e

/-- Of what is checked, nothing may be asked. -/
theorem checked (outcome : Except ScriptError α) :
    L.Lockstep n (fun _ _ => True) (EvalM.ofExcept outcome) (EvalM.ofExcept outcome) :=
  ofExcept fun _ _ => trivial

theorem ofOutcome {Q : Nat → α → Prop} {outcome : Except Stop α}
    (hfaults : ∀ f, outcome = .error (.fault f) → L.faults f)
    (h : ∀ a, outcome = .ok a → Q n a) :
    L.Lockstep n Q (EvalM.ofOutcome outcome) (EvalM.ofOutcome outcome) := by
  cases outcome with
  | ok a => exact pure (h a rfl)
  | error s =>
    refine stop ?_
    cases s with
    | fault f => exact hfaults f rfl
    | _ => trivial

/-- A computation that goes on with what it finds in the world. -/
theorem get {Q : Nat → α → Prop} {f g : World → EvalM α}
    (h : ∀ w₁ w₂, L.Held w₁ w₂ → w₁.size = n → L.Ends w₁ w₂ Q (f w₁ w₁) (g w₂ w₂)) :
    L.Lockstep n Q (MonadState.get >>= f) (MonadState.get >>= g) :=
  fun w₁ w₂ hw hn => .get (h w₁ w₂ hw hn)

/-- A computation that goes on with what it makes of the world. -/
theorem modifyGet {Q : Nat → α → Prop} {f g : World → α × World}
    (h : ∀ w₁ w₂, L.Held w₁ w₂ → w₁.size = n →
      L.Ends w₁ w₂ Q (.ok (f w₁).1 (f w₁).2) (.ok (g w₂).1 (g w₂).2)) :
    L.Lockstep n Q (MonadState.modifyGet f) (MonadState.modifyGet g) :=
  fun w₁ w₂ hw hn => h w₁ w₂ hw hn

/-! ## Changes beside the frames -/

theorem aside (a : α) {Q : Nat → α → Prop} {w₁ w₂ : World} (change : Aside)
    (hw : L.Held w₁ w₂) (h : Q w₁.size a) :
    L.Ends w₁ w₂ Q (.ok a (change.apply w₁)) (.ok a (change.apply w₂)) := by
  have hstore : ∀ w : World, (change.apply w).store = w.store := by
    cases change <;> exact fun _ => rfl
  have himports : ∀ w : World, (change.apply w).imports = w.imports := by
    cases change <;> exact fun _ => rfl
  refine .ok ?_ ⟨⟨L.aside change hw.worlds, ?_⟩, ?_, himports w₁, himports w₂⟩
  · rw [World.size, hstore]
    exact h
  · rw [hstore]
    exact hw.store
  · rw [World.size, World.size, hstore]

theorem note (e : Note) : L.Lockstep n (fun _ _ => True) (EvalM.note e) (EvalM.note e) :=
  fun _ _ hw _ => aside () (.record (.noted e)) hw trivial

theorem write (text : String) :
    L.Lockstep n (fun _ _ => True) (EvalM.write text) (EvalM.write text) :=
  fun _ _ hw _ => aside () (.record (.wrote text)) hw trivial

theorem freshId : L.Lockstep n (fun _ _ => True) EvalM.freshId EvalM.freshId := by
  refine modifyGet fun w₁ w₂ hw _ => ?_
  rw [← L.nextId_eq hw.worlds]
  exact aside w₁.nextId (.nextId (w₁.nextId + 1)) hw trivial

theorem marked {Q : Nat → Value → Prop} {v : Value} (h : ∀ next, Q n (v.mark next).1) :
    L.Lockstep n Q (EvalM.marked v) (EvalM.marked v) := by
  refine modifyGet fun w₁ w₂ hw hn => ?_
  rw [← L.nextId_eq hw.worlds]
  exact aside (v.mark w₁.nextId).1 (.nextId (v.mark w₁.nextId).2) hw (hn ▸ h w₁.nextId)

theorem readLine (hfault : L.faults .interrupted) :
    L.Lockstep n (fun _ _ => True) EvalM.readLine EvalM.readLine := by
  refine get fun w₁ w₂ hw hn => ?_
  have hinput := L.input_eq hw.worlds
  rw [← hinput]
  split
  · exact stop (s := .fault .interrupted) hfault w₁ w₂ hw hn
  · have hline := aside (Q := fun _ _ => True) (Input.takeLine w₁.input.rest).1 .line hw trivial
    simp only [Aside.apply, ← hinput] at hline
    exact hline

theorem drawBetween {low high : Int} (hlow : L.int low) (hhigh : L.int high) (h : low ≤ high) :
    L.Lockstep n (fun _ k => L.int k) (EvalM.drawBetween low high)
      (EvalM.drawBetween low high) := by
  refine modifyGet fun w₁ w₂ hw _ => ?_
  rw [← L.draws_eq hw.worlds]
  obtain ⟨hleast, hgreatest⟩ := (w₁.draws 0).between h
  have hdrawn : L.int ((w₁.draws 0).pick low high) :=
    L.int_between hlow hhigh hleast hgreatest
  exact aside (Q := fun _ k => L.int k) _ (.draws fun i => w₁.draws (i + 1)) hw hdrawn

/-! ## Changes of frames -/

theorem makeChild {outer : FrameId} (h : L.captured n outer) :
    L.Lockstep n L.active (EvalM.makeChild outer) (EvalM.makeChild outer) := by
  refine modifyGet fun w₁ w₂ hw hn => ?_
  subst hn
  have hchild : (w₁.store.makeChild outer).1 = (w₂.store.makeChild outer).1 :=
    L.size_eq hw.worlds
  have hgrown := w₁.size_onStore_makeChild outer
  have hafter : L.After w₁ w₂ (w₁.onStore fun s => (s.makeChild outer).2)
      (w₂.onStore fun s => (s.makeChild outer).2) := by
    refine ⟨⟨L.makeChild hw.worlds h, hw.store.makeChild h⟩, ?_, rfl, rfl⟩
    rw [hgrown]
    exact Nat.le_succ w₁.size
  have hactive : L.active (w₁.onStore fun s => (s.makeChild outer).2).size w₁.size := by
    rw [hgrown]
    exact L.active_child hw.worlds
  dsimp only
  rw [← hchild]
  exact .ok hactive hafter

/-- A change of the frames that leaves their number as it is. -/
theorem modifyStore {op₁ op₂ : Store → Store} (hsize : ∀ s, (op₁ s).frames.size = s.frames.size)
    (h : ∀ w₁ w₂, L.Held w₁ w₂ → w₁.size = n → L.Held (w₁.onStore op₁) (w₂.onStore op₂)) :
    L.Lockstep n (fun _ _ => True) (EvalM.modifyStore op₁) (EvalM.modifyStore op₂) :=
  fun w₁ w₂ hw hn =>
    .ok trivial ⟨h w₁ w₂ hw hn, Nat.le_of_eq (hsize w₁.store).symm, rfl, rfl⟩

theorem setVariable {f : FrameId} {name : String} {v : Value} (hf : L.active n f)
    (hv : L.Admits n v) :
    L.Lockstep n (fun _ _ => True) (EvalM.setVariable f name v) (EvalM.setVariable f name v) := by
  refine modifyStore (fun s => Store.size_change s ..) fun w₁ w₂ hw hn => ?_
  subst hn
  exact ⟨L.set name v hw.worlds hf, hw.store.setVariable f name hv⟩

theorem eraseVariable {f : FrameId} {name : String} (hf : L.active n f) :
    L.Lockstep n (fun _ _ => True) (EvalM.eraseVariable f name) (EvalM.eraseVariable f name) := by
  refine modifyStore (fun s => Store.size_change s ..) fun w₁ w₂ hw hn => ?_
  subst hn
  exact ⟨L.erase name hw.worlds hf, hw.store.eraseVariable f name⟩

theorem defineProcedure {f : FrameId} {name : String} {p : Function} (hf : L.active n f)
    (hp : L.Admits n p.toValue) :
    L.Lockstep n (fun _ _ => True) (EvalM.defineProcedure f name p)
      (EvalM.defineProcedure f name p) := by
  refine modifyStore (fun s => Store.size_change s ..) fun w₁ w₂ hw hn => ?_
  subst hn
  exact ⟨L.define name p hw.worlds hf, hw.store.defineProcedure f name hp⟩

end Lockstep

/-! ## Looking up -/

/-- From a frame that a closure may hold, both worlds look the same. -/
theorem Held.sameSight {w₁ w₂ : World} (h : L.Held w₁ w₂) {f : FrameId}
    (hf : L.captured w₁.size f) : Store.SameSight w₁.store w₂.store f := by
  have hchain := Store.chain_congr (fun g hg => L.frames_eq h.worlds hg)
    (fun g frame outer hg hframe ho => (h.store g frame hg hframe).outer outer ho) f hf
  exact ⟨hchain.1, fun g hg => L.frames_eq h.worlds (hchain.2 g hg)⟩

namespace Lockstep

theorem updateVariable {f : FrameId} {name : String} {v : Value} (hf : L.active n f)
    (hv : L.Admits n v) :
    L.Lockstep n (fun _ _ => True) (EvalM.updateVariable f name v)
      (EvalM.updateVariable f name v) := by
  refine modifyStore (fun s => Store.size_change s ..) fun w₁ w₂ hw hn => ?_
  subst hn
  have hcaptured := L.captured_of_active hf
  have howner := (hw.sameSight hcaptured).owner? .vars name
  rcases Store.update_cases w₁.store .vars f name v with ⟨hnone, h₁⟩ | ⟨g, hg, hsome, hin, h₁⟩
  · have h₂ : w₂.store.update .vars f name v = w₂.store.set .vars f name v := by
      rw [Store.update, ← howner, hnone, Option.getD_none]
    simp only [World.onStore]
    rw [h₁, h₂]
    exact ⟨L.set name v hw.worlds hf, hw.store.setVariable f name hv⟩
  · have h₂ : w₂.store.update .vars f name v = w₂.store.set .vars g name v := by
      rw [Store.update, ← howner, hsome, Option.getD_some]
    have hgcaptured := hw.store.captured_of_mem_chain hcaptured hg
    simp only [World.onStore]
    rw [h₁, h₂]
    exact ⟨L.overwrite v hw.worlds hgcaptured hin, hw.store.setVariable g name hv⟩

theorem valueOf {f : FrameId} (name : String) (hf : L.captured n f) :
    L.Lockstep n L.Admits (EvalM.valueOf f name) (EvalM.valueOf f name) := by
  refine get fun w₁ w₂ hw hn => ?_
  subst hn
  rw [← (hw.sameSight hf).value? name]
  cases hv : w₁.store.value? f name with
  | none => exact fail _ w₁ w₂ hw rfl
  | some v => exact pure (hw.store.value? hf hv) w₁ w₂ hw rfl

theorem functionOf {f : FrameId} (name : String) (hf : L.captured n f) :
    L.Lockstep n (fun m p => L.Admits m p.toValue) (EvalM.functionOf f name)
      (EvalM.functionOf f name) := by
  refine get fun w₁ w₂ hw hn => ?_
  subst hn
  rw [← (hw.sameSight hf).function? name]
  cases hp : w₁.store.function? f name with
  | none => exact fail _ w₁ w₂ hw rfl
  | some p =>
    exact pure (Q := fun m (p : Function) => L.Admits m p.toValue) (hw.store.function? hf hp)
      w₁ w₂ hw rfl

end Lockstep

end Coupling

end SmallLisp
