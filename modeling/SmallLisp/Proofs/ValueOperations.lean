import Mathlib.Data.List.Forall2
import SmallLisp.Interpreter
import SmallLisp.Proofs.Lockstep

/-! # Operations on values

Most built-in procedures use their argument forms for nothing but the values of these. Where
the forms have the same values, such a procedure does the same, whatever else is in the
frames, and it leaves the frames as they are. -/

namespace SmallLisp

open EvalM Number

/-- Worlds with the frames of two others, alike in the rest, to whose journals the same
events were added. -/
structure World.Beside (o₁ o₂ w₁ w₂ : World) : Prop where
  store_left : w₁.store = o₁.store
  store_right : w₂.store = o₂.store
  nextId : w₁.nextId = w₂.nextId
  imports : w₁.imports = w₂.imports
  input : w₁.input = w₂.input
  draws : w₁.draws = w₂.draws
  journal : ∃ events, w₁.journal = o₁.journal ++ events ∧ w₂.journal = o₂.journal ++ events

theorem World.Beside.record {o₁ o₂ w₁ w₂ : World} (h : Beside o₁ o₂ w₁ w₂) (e : Event) :
    Beside o₁ o₂ ((Aside.record e).apply w₁) ((Aside.record e).apply w₂) := by
  obtain ⟨events, h₁, h₂⟩ := h.journal
  refine { h with journal := ⟨events.push e, ?_, ?_⟩ }
  · simp only [Aside.apply, h₁, Array.append_push]
  · simp only [Aside.apply, h₂, Array.append_push]

/-- The same value or the same stop, in worlds that are related. -/
inductive SameEnding {α : Type} (R : World → World → Prop) :
    EStateM.Result Stop World α → EStateM.Result Stop World α → Prop
  | ok {a : α} {u₁ u₂ : World} (related : R u₁ u₂) : SameEnding R (.ok a u₁) (.ok a u₂)
  | error {s : Stop} {u₁ u₂ : World} (related : R u₁ u₂) : SameEnding R (.error s u₁) (.error s u₂)

namespace SameEnding

variable {α : Type} {R S : World → World → Prop}

theorem imp {r₁ r₂ : EStateM.Result Stop World α} (h : SameEnding R r₁ r₂)
    (hR : ∀ u₁ u₂, R u₁ u₂ → S u₁ u₂) : SameEnding S r₁ r₂ := by
  cases h with
  | ok related => exact .ok (hR _ _ related)
  | error related => exact .error (hR _ _ related)

theorem outcome_and_world {x y : EvalM α} {w₁ w₂ : World} (h : SameEnding R (x w₁) (y w₂)) :
    outcome x w₁ = outcome y w₂ ∧ R (worldAfter x w₁) (worldAfter y w₂) := by
  rw [outcome, outcome, worldAfter, worldAfter]
  generalize x w₁ = r₁, y w₂ = r₂ at h ⊢
  cases h with
  | ok related => exact ⟨rfl, related⟩
  | error related => exact ⟨rfl, related⟩

end SameEnding

/-- The computations end alike, and leave the frames on both sides as they are. -/
def Abreast {α : Type} (o₁ o₂ : World) (x y : EvalM α) : Prop :=
  ∀ w₁ w₂, World.Beside o₁ o₂ w₁ w₂ → SameEnding (World.Beside o₁ o₂) (x w₁) (y w₂)

namespace Abreast

/-! ## Rules for all computations -/

section

variable {α β : Type} {o₁ o₂ : World}

theorem pure (a : α) : Abreast o₁ o₂ (Pure.pure a) (Pure.pure a) :=
  fun _ _ h => .ok h

theorem stop (s : Stop) : Abreast o₁ o₂ (EvalM.stop s : EvalM α) (EvalM.stop s) :=
  fun _ _ h => .error h

theorem fail (e : ScriptError) : Abreast o₁ o₂ (EvalM.fail e : EvalM α) (EvalM.fail e) :=
  stop _

theorem bind {x y : EvalM α} {f g : α → EvalM β} (h : Abreast o₁ o₂ x y)
    (hf : ∀ a, Abreast o₁ o₂ (f a) (g a)) : Abreast o₁ o₂ (x >>= f) (y >>= g) := by
  intro w₁ w₂ hw
  have hx := h w₁ w₂ hw
  simp only [Bind.bind, EStateM.bind]
  revert hx
  generalize x w₁ = r₁, y w₂ = r₂
  intro hx
  cases hx with
  | ok related => exact hf _ _ _ related
  | error related => exact .error related

/-- What goes on after a choice between a value at hand and a computation. -/
theorem choose {c : Prop} [Decidable c] (a : α) {x y : EvalM α} {f g : α → EvalM β}
    (h : Abreast o₁ o₂ x y) (hf : ∀ a, Abreast o₁ o₂ (f a) (g a)) :
    Abreast o₁ o₂ (if c then Pure.pure a >>= f else x >>= f)
      (if c then Pure.pure a >>= g else y >>= g) := by
  split
  · exact (pure a).bind hf
  · exact h.bind hf

theorem ofExcept (r : Except ScriptError α) :
    Abreast o₁ o₂ (EvalM.ofExcept r) (EvalM.ofExcept r) := by
  cases r with
  | ok a => exact pure a
  | error e => exact fail e

theorem ofOutcome (r : Except Stop α) :
    Abreast o₁ o₂ (EvalM.ofOutcome r) (EvalM.ofOutcome r) := by
  cases r with
  | ok a => exact pure a
  | error s => exact stop s

theorem note (n : Note) : Abreast o₁ o₂ (EvalM.note n) (EvalM.note n) :=
  fun _ _ h => .ok (h.record (.noted n))

theorem write (text : String) : Abreast o₁ o₂ (EvalM.write text) (EvalM.write text) :=
  fun _ _ h => .ok (h.record (.wrote text))

theorem marked (v : Value) : Abreast o₁ o₂ (EvalM.marked v) (EvalM.marked v) := by
  intro w₁ w₂ h
  change SameEnding _ (.ok (v.mark w₁.nextId).1 _) (.ok (v.mark w₂.nextId).1 _)
  rw [h.nextId]
  exact .ok { h with nextId := rfl }

theorem require (procedure : String) (required : Nat) {args₁ args₂ : List Value}
    (h : args₁.length = args₂.length) :
    Abreast o₁ o₂ (SmallLisp.require procedure required args₁)
      (SmallLisp.require procedure required args₂) := by
  unfold SmallLisp.require
  rw [h]
  split
  · exact fail _
  · exact pure ()

/-- Forms are evaluated abreast that have the same value in both frames. -/
theorem of_pure {x y : EvalM α} {a : α} (hx : ∀ w, w.store = o₁.store → x w = .ok a w)
    (hy : ∀ w, w.store = o₂.store → y w = .ok a w) : Abreast o₁ o₂ x y := by
  intro w₁ w₂ h
  rw [hx w₁ h.store_left, hy w₂ h.store_right]
  exact .ok h

end

/-! ## Arguments -/

/-- Argument forms that are evaluated abreast, one by one, each side in its frame. -/
abbrev Args (o₁ o₂ : World) (ev : Evaluator) (frame₁ frame₂ : FrameId) :
    List Value → List Value → Prop :=
  List.Forall₂ fun form₁ form₂ =>
    Abreast o₁ o₂ (ev.evaluate form₁ frame₁) (ev.evaluate form₂ frame₂)

variable {o₁ o₂ : World} {ev : Evaluator} {frame₁ frame₂ : FrameId} {args₁ args₂ : List Value}
  (h : Args o₁ o₂ ev frame₁ frame₂ args₁ args₂)
include h

theorem evaluateAll :
    Abreast o₁ o₂ (ev.evaluateAll args₁ frame₁) (ev.evaluateAll args₂ frame₂) := by
  induction h with
  | nil => exact pure []
  | cons hform _ ih => exact hform.bind fun _ => ih.bind fun _ => pure _

theorem argument (procedure : String) (i : Nat) :
    Abreast o₁ o₂ (ev.argument procedure args₁ i frame₁)
      (ev.argument procedure args₂ i frame₂) := by
  unfold Evaluator.argument
  rw [h.length_eq]
  generalize args₂.length = given
  generalize i + 1 = required
  induction h generalizing i with
  | nil => exact fail _
  | cons hform _ ih =>
    cases i with
    | zero => exact hform
    | succ i => exact ih i

theorem textArgument (procedure : String) (i : Nat) :
    Abreast o₁ o₂ (ev.textArgument procedure args₁ i frame₁)
      (ev.textArgument procedure args₂ i frame₂) :=
  (argument h procedure i).bind fun _ => pure _

theorem listArgument (procedure : String) (i : Nat) :
    Abreast o₁ o₂ (ev.listArgument procedure args₁ i frame₁)
      (ev.listArgument procedure args₂ i frame₂) :=
  (argument h procedure i).bind fun _ => pure _

theorem intArgument (procedure : String) (i : Nat) :
    Abreast o₁ o₂ (ev.intArgument procedure args₁ i frame₁)
      (ev.intArgument procedure args₂ i frame₂) :=
  (argument h procedure i).bind fun _ => ofOutcome _

/-! ## Comparison, logic and arithmetic -/

theorem allPass (test : Value → Except ScriptError Bool) :
    Abreast o₁ o₂ (ev.allPass test args₁ frame₁) (ev.allPass test args₂ frame₂) := by
  induction h with
  | nil => exact pure true
  | cons hform _ ih =>
    refine hform.bind fun v => (ofExcept _).bind fun passes => ?_
    split
    · exact ih
    · exact pure false

theorem againstFirst (procedure : String) (test : Value → Value → Except ScriptError Bool) :
    Abreast o₁ o₂ (ev.againstFirst procedure test args₁ frame₁)
      (ev.againstFirst procedure test args₂ frame₂) := by
  refine (argument h procedure 0).bind fun first => ?_
  exact (allPass (List.forall₂_drop 1 h) (test first)).bind fun _ => pure _

theorem conjunction :
    Abreast o₁ o₂ (ev.conjunction args₁ frame₁) (ev.conjunction args₂ frame₂) :=
  (allPass h _).bind fun _ => pure _

theorem disjunction :
    Abreast o₁ o₂ (ev.disjunction args₁ frame₁) (ev.disjunction args₂ frame₂) :=
  (allPass h _).bind fun _ => pure _

theorem negation : Abreast o₁ o₂ (ev.negation args₁ frame₁) (ev.negation args₂ frame₂) :=
  (argument h _ 0).bind fun _ => pure _

theorem arithmetic (op : Arithmetic) :
    Abreast o₁ o₂ (ev.arithmetic op args₁ frame₁) (ev.arithmetic op args₂ frame₂) :=
  (require _ 1 h.length_eq).bind fun _ => (evaluateAll h).bind fun _ =>
    (ofOutcome _).bind fun v => marked v

theorem convert (target : Conversion) :
    Abreast o₁ o₂ (ev.convert target args₁ frame₁) (ev.convert target args₂ frame₂) :=
  (argument h _ 0).bind fun _ => (ofOutcome _).bind fun v => marked v

/-! ## Texts -/

theorem changeText (b : Builtin) (op : List Char → List Char) :
    Abreast o₁ o₂ (ev.changeText b op args₁ frame₁) (ev.changeText b op args₂ frame₂) :=
  (textArgument h _ 0).bind fun _ => pure _

theorem formatted : Abreast o₁ o₂ (ev.formatted args₁ frame₁) (ev.formatted args₂ frame₂) := by
  refine (require _ 1 h.length_eq).bind fun _ => (evaluateAll h).bind fun vs => ?_
  split <;> exact pure _

theorem format : Abreast o₁ o₂ (ev.format args₁ frame₁) (ev.format args₂ frame₂) :=
  (formatted h).bind fun _ => pure _

theorem split : Abreast o₁ o₂ (ev.split args₁ frame₁) (ev.split args₂ frame₂) := by
  refine (textArgument h _ 0).bind fun text => ?_
  rw [h.length_eq]
  split
  · exact pure _
  · exact (textArgument h _ 1).bind fun separator => ofExcept _

theorem join : Abreast o₁ o₂ (ev.join args₁ frame₁) (ev.join args₂ frame₂) :=
  (listArgument h _ 0).bind fun _ => (textArgument h _ 1).bind fun _ => pure _

/-- A test of two texts, in whichever order they are evaluated. -/
theorem textTest (procedure : String) (i j : Nat) (test : String → String → Bool) :
    Abreast o₁ o₂
      (do let a ← ev.textArgument procedure args₁ i frame₁
          let b ← ev.textArgument procedure args₁ j frame₁
          Pure.pure (Value.bool (test a b)))
      (do let a ← ev.textArgument procedure args₂ i frame₂
          let b ← ev.textArgument procedure args₂ j frame₂
          Pure.pure (Value.bool (test a b))) :=
  (textArgument h procedure i).bind fun _ => (textArgument h procedure j).bind fun _ => pure _

theorem replace : Abreast o₁ o₂ (ev.replace args₁ frame₁) (ev.replace args₂ frame₂) :=
  (textArgument h _ 0).bind fun _ => (textArgument h _ 1).bind fun _ =>
    (textArgument h _ 2).bind fun _ => pure _

theorem byteLength : Abreast o₁ o₂ (ev.byteLength args₁ frame₁) (ev.byteLength args₂ frame₂) :=
  (textArgument h _ 0).bind fun _ => pure _

theorem charCode : Abreast o₁ o₂ (ev.charCode args₁ frame₁) (ev.charCode args₂ frame₂) :=
  (textArgument h _ 0).bind fun _ => (ofExcept _).bind fun _ => pure _

theorem charOfCode : Abreast o₁ o₂ (ev.charOfCode args₁ frame₁) (ev.charOfCode args₂ frame₂) :=
  (intArgument h _ 0).bind fun _ => (ofOutcome _).bind fun _ => pure _

/-! ## Lists -/

theorem head : Abreast o₁ o₂ (ev.head args₁ frame₁) (ev.head args₂ frame₂) := by
  refine (listArgument h _ 0).bind fun items => ?_
  split
  · exact pure _
  · exact fail _

theorem last : Abreast o₁ o₂ (ev.last args₁ frame₁) (ev.last args₂ frame₂) := by
  refine (listArgument h _ 0).bind fun items => ?_
  split
  · exact pure _
  · exact fail _

theorem count : Abreast o₁ o₂ (ev.count args₁ frame₁) (ev.count args₂ frame₂) :=
  (listArgument h _ 0).bind fun _ => pure _

theorem sequence : Abreast o₁ o₂ (ev.sequence args₁ frame₁) (ev.sequence args₂ frame₂) := by
  refine (intArgument h _ 0).bind fun start => (intArgument h _ 1).bind fun stop => ?_
  rw [h.length_eq]
  refine choose 1 (intArgument h _ 2) fun step => ?_
  beta_reduce
  split
  · exact fail _
  · split
    · exact pure _
    · exact Abreast.stop _

/-! ## Console and log -/

theorem joined : Abreast o₁ o₂ (ev.joined args₁ frame₁) (ev.joined args₂ frame₂) :=
  (evaluateAll h).bind fun _ => pure _

theorem print : Abreast o₁ o₂ (ev.print args₁ frame₁) (ev.print args₂ frame₂) :=
  (joined h).bind fun _ => (note _).bind fun _ => (write _).bind fun _ => pure _

theorem printFormat :
    Abreast o₁ o₂ (ev.printFormat args₁ frame₁) (ev.printFormat args₂ frame₂) :=
  (formatted h).bind fun _ => (write _).bind fun _ => pure _

theorem log (severity : Severity) :
    Abreast o₁ o₂ (ev.log severity args₁ frame₁) (ev.log severity args₂ frame₂) :=
  (joined h).bind fun _ => (note _).bind fun _ => pure _

end Abreast

/-! ## All such procedures -/

/-- Does the procedure use only the values of its arguments, and call nothing? -/
def Builtin.takesValues : Builtin → Bool
  | arithmetic _ | equal | notEqual | compare _ | and | or | not | convert _ => true
  | trim | trimLeft | trimRight | lower | upper | format | split | join => true
  | contains | startsWith | endsWith | replace | byteLength | charCode | charOfCode => true
  | head | last | count | sequence => true
  | print | printLine | printFormat | log _ => true
  | _ => false

/-- None of these runs in its caller's own frame. -/
theorem Builtin.inCallerFrame_of_takesValues {b : Builtin} (h : b.takesValues = true) :
    b.inCallerFrame = false := by
  cases b <;> first | rfl | cases h

theorem Abreast.performBuiltin {o₁ o₂ : World} {ev : Evaluator} {frame₁ frame₂ : FrameId}
    {args₁ args₂ : List Value} {b : Builtin} (hb : b.takesValues = true)
    (h : Args o₁ o₂ ev frame₁ frame₂ args₁ args₂) :
    Abreast o₁ o₂ (ev.performBuiltin b args₁ frame₁) (ev.performBuiltin b args₂ frame₂) := by
  cases b with
  | arithmetic op => exact arithmetic h op
  | equal => exact againstFirst h _ _
  | notEqual => exact againstFirst h _ _
  | compare relation => exact againstFirst h _ _
  | and => exact conjunction h
  | or => exact disjunction h
  | not => exact negation h
  | convert target => exact convert h target
  | trim => exact changeText h _ _
  | trimLeft => exact changeText h _ _
  | trimRight => exact changeText h _ _
  | lower => exact changeText h _ _
  | upper => exact changeText h _ _
  | format => exact format h
  | split => exact split h
  | join => exact join h
  | contains => exact textTest h _ 1 0 fun sought text => containsText text sought
  | startsWith => exact textTest h _ 0 1 startsWithText
  | endsWith => exact textTest h _ 0 1 endsWithText
  | replace => exact replace h
  | byteLength => exact byteLength h
  | charCode => exact charCode h
  | charOfCode => exact charOfCode h
  | head => exact head h
  | last => exact last h
  | count => exact count h
  | sequence => exact sequence h
  | print => exact print h
  | printLine => exact print h
  | printFormat => exact printFormat h
  | log severity => exact log h severity
  | _ => cases hb

end SmallLisp
