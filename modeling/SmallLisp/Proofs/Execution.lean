import SmallLisp.Proofs.Frames
import SmallLisp.Session

/-! # Execution to a value

A computation gives a value from a store if it ends without a stop in every world that
has this store. There is one rule for each step that a computation is made of, and one
for each way in which a procedure is called: what is asked of the result moves backwards
through the steps. -/

namespace SmallLisp

open EvalM

namespace EvalM

theorem get_eq (w : World) : (get : EvalM World) w = .ok w w := rfl

theorem bind_of_ok {α β : Type} {x : EvalM α} {f : α → EvalM β} {w u : World} {a : α}
    (h : x w = .ok a u) : (x >>= f) w = f a u := by
  simp only [Bind.bind, EStateM.bind, h]

theorem valueOf_eq (f : FrameId) (name : String) (w : World) :
    valueOf f name w = match w.store.value? f name with
      | some v => .ok v w
      | none => .error (.error (.undeclared name)) w := by
  rw [valueOf, bind_of_ok (get_eq w)]
  cases w.store.value? f name <;> rfl

theorem functionOf_eq (f : FrameId) (name : String) (w : World) :
    functionOf f name w = match w.store.function? f name with
      | some p => .ok p w
      | none => .error (.error (.noFunction name)) w := by
  rw [functionOf, bind_of_ok (get_eq w)]
  cases w.store.function? f name <;> rfl

end EvalM

namespace Evaluator

variable {α : Type} (ev : Evaluator)

theorem argument_bind {args : List Value} {i : Nat} {form : Value}
    (h : args[i]? = some form) (procedure : String) (frame : FrameId)
    (finish : Value → EvalM α) :
    ev.argument procedure args i frame >>= finish = ev.evaluate form frame >>= finish := by
  rw [argument, h]

theorem textArgument_bind {args : List Value} {i : Nat} {form : Value}
    (h : args[i]? = some form) (procedure : String) (frame : FrameId)
    (finish : String → EvalM α) :
    ev.textArgument procedure args i frame >>= finish =
      ev.evaluate form frame >>= fun v => finish v.display := by
  rw [textArgument, bind_assoc, ev.argument_bind h]
  simp only [pure_bind]

theorem listArgument_bind {args : List Value} {i : Nat} {form : Value}
    (h : args[i]? = some form) (procedure : String) (frame : FrameId)
    (finish : List Value → EvalM α) :
    ev.listArgument procedure args i frame >>= finish =
      ev.evaluate form frame >>= fun v => finish v.toItems := by
  rw [listArgument, bind_assoc, ev.argument_bind h]
  simp only [pure_bind]

theorem evaluateAll_nil_bind (frame : FrameId) (finish : List Value → EvalM α) :
    ev.evaluateAll [] frame >>= finish = finish [] := by
  rw [evaluateAll, pure_bind]

theorem evaluateAll_cons_bind (form : Value) (forms : List Value) (frame : FrameId)
    (finish : List Value → EvalM α) :
    ev.evaluateAll (form :: forms) frame >>= finish =
      ev.evaluate form frame >>= fun v =>
        ev.evaluateAll forms frame >>= fun vs => finish (v :: vs) := by
  rw [evaluateAll, bind_assoc]
  simp only [bind_assoc, pure_bind]

theorem evaluateAll_append (forms rest : List Value) (frame : FrameId) :
    ev.evaluateAll (forms ++ rest) frame = (do
      let vs ← ev.evaluateAll forms frame
      let us ← ev.evaluateAll rest frame
      pure (vs ++ us)) := by
  induction forms with
  | nil => simp [evaluateAll]
  | cons form forms ih => simp [evaluateAll, ih]

end Evaluator

/-- From every world with the store, the computation gives a value; `Q` holds of it and
of the store by then. -/
def Gives {α : Type} (x : EvalM α) (s : Store) (Q : α → Store → Prop) : Prop :=
  ∀ w : World, w.store = s → ∃ a u, x w = .ok a u ∧ Q a u.store

namespace Gives

section

variable {α β : Type} {s : Store}

theorem imp {P Q : α → Store → Prop} {x : EvalM α} (h : Gives x s P)
    (hq : ∀ a t, P a t → Q a t) : Gives x s Q := by
  intro w hw
  obtain ⟨a, u, hrun, hp⟩ := h w hw
  exact ⟨a, u, hrun, hq a u.store hp⟩

theorem pure {Q : α → Store → Prop} {a : α} (h : Q a s) : Gives (Pure.pure a) s Q := by
  rintro w rfl
  exact ⟨a, w, rfl, h⟩

theorem bind {Q : β → Store → Prop} {x : EvalM α} {f : α → EvalM β}
    (h : Gives x s fun a t => Gives (f a) t Q) : Gives (x >>= f) s Q := by
  intro w hw
  obtain ⟨a, u, hrun, hrest⟩ := h w hw
  obtain ⟨b, v, hlast, hq⟩ := hrest u rfl
  refine ⟨b, v, ?_, hq⟩
  rw [bind_of_ok hrun, hlast]

theorem note {Q : Unit → Store → Prop} (e : Note) (h : Q () s) : Gives (EvalM.note e) s Q := by
  rintro w rfl
  exact ⟨(), _, rfl, h⟩

theorem freshId {Q : Nat → Store → Prop} (h : ∀ id, Q id s) : Gives EvalM.freshId s Q := by
  rintro w rfl
  exact ⟨_, _, rfl, h w.nextId⟩

/-- An integer needs no mark. -/
theorem marked_int {Q : Value → Store → Prop} {n : Int} (h : Q (.int n) s) :
    Gives (EvalM.marked (.int n)) s Q := by
  rintro w rfl
  exact ⟨_, _, rfl, h⟩

theorem makeChild {Q : FrameId → Store → Prop} {outer : FrameId}
    (h : Q s.frames.size (s.makeChild outer).2) : Gives (EvalM.makeChild outer) s Q := by
  rintro w rfl
  exact ⟨_, _, rfl, h⟩

theorem updateVariable {Q : Unit → Store → Prop} {f : FrameId} {name : String} {v : Value}
    (h : Q () (s.update .vars f name v)) : Gives (EvalM.updateVariable f name v) s Q := by
  rintro w rfl
  exact ⟨_, _, rfl, h⟩

theorem defineProcedure {Q : Unit → Store → Prop} {f : FrameId} {name : String} {p : Function}
    (h : Q () (s.set .procs f name p)) : Gives (EvalM.defineProcedure f name p) s Q := by
  rintro w rfl
  exact ⟨_, _, rfl, h⟩

theorem valueOf {Q : Value → Store → Prop} {f : FrameId} {name : String} {v : Value}
    (hv : s.value? f name = some v) (h : Q v s) : Gives (EvalM.valueOf f name) s Q := by
  rintro w rfl
  exact ⟨v, w, by rw [valueOf_eq, hv], h⟩

theorem functionOf {Q : Function → Store → Prop} {f : FrameId} {name : String} {p : Function}
    (hp : s.function? f name = some p) (h : Q p s) : Gives (EvalM.functionOf f name) s Q := by
  rintro w rfl
  exact ⟨p, w, by rw [functionOf_eq, hp], h⟩

end

/-! ## Forms -/

section

variable {m : Machine} {fuel : Nat} {s : Store} {Q : Value → Store → Prop} {frame : FrameId}
  {name : String} {args : List Value}

theorem evaluate_int {n : Int} (h : Q (.int n) s) :
    Gives ((Evaluator.ofFuel m (fuel + 1)).evaluate (.int n) frame) s Q :=
  pure h

theorem evaluate_symbol {v : Value} (hv : s.value? frame name = some v) (h : Q v s) :
    Gives ((Evaluator.ofFuel m (fuel + 1)).evaluate (.symbol name) frame) s Q :=
  valueOf hv h

/-- A call notes that it starts and what it returns, and folds the value. -/
theorem call {ev : Evaluator} {p : Function} (h : Gives (ev.apply p args frame) s fun v t =>
    Q v.unwrap t) : Gives (ev.call p args frame) s Q := by
  apply bind
  apply note
  apply bind
  refine h.imp fun v t hq => ?_
  apply bind
  apply note
  exact pure hq

theorem callNamed {ev : Evaluator} {p : Function} (hp : s.function? frame name = some p)
    (h : Gives (ev.call p args frame) s Q) : Gives (ev.callNamed name args frame) s Q := by
  apply bind
  exact functionOf hp h

theorem applyNative_inCallerFrame {p : Function} {body : FrameId → EvalM Value}
    (hin : p.inCallerFrame = true) (h : Gives (body frame) s Q) :
    Gives (Evaluator.applyNative p args frame body) s Q := by
  unfold Evaluator.applyNative
  dsimp only
  rw [if_pos hin]
  apply bind
  apply pure
  apply bind
  apply note
  exact h

theorem applyNative_inOwnFrame {p : Function} {body : FrameId → EvalM Value}
    (hin : p.inCallerFrame = false) (h : Gives (body s.frames.size) (s.makeChild frame).2 Q) :
    Gives (Evaluator.applyNative p args frame body) s Q := by
  unfold Evaluator.applyNative
  dsimp only
  rw [if_neg (by rw [hin]; exact Bool.false_ne_true)]
  apply bind
  apply makeChild
  apply bind
  apply note
  exact h

/-- A built-in procedure that runs in the frame of its caller. -/
theorem evaluate_inCallerFrame {b : Builtin} (hin : b.inCallerFrame = true)
    (hp : s.function? frame name = some (.builtin b))
    (h : Gives ((Evaluator.ofFuel m fuel).performBuiltin b args frame) s fun v t => Q v.unwrap t) :
    Gives ((Evaluator.ofFuel m (fuel + 2)).evaluate (.list (.symbol name :: args)) frame) s Q := by
  apply callNamed hp
  apply call
  exact applyNative_inCallerFrame (p := .builtin b) hin h

/-- A built-in procedure that runs in a frame of its own. -/
theorem evaluate_inOwnFrame {b : Builtin} (hin : b.inCallerFrame = false)
    (hp : s.function? frame name = some (.builtin b))
    (h : Gives ((Evaluator.ofFuel m fuel).performBuiltin b args s.frames.size)
      (s.makeChild frame).2 fun v t => Q v.unwrap t) :
    Gives ((Evaluator.ofFuel m (fuel + 2)).evaluate (.list (.symbol name :: args)) frame) s Q := by
  apply callNamed hp
  apply call
  exact applyNative_inOwnFrame (p := .builtin b) hin h

/-- A closure that is called without arguments runs in a new frame inside its own. -/
theorem evaluate_closure {c : Closure} (hp : s.function? frame name = some (.closure c))
    (h : Gives ((Evaluator.ofFuel m fuel).evaluate c.body s.frames.size)
      (s.makeChild c.frame).2 fun v t => Q v.unwrap t) :
    Gives ((Evaluator.ofFuel m (fuel + 1)).evaluate (.list [.symbol name]) frame) s Q := by
  apply callNamed hp
  apply call
  apply bind
  apply makeChild
  apply bind
  have hnone : (Evaluator.ofFuel m fuel).bindForms c.params [] s.frames.size frame =
      Pure.pure () := by
    cases c.params <;> rfl
  rw [hnone]
  apply pure
  apply bind
  apply note
  exact h

/-- A block whose first form gives no function. -/
theorem evaluate_block {inner rest : List Value}
    (h : Gives ((Evaluator.ofFuel m fuel).evaluate (.list inner) frame) s fun v t =>
      v.function? = none ∧ Gives ((Evaluator.ofFuel m fuel).evaluateLast v rest frame) t
        fun v u => Q v.unwrap u) :
    Gives ((Evaluator.ofFuel m (fuel + 1)).evaluate (.list (.list inner :: rest)) frame) s Q := by
  apply bind
  refine h.imp ?_
  rintro v t ⟨hnone, hrest⟩
  rw [hnone]
  apply bind
  exact hrest.imp fun v u hq => pure hq

theorem evaluateLast_singleton {ev : Evaluator} {v form : Value}
    (h : Gives (ev.evaluate form frame) s Q) : Gives (ev.evaluateLast v [form] frame) s Q := by
  apply bind
  exact h.imp fun v t hq => pure hq

end

/-! ## Built-in procedures -/

section

variable {ev : Evaluator} {s : Store} {frame : FrameId} {name : String}

theorem evaluateAll_cons {Q : List Value → Store → Prop} {form : Value} {forms : List Value}
    (h : Gives (ev.evaluate form frame) s fun v t =>
      Gives (ev.evaluateAll forms frame) t fun vs u => Q (v :: vs) u) :
    Gives (ev.evaluateAll (form :: forms) frame) s Q := by
  apply bind
  refine h.imp fun v t hrest => ?_
  apply bind
  exact hrest.imp fun vs u hq => pure hq

theorem evaluateAll_append {Q : List Value → Store → Prop} {forms rest : List Value}
    (h : Gives (ev.evaluateAll forms frame) s fun vs t =>
      Gives (ev.evaluateAll rest frame) t fun us u => Q (vs ++ us) u) :
    Gives (ev.evaluateAll (forms ++ rest) frame) s Q := by
  rw [ev.evaluateAll_append]
  apply bind
  refine h.imp fun vs t hrest => ?_
  apply bind
  exact hrest.imp fun us u hq => pure hq

variable {Q : Value → Store → Prop}

/-- The variable gets the value of the form in the store that its evaluation leaves. -/
theorem define {form : Value} (h : Gives (ev.evaluate form frame) s fun v t =>
    Q v (t.update .vars frame name v)) : Gives (ev.define [.symbol name, form] frame) s Q := by
  apply bind
  apply pure
  apply bind
  refine h.imp fun v t hq => ?_
  apply bind
  apply note
  apply bind
  apply updateVariable
  exact pure hq

theorem makeFunction_anonymous {body : Value}
    (h : ∀ id, Q (.closure id anonymous [] body frame) s) :
    Gives (makeFunction [.list [], body] frame) s Q := by
  apply bind
  apply pure
  apply bind
  apply freshId
  intro id
  exact pure (h id)

theorem makeFunction_named {body : Value} (hname : name ≠ anonymous)
    (h : ∀ id, Q (.closure id name [] body frame)
      (s.set .procs frame name (.closure ⟨id, name, [], body, frame⟩))) :
    Gives (makeFunction [.symbol name, .list [], body] frame) s Q := by
  apply bind
  apply pure
  apply bind
  apply pure
  apply bind
  apply freshId
  intro id
  dsimp only
  rw [if_neg hname]
  apply bind
  apply note
  apply bind
  apply defineProcedure
  exact pure (h id)

/-- The value of an operator whose operands have an integer for their fold. -/
theorem arithmetic_int {op : Arithmetic} {form : Value} {forms : List Value} {n : Int}
    (h : Gives (ev.evaluateAll (form :: forms) frame) s fun vs t =>
      op.onOperands vs = .ok (.int n) ∧ Q (.int n) t) :
    Gives (ev.arithmetic op (form :: forms) frame) s Q := by
  apply bind
  have hsome : require op.name 1 (form :: forms) = Pure.pure () := by
    rw [require, if_neg]
    simp only [List.length_cons, Nat.not_lt, Nat.le_add_left]
  rw [hsome]
  apply pure
  apply bind
  refine h.imp ?_
  rintro vs t ⟨hfold, hq⟩
  apply bind
  rw [hfold]
  apply pure
  exact marked_int hq

end

/-! ## New sessions -/

/-- What is defined under a name of its own stays as it is while the others are defined. -/
theorem defineAll {bs : List Builtin} (hnodup : (bs.map Builtin.name).Nodup)
    (hroot : Store.root < s.frames.size) :
    Gives (SmallLisp.defineAll Store.root bs) s fun _ t =>
      t.table .vars Store.root = s.table .vars Store.root ∧
      (∀ b ∈ bs, (t.table .procs Store.root).get? b.name = some (.builtin b)) ∧
      ∀ name ∉ bs.map Builtin.name,
        (t.table .procs Store.root).get? name = (s.table .procs Store.root).get? name := by
  induction bs generalizing s with
  | nil => exact pure ⟨rfl, fun b hb => absurd hb List.not_mem_nil, fun _ _ => rfl⟩
  | cons b bs ih =>
    rw [List.map_cons, List.nodup_cons] at hnodup
    apply bind
    apply bind
    apply note
    apply defineProcedure
    have hsize : Store.root < (s.set .procs Store.root b.name (.builtin b)).frames.size := by
      rwa [Store.set, Store.size_change]
    refine (ih hnodup.2 hsize).imp ?_
    rintro - t ⟨hvars, hprocs, hothers⟩
    refine ⟨hvars.trans (Store.table_vars_set_procs ..), ?_, ?_⟩
    · rintro b' (_ | ⟨_, hb'⟩)
      · rw [hothers _ hnodup.1, Store.table_set_procs _ hroot, Table.get?_set, if_pos rfl]
      · exact hprocs b' hb'
    · intro name hname
      rw [List.map_cons, List.mem_cons, not_or] at hname
      rw [hothers _ hname.2, Store.table_set_procs _ hroot, Table.get?_set, if_neg hname.1]

end Gives

/-- A new session binds no variables, and all built-in procedures under their names. -/
theorem World.tables_fresh (input : Input) :
    (World.fresh input).store.table .vars Store.root = .empty ∧
      (∀ b : Builtin,
        ((World.fresh input).store.table .procs Store.root).get? b.name = some (.builtin b)) ∧
      ∀ name, (∀ b : Builtin, b.name ≠ name) →
        ((World.fresh input).store.table .procs Store.root).get? name = none := by
  have hgives := Gives.defineAll (s := .bare) Builtin.nodup_name_all Nat.zero_lt_one
  obtain ⟨a, u, hrun, hvars, hprocs, hothers⟩ := hgives (World.initial input) rfl
  have hfresh : World.fresh input = u := by
    unfold World.fresh defineBuiltins
    rw [hrun]
  rw [hfresh]
  refine ⟨hvars, fun b => hprocs b (Builtin.mem_all b), fun name hname => ?_⟩
  apply hothers
  intro hmem
  obtain ⟨b, -, hb⟩ := List.mem_map.1 hmem
  exact hname b hb

theorem World.function?_fresh (input : Input) (b : Builtin) :
    (World.fresh input).store.function? Store.root b.name = some (.builtin b) :=
  Store.function?_root ((World.tables_fresh input).2.1 b)

end SmallLisp
