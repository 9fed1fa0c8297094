import SmallLisp.Proofs.Inlining
import SmallLisp.Proofs.ValueOperations

/-! # Calling with values

A procedure that is called with values ends as if it were called with symbols that stand for
these values. Native procedures meet the values under names that a frame of their own binds,
and closures get them in the same variables either way. -/

namespace SmallLisp

open EvalM

/-! ## Endings that look alike -/

/-- The same text was written, the script logged the same lines, and the first `n` frames are
the same. -/
structure World.LooksAlike (n : Nat) (u₁ u₂ : World) : Prop where
  output : u₁.journal.output = u₂.journal.output
  scriptLines : u₁.journal.scriptLines = u₂.journal.scriptLines
  frames : ∀ f < n, u₁.store.frames[f]? = u₂.store.frames[f]?

theorem World.LooksAlike.refl (n : Nat) (u : World) : LooksAlike n u u :=
  ⟨rfl, rfl, fun _ _ => rfl⟩

theorem World.LooksAlike.symm {n : Nat} {u₁ u₂ : World} (h : LooksAlike n u₁ u₂) :
    LooksAlike n u₂ u₁ :=
  ⟨h.output.symm, h.scriptLines.symm, fun f hf => (h.frames f hf).symm⟩

/-- What is noted, other than a line of the script, does not show. -/
theorem World.LooksAlike.noted {n : Nat} {u₁ u₂ : World} (h : LooksAlike n u₁ u₂) {e : Note}
    (he : Event.scriptLine? (.noted e) = none) : LooksAlike n u₁ (u₂.noted e) where
  output := by
    rw [h.output]
    simp [World.noted, Journal.output, Event.output]
  scriptLines := by
    rw [h.scriptLines]
    simp [World.noted, Journal.scriptLines, he]
  frames := h.frames

theorem World.LooksAlike.append {n : Nat} {u₁ u₂ : World} (h : LooksAlike n u₁ u₂)
    (events : Journal) : LooksAlike n { u₁ with journal := u₁.journal ++ events }
      { u₂ with journal := u₂.journal ++ events } where
  output := by simp only [Journal.output_append, h.output]
  scriptLines := by simp only [Journal.scriptLines_append, h.scriptLines]
  frames := h.frames

theorem World.LooksAlike.of_beside {n : Nat} {o₁ o₂ u₁ u₂ : World} (h : LooksAlike n o₁ o₂)
    (hu : Beside o₁ o₂ u₁ u₂) : LooksAlike n u₁ u₂ := by
  obtain ⟨events, h₁, h₂⟩ := hu.journal
  obtain ⟨houtput, hlines, hframes⟩ := h.append events
  constructor
  · rwa [h₁, h₂]
  · rwa [h₁, h₂]
  · rwa [hu.store_left, hu.store_right]

/-- The same ending, in worlds that look alike. -/
abbrev EndsAlike {α : Type} (n : Nat) :
    EStateM.Result Stop World α → EStateM.Result Stop World α → Prop :=
  SameEnding (World.LooksAlike n)

namespace EndsAlike

variable {n : Nat} {x y : EvalM Value} {w₁ w₂ : World}

/-- A call folds the value and notes what it returns. -/
theorem returned (h : EndsAlike n (x w₁) (y w₂)) :
    EndsAlike n ((do let v ← x; pure v.unwrap : EvalM Value) w₁)
      ((do let v ← y; note (.returned v.unwrap); pure v.unwrap : EvalM Value) w₂) := by
  simp only [bind, EStateM.bind]
  generalize x w₁ = r₁, y w₂ = r₂ at h ⊢
  cases h with
  | ok alike => exact .ok (alike.noted rfl)
  | error alike => exact .error alike

/-- What is in the journals already may differ as long as it does not show. -/
theorem of_changed {events : Journal} {u : World} {journal : Journal}
    (hjournal : (worldAfter x u).journal = u.journal ++ events)
    (hrun : x { u with journal } =
      changed (fun w => { w with journal := journal ++ events }) (x u))
    (halike : u.LooksAlike n { u with journal }) : EndsAlike n (x u) (x { u with journal }) := by
  obtain ⟨houtput, hlines, -⟩ := halike.append events
  dsimp only at houtput hlines
  rw [← hjournal, worldAfter] at houtput hlines
  rw [hrun]
  cases hend : x u with
  | ok v w =>
    rw [hend] at houtput hlines
    exact .ok ⟨houtput, hlines, fun _ _ => rfl⟩
  | error s w =>
    rw [hend] at houtput hlines
    exact .error ⟨houtput, hlines, fun _ _ => rfl⟩

end EndsAlike

/-! ## Values behind symbols -/

namespace Store

variable {s : Store} {f : FrameId} {name : String} {v : Value}

theorem lt_size_of_get? (h : (s.table .vars f).get? name = some v) : f < s.frames.size := by
  rw [table_eq] at h
  cases hframe : s.frames[f]? with
  | none =>
    rw [hframe] at h
    cases h
  | some frame => exact (Array.getElem?_eq_some_iff.1 hframe).1

/-- The variables of a frame are seen from it. -/
theorem value?_of_get? (h : (s.table .vars f).get? name = some v) :
    s.value? f name = some v := by
  have hframe := Array.getElem?_eq_getElem (lt_size_of_get? h)
  rw [value?, get?, chain_of_some hframe, List.findSome?_cons, h]

/-- They are seen from a new frame inside it, too. -/
theorem value?_child (h : (s.table .vars f).get? name = some v) :
    (s.makeChild f).2.value? s.frames.size name = some v := by
  have hf := lt_size_of_get? h
  rw [value?_inside (frames_makeChild_size s f) hf]
  apply value?_of_get?
  rw [table_congr .vars (frames_makeChild_of_lt hf f), h]

end Store

/-- A symbol that stands for a value in a frame. -/
def Stands (s : Store) (f : FrameId) (form v : Value) : Prop :=
  ∃ name, form = .symbol name ∧ s.value? f name = some v

/-- A symbol that the frame itself binds to a value. -/
def StandsIn (s : Store) (f : FrameId) (form v : Value) : Prop :=
  ∃ name, form = .symbol name ∧ (s.table .vars f).get? name = some v

namespace StandsIn

variable {s t : Store} {f : FrameId} {form v : Value}

theorem lt_size (h : StandsIn s f form v) : f < s.frames.size := by
  obtain ⟨name, -, hv⟩ := h
  exact Store.lt_size_of_get? hv

theorem stands (h : StandsIn s f form v) : Stands s f form v := by
  obtain ⟨name, rfl, hv⟩ := h
  exact ⟨name, rfl, Store.value?_of_get? hv⟩

theorem stands_child (h : StandsIn s f form v) :
    Stands (s.makeChild f).2 s.frames.size form v := by
  obtain ⟨name, rfl, hv⟩ := h
  exact ⟨name, rfl, Store.value?_child hv⟩

theorem of_frame (h : StandsIn s f form v) (heq : t.frames[f]? = s.frames[f]?) :
    StandsIn t f form v := by
  obtain ⟨name, rfl, hv⟩ := h
  exact ⟨name, rfl, by rw [Store.table_congr .vars heq, hv]⟩

end StandsIn

theorem evaluate_of_stands (m : Machine) (fuel : Nat) {f : FrameId} {form v : Value} {w : World}
    (h : Stands w.store f form v) :
    (Evaluator.ofFuel m (fuel + 1)).evaluate form f w = .ok v w := by
  obtain ⟨name, rfl, hv⟩ := h
  exact (valueOf_eq f name w).trans (by rw [hv])

theorem abreast_args {m : Machine} {fuel : Nat} {o₁ o₂ : World} {f₁ f₂ : FrameId}
    {forms₁ forms₂ values : List Value} (h₁ : List.Forall₂ (Stands o₁.store f₁) forms₁ values)
    (h₂ : List.Forall₂ (Stands o₂.store f₂) forms₂ values) :
    Abreast.Args o₁ o₂ (.ofFuel m fuel) f₁ f₂ forms₁ forms₂ := by
  induction h₁ generalizing forms₂ with
  | nil =>
    cases h₂
    exact .nil
  | cons hform₁ _ ih =>
    cases h₂ with
    | cons hform₂ hrest₂ =>
      refine .cons ?_ (ih hrest₂)
      cases fuel with
      | zero => exact .stop _
      | succ fuel =>
        apply Abreast.of_pure
        · exact fun w hw => evaluate_of_stands m fuel (hw ▸ hform₁)
        · exact fun w hw => evaluate_of_stands m fuel (hw ▸ hform₂)

/-- A procedure that uses only values does not notice behind which symbols they are. -/
theorem abreast_perform {m : Machine} {fuel : Nat} {o₁ o₂ : World} {f₁ f₂ : FrameId} {b : Builtin}
    {forms₁ forms₂ values : List Value} (hb : b.takesValues = true)
    (h₁ : List.Forall₂ (Stands o₁.store f₁) forms₁ values)
    (h₂ : List.Forall₂ (Stands o₂.store f₂) forms₂ values) :
    Abreast o₁ o₂ ((Evaluator.ofFuel m fuel).perform b forms₁ f₁)
      ((Evaluator.ofFuel m fuel).perform b forms₂ f₂) := by
  cases fuel with
  | zero => exact .stop _
  | succ fuel => exact Abreast.performBuiltin hb (abreast_args h₁ h₂)

/-! ## Native procedures -/

namespace Evaluator

variable {m : Machine} {fuel : Nat} {b : Builtin} {w : World} {env : FrameId}

theorem argumentName_inj {i j : Nat} : argumentName i = argumentName j ↔ i = j := by
  rw [argumentName, argumentName, String.append_right_inj, Nat.toString_eq_repr,
    Nat.toString_eq_repr, Nat.repr_inj]

/-- Values are held under names of their own, and nothing but the holder changes. -/
theorem holdValues_eq {own : FrameId} (vs : List Value) (i : Nat) (w : World)
    (hown : own < w.size) :
    ∃ s forms, holdValues i vs own w = .ok forms { w with store := s } ∧
      s.frames.size = w.size ∧ (∀ f, f ≠ own → s.frames[f]? = w.store.frames[f]?) ∧
      (∀ j < i, (s.table .vars own).get? (argumentName j) =
        (w.store.table .vars own).get? (argumentName j)) ∧
      List.Forall₂ (StandsIn s own) forms vs := by
  induction vs generalizing i w with
  | nil => exact ⟨w.store, [], rfl, rfl, fun _ _ => rfl, fun _ _ => rfl, .nil⟩
  | cons v vs ih =>
    let w' : World := w.onStore (·.set .vars own (argumentName i) v)
    have hw' : w'.size = w.size := w.store.size_change ..
    have htable := Store.table_set_vars (argumentName i) hown v
    obtain ⟨s, forms, hrun, hsize, hframes, hnames, hforms⟩ := ih (i + 1) w' (hw' ▸ hown)
    refine ⟨s, .symbol (argumentName i) :: forms, ?_, hsize.trans hw', ?_, ?_, ?_⟩
    · have hset : setVariable own (argumentName i) v w = .ok () w' := rfl
      rw [holdValues, bind_of_ok hset, bind_of_ok hrun]
      rfl
    · intro f hf
      rw [hframes f hf, World.store_onStore, Store.frames_set_of_ne _ _ _ _ (Ne.symm hf)]
    · intro j hj
      rw [hnames j (Nat.lt_succ_of_lt hj), World.store_onStore, htable, Table.get?_set,
        if_neg fun h => Nat.ne_of_lt hj (argumentName_inj.1 h)]
    · refine .cons ⟨_, rfl, ?_⟩ hforms
      rw [hnames i (Nat.lt_succ_self i), World.store_onStore, htable, Table.get?_set, if_pos rfl]

theorem applyNative_eq {p : Function} (hin : p.inCallerFrame = false) (args : List Value)
    (frame : FrameId) (body : FrameId → EvalM Value) (w : World) :
    applyNative p args frame body w = body w.size
      ((w.onStore fun s => (s.makeChild frame).2).noted (.nativeCalled p.name args.length)) := by
  rw [applyNative]
  dsimp only
  rw [hin, if_neg Bool.false_ne_true]
  rfl

/-- The values are evaluated from symbols on both sides, each in its own frame. -/
theorem endsAlike_builtin (hb : b.takesValues = true) {forms values : List Value} (e : Note)
    (he : Event.scriptLine? (.noted e) = none)
    (hforms : List.Forall₂ (StandsIn w.store env) forms values) :
    EndsAlike w.size ((ofFuel m fuel).applyValues (.builtin b) values env w)
      ((ofFuel m fuel).apply (.builtin b) forms env (w.noted e)) := by
  -- In `wh` there is the frame to hold the values; the procedure runs in one inside it.
  let wh : World := w.onStore fun s => (s.makeChild env).2
  have hwh : wh.size = w.size + 1 := w.size_onStore_makeChild env
  obtain ⟨s, held, hheld, hsize, hframes, -, hvalues⟩ :=
    holdValues_eq values 0 wh (show w.size < wh.size from hwh ▸ Nat.lt_succ_self _)
  have hin : (Function.builtin b).inCallerFrame = false :=
    Builtin.inCallerFrame_of_takesValues hb
  let o₁ : World := (World.onStore (fun s => (s.makeChild w.size).2) { wh with store := s }).noted
    (.nativeCalled b.name held.length)
  let o₂ : World := ((w.noted e).onStore fun s => (s.makeChild env).2).noted
    (.nativeCalled b.name forms.length)
  have hleft : (ofFuel m fuel).applyValues (.builtin b) values env w =
      (ofFuel m fuel).perform b held s.frames.size o₁ := by
    have hmade : makeChild env w = .ok w.size wh := rfl
    rw [applyValues, bind_of_ok hmade, bind_of_ok hheld, applyNative_eq hin]
    rfl
  have hright : (ofFuel m fuel).apply (.builtin b) forms env (w.noted e) =
      (ofFuel m fuel).perform b forms w.size o₂ := by
    rw [apply, applyNative_eq hin]
    rfl
  have halike : o₁.LooksAlike w.size o₂ := by
    have hstores : World.LooksAlike w.size
        (World.onStore (fun s => (s.makeChild w.size).2) { wh with store := s })
        (w.onStore fun s => (s.makeChild env).2) := by
      refine ⟨rfl, rfl, fun f hf => ?_⟩
      have hf' : f < s.frames.size := hsize ▸ hwh ▸ Nat.lt_succ_of_lt hf
      exact (Store.frames_makeChild_of_lt hf' w.size).trans (hframes f (Nat.ne_of_lt hf))
    exact ((hstores.noted he).noted rfl).symm.noted rfl |>.symm
  have hperform : Abreast o₁ o₂ ((ofFuel m fuel).perform b held s.frames.size)
      ((ofFuel m fuel).perform b forms w.size) :=
    abreast_perform hb (hvalues.imp fun _ _ hv => hv.stands_child)
      (hforms.imp fun _ _ hv => hv.stands_child)
  have hbeside : World.Beside o₁ o₂ o₁ o₂ :=
    ⟨rfl, rfl, rfl, rfl, rfl, rfl, #[], Array.append_empty.symm, Array.append_empty.symm⟩
  rw [hleft, hright]
  exact (hperform o₁ o₂ hbeside).imp fun _ _ => halike.of_beside

/-! ## Closures -/

/-- Binding parameters changes the frame of the call and nothing else. -/
theorem bindValues_eq (own : FrameId) (names : List String) (vs : List Value) :
    ∃ op : Store → Store, (∀ w, bindValues names vs own w = .ok () (w.onStore op)) ∧
      ∀ s f, f ≠ own → (op s).frames[f]? = s.frames[f]? := by
  induction names generalizing vs with
  | nil => exact ⟨id, fun _ => rfl, fun _ _ _ => rfl⟩
  | cons name names ih =>
    cases vs with
    | nil => exact ⟨id, fun _ => rfl, fun _ _ _ => rfl⟩
    | cons v vs =>
      obtain ⟨op, hrun, hframes⟩ := ih vs
      refine ⟨fun s => op (s.set .vars own name v), fun w => ?_, fun s f hf => ?_⟩
      · have hset : setVariable own name v w = .ok () (w.onStore (·.set .vars own name v)) := rfl
        rw [bindValues, bind_of_ok hset, hrun]
        rfl
      · rw [hframes _ f hf, Store.frames_set_of_ne _ _ _ _ (Ne.symm hf)]

/-- Symbols that stand for values bind the parameters to these values. -/
theorem bindForms_eq {own : FrameId} (names : List String) {forms values : List Value} {w : World}
    (hne : forms ≠ [] → own ≠ env) (hforms : List.Forall₂ (StandsIn w.store env) forms values) :
    (ofFuel m (fuel + 1)).bindForms names forms own env w = bindValues names values own w := by
  induction names generalizing forms values w with
  | nil => rfl
  | cons param names ih =>
    cases hforms with
    | nil => rfl
    | @cons form v forms values hform hforms =>
      have hvalue := evaluate_of_stands m fuel hform.stands
      have hset : setVariable own param v w = .ok () (w.onStore (·.set .vars own param v)) := rfl
      rw [bindForms, bindValues, bind_of_ok hvalue, bind_of_ok hset, bind_of_ok hset]
      have hown : own ≠ env := hne (List.cons_ne_nil _ _)
      apply ih fun _ => hown
      exact hforms.imp fun _ _ h => h.of_frame (Store.frames_set_of_ne _ _ _ _ hown)

theorem bindForms_outOfFuel (m : Machine) (env : FrameId) (names : List String)
    (forms : List Value) (own : FrameId) (w : World) :
    (ofFuel m 0).bindForms names forms own env w = .ok () w ∨
      (ofFuel m 0).bindForms names forms own env w = .error .outOfFuel w := by
  cases names with
  | nil => exact .inl rfl
  | cons name names =>
    cases forms with
    | nil => exact .inl rfl
    | cons form forms => exact .inr rfl

/-- The body is evaluated in the same frame, with other notes before it. -/
theorem endsAlike_closure (c : Closure) {forms values : List Value} (e : Note)
    (he : Event.scriptLine? (.noted e) = none)
    (hforms : List.Forall₂ (StandsIn w.store env) forms values) :
    EndsAlike w.size ((ofFuel m fuel).applyValues (.closure c) values env w)
      ((ofFuel m fuel).apply (.closure c) forms env (w.noted e)) := by
  let wc : World := w.onStore fun s => (s.makeChild c.frame).2
  have hmade : makeChild c.frame w = .ok w.size wc := rfl
  have hmade' : makeChild c.frame (w.noted e) = .ok w.size (wc.noted e) := rfl
  obtain ⟨op, hop, hframes⟩ := bindValues_eq w.size c.params values
  have hleft : (ofFuel m fuel).applyValues (.closure c) values env w =
      (ofFuel m fuel).evaluate c.body w.size (wc.onStore op) := by
    rw [applyValues, bind_of_ok hmade, bind_of_ok (hop wc)]
  -- Without fuel, neither side gets as far as the body.
  cases fuel with
  | zero =>
    have hframe : (wc.onStore op).LooksAlike w.size wc :=
      ⟨rfl, rfl, fun f hf => hframes wc.store f (Nat.ne_of_lt hf)⟩
    have hstops : ∀ u, (ofFuel m 0).evaluate c.body w.size u = .error .outOfFuel u :=
      fun _ => rfl
    rw [hleft, hstops, apply, bind_of_ok hmade']
    rcases bindForms_outOfFuel m env c.params forms w.size (wc.noted e) with hbound | hbound
    · rw [bind_of_ok hbound]
      exact .error ((hframe.noted he).noted rfl)
    · simp only [bind, EStateM.bind, hbound]
      exact .error (hframe.noted he)
  | succ fuel =>
    have hne : forms ≠ [] → w.size ≠ env := by
      rintro hsome rfl
      cases hforms with
      | nil => exact hsome rfl
      | cons hform _ => exact Nat.lt_irrefl _ hform.lt_size
    have hkept : List.Forall₂ (StandsIn (wc.noted e).store env) forms values :=
      hforms.imp fun _ _ h => h.of_frame (Store.frames_makeChild_of_lt h.lt_size c.frame)
    have hbound : (ofFuel m (fuel + 1)).bindForms c.params forms w.size env (wc.noted e) =
        .ok () ((wc.noted e).onStore op) :=
      (bindForms_eq c.params hne hkept).trans (hop _)
    have hright : (ofFuel m (fuel + 1)).apply (.closure c) forms env (w.noted e) =
        (ofFuel m (fuel + 1)).evaluate c.body w.size
          (((wc.onStore op).noted e).noted (.closureCalled c.name c.params)) := by
      rw [apply, bind_of_ok hmade', bind_of_ok hbound]
      rfl
    rw [hleft, hright]
    have hbody : ∀ j₁ j₂ n, (journalCoupling j₁ j₂).Lockstep n (journalCoupling j₁ j₂).Admits
        ((ofFuel m (fuel + 1)).evaluate c.body w.size)
        ((ofFuel m (fuel + 1)).evaluate c.body w.size) := fun j₁ j₂ _ =>
      (matched_journalCoupling j₁ j₂ m (fuel + 1)).evaluate (Bounds.admitsForm_all c.body) trivial
    obtain ⟨events, hjournal, hrun⟩ := changed_of_lockstep (hbody _ _ _)
    exact EndsAlike.of_changed hjournal hrun (((World.LooksAlike.refl ..).noted he).noted rfl)

end Evaluator

/-! ## Both ways to call -/

/-- Is the procedure a closure, or a native one that uses only the values of its arguments? -/
def Function.takesValues : Function → Bool
  | .builtin b => b.takesValues
  | .closure _ => true
  | .host _ => false

/-- To call a procedure with values is to call it with names that the caller's frame binds to
these values: the result or the stop is the same, the same text is written, the script logs
the same lines, and all frames that were there before are left the same. -/
theorem callValues_call_symbols {p : Function} (hp : p.takesValues = true) {w : World}
    {env : FrameId} {names : List String} {values : List Value}
    (hbound : List.Forall₂ (fun name v => (w.store.table .vars env).get? name = some v) names
      values) (m : Machine) (fuel : Nat) :
    let byValues := (Evaluator.ofFuel m fuel).callValues p values env
    let bySymbols := (Evaluator.ofFuel m fuel).call p (names.map .symbol) env
    outcome byValues w = outcome bySymbols w ∧
      (worldAfter byValues w).LooksAlike w.size (worldAfter bySymbols w) := by
  intro byValues bySymbols
  have hforms : List.Forall₂ (StandsIn w.store env) (names.map Value.symbol) values :=
    List.forall₂_map_left_iff.2 (hbound.imp fun name v hv => ⟨name, rfl, hv⟩)
  let e : Note := .evaluating p.name (names.map Value.symbol).length
  have happly : EndsAlike w.size ((Evaluator.ofFuel m fuel).applyValues p values env w)
      ((Evaluator.ofFuel m fuel).apply p (names.map .symbol) env (w.noted e)) := by
    cases p with
    | builtin b => exact Evaluator.endsAlike_builtin hp e rfl hforms
    | closure c => exact Evaluator.endsAlike_closure c e rfl hforms
    | host h => cases hp
  have hcalls : EndsAlike w.size (byValues w) (bySymbols w) := EndsAlike.returned happly
  exact hcalls.outcome_and_world

/-- A function and a list that are compared. -/
theorem callValues_call_symbols_equal :
    let w := { World.bare with
      store := (Store.bare.set .vars Store.root "f" (.builtin .head)).set .vars Store.root "xs"
        (.list [.int 1]) }
    let ev := Evaluator.ofFuel .bare 3
    (Function.builtin .equal).takesValues = true ∧
      List.Forall₂ (fun name v => (w.store.table .vars Store.root).get? name = some v)
        ["f", "xs"] [.builtin .head, .list [.int 1]] ∧
      outcome (ev.callValues (.builtin .equal) [.builtin .head, .list [.int 1]] Store.root) w =
        outcome (ev.call (.builtin .equal) [.symbol "f", .symbol "xs"] Store.root) w := by
  intro w ev
  have hp : (Function.builtin .equal).takesValues = true := rfl
  have hbound : List.Forall₂ (fun name v => (w.store.table .vars Store.root).get? name = some v)
      ["f", "xs"] [.builtin .head, .list [.int 1]] := .cons rfl (.cons rfl .nil)
  exact ⟨hp, hbound, (callValues_call_symbols hp hbound .bare 3).1⟩

end SmallLisp
