import Mathlib
import SmallLisp.Proofs.CallingWithValues

/-! # Folded lists

A call whose body gives a list of one element gives that element. Where the list is used as
a list, this makes no difference, unless the element is itself a list. -/

namespace SmallLisp

open EvalM

/-! ## Where lists come from -/

/-- Does the body of the procedure give a list? -/
def Builtin.makesList : Builtin → Bool
  | map | filter | sequence | split | convert .list => true
  | _ => false

/-- A list of one element that is itself a list. -/
def IsNested (ys : List Value) : Prop := ∃ zs, ys = [.list zs]

theorem toItems_unwrap {ys : List Value} (h : ¬ IsNested ys) :
    (Value.list ys).unwrap.toItems = ys := by
  apply Value.toItems_unwrap_list
  rintro v rfl
  cases v with
  | list zs => exact absurd ⟨zs, rfl⟩ h
  | _ => rfl

namespace Evaluator

variable {ev : Evaluator} {args : List Value} {frame : FrameId} {w u : World} {v : Value}

theorem map_eq_ok (h : ev.map args frame w = .ok v u) : ∃ ys, v = .list ys := by
  obtain ⟨p, w₁, -, h⟩ := exists_of_bind_ok h
  obtain ⟨items, w₂, -, h⟩ := exists_of_bind_ok h
  obtain ⟨vs, w₃, -, h⟩ := exists_of_bind_ok h
  cases h
  exact ⟨vs, rfl⟩

/-- The items of which the verdict is true. -/
def accepted (items verdicts : List Value) : List Value :=
  ((items.zip verdicts).filter fun entry => entry.2.truth).map Prod.fst

theorem filterItems_eq (p : Function) (frame : FrameId) (items : List Value) :
    ev.filterItems p frame items = (do
      let verdicts ← ev.mapItems p frame items
      pure (accepted items verdicts) : EvalM (List Value)) := by
  induction items with
  | nil => simp [filterItems, mapItems, accepted]
  | cons item items ih =>
    simp only [filterItems, mapItems, ih, bind_assoc, pure_bind]
    congr 1
    funext verdict
    congr 1
    funext verdicts
    by_cases h : verdict.truth = true <;> simp [accepted, h]

theorem length_mapItems {p : Function} {items verdicts : List Value}
    (h : ev.mapItems p frame items w = .ok verdicts u) : verdicts.length = items.length := by
  induction items generalizing verdicts w with
  | nil =>
    cases h
    rfl
  | cons item items ih =>
    obtain ⟨verdict, w₁, -, h⟩ := exists_of_bind_ok h
    obtain ⟨verdicts, w₂, hrest, h⟩ := exists_of_bind_ok h
    cases h
    rw [List.length_cons, List.length_cons, ih hrest]

theorem length_accepted {items verdicts : List Value} (h : verdicts.length = items.length) :
    (accepted items verdicts).length = verdicts.countP Value.truth := by
  rw [accepted, List.length_map, ← List.countP_eq_length_filter]
  have hsecond : (items.zip verdicts).map Prod.snd = verdicts :=
    List.map_snd_zip (Nat.le_of_eq h)
  calc
    (items.zip verdicts).countP (fun entry => entry.2.truth) =
        ((items.zip verdicts).map Prod.snd).countP Value.truth := by
      rw [List.countP_map]
      rfl
    _ = verdicts.countP Value.truth := by rw [hsecond]

/-- What a filter has asked of each item when it is done. -/
def Filters (ev : Evaluator) (args : List Value) (frame : FrameId) (w : World)
    (verdicts ys : List Value) (u : World) : Prop :=
  ∃ p items w₁ w₂, ev.functionArgument "list.filter" args 0 frame w = .ok p w₁ ∧
    ev.listArgument "list.filter" args 1 frame w₁ = .ok items w₂ ∧
    ev.mapItems p frame items w₂ = .ok verdicts u ∧ ys = accepted items verdicts

theorem filter_eq_ok (h : ev.filter args frame w = .ok v u) :
    ∃ verdicts ys, v = .list ys ∧ ev.Filters args frame w verdicts ys u := by
  obtain ⟨p, w₁, hp, h⟩ := exists_of_bind_ok h
  obtain ⟨items, w₂, hitems, h⟩ := exists_of_bind_ok h
  rw [filterItems_eq] at h
  obtain ⟨ys, w₃, hys, h⟩ := exists_of_bind_ok h
  obtain ⟨verdicts, w₄, hverdicts, hys⟩ := exists_of_bind_ok hys
  cases hys
  cases h
  exact ⟨verdicts, _, rfl, p, items, w₁, w₂, hp, hitems, hverdicts, rfl⟩

theorem Filters.length_eq {verdicts ys : List Value} (h : ev.Filters args frame w verdicts ys u) :
    ys.length = verdicts.countP Value.truth := by
  obtain ⟨p, items, w₁, w₂, -, -, hverdicts, rfl⟩ := h
  exact length_accepted (length_mapItems hverdicts)

theorem not_isNested_sequenceItems {start stop step : Int} {items : List Value}
    (h : sequenceItems start stop step = .ok items) : ¬ IsNested items := by
  simp only [sequenceItems] at h
  split at h
  · cases h
  · split at h
    · cases h
    · cases h
      rintro ⟨zs, hnested⟩
      revert hnested
      cases sequenceLength start stop step <;> rintro ⟨⟩

theorem sequence_eq_ok (h : ev.sequence args frame w = .ok v u) :
    ∃ ys, v = .list ys ∧ ¬ IsNested ys := by
  obtain ⟨start, w₁, -, h⟩ := exists_of_bind_ok h
  obtain ⟨stop, w₂, -, h⟩ := exists_of_bind_ok h
  obtain ⟨step, w₃, h⟩ := exists_of_choose_ok h
  beta_reduce at h
  split at h
  · cases h
  · cases hitems : sequenceItems start stop step with
    | ok items =>
      rw [hitems] at h
      cases h
      exact ⟨items, rfl, not_isNested_sequenceItems hitems⟩
    | error fault =>
      rw [hitems] at h
      cases h

theorem not_isNested_strings (pieces : List (List Char)) :
    ¬ IsNested (pieces.map fun piece => .string (String.ofList piece)) := by
  rintro ⟨zs, h⟩
  match pieces, h with
  | [_], h => cases h

theorem split_eq_ok (h : ev.split args frame w = .ok v u) :
    ∃ ys, v = .list ys ∧ ¬ IsNested ys := by
  obtain ⟨text, w₁, -, h⟩ := exists_of_bind_ok h
  split at h
  · cases h
    exact ⟨_, rfl, not_isNested_strings _⟩
  · obtain ⟨separator, w₂, -, h⟩ := exists_of_bind_ok h
    simp only [splitText] at h
    split at h
    · cases h
    · cases h
      exact ⟨_, rfl, not_isNested_strings _⟩

theorem convert_list_eq_ok (h : ev.convert .list args frame w = .ok v u) :
    ∃ ys, v = .list ys := by
  obtain ⟨item, w₁, -, h⟩ := exists_of_bind_ok h
  obtain ⟨list, w₂, hlist, h⟩ := exists_of_bind_ok h
  cases hlist
  cases h
  exact ⟨_, rfl⟩

end Evaluator

/-- What the body of such a procedure gives is a list, and a filter keeps the items with a true
verdict. Sequences and cut texts hold no lists. -/
theorem Builtin.performBuiltin_makesList {b : Builtin} (hb : b.makesList = true) {ev : Evaluator}
    {args : List Value} {frame : FrameId} {w u : World} {v : Value}
    (h : ev.performBuiltin b args frame w = .ok v u) :
    ∃ ys, v = .list ys ∧ (b = .sequence ∨ b = .split → ¬ IsNested ys) ∧
      (b = .filter → ∃ verdicts, ev.Filters args frame w verdicts ys u) := by
  cases b with
  | map =>
    obtain ⟨ys, rfl⟩ := Evaluator.map_eq_ok h
    exact ⟨ys, rfl, by simp, by simp⟩
  | filter =>
    obtain ⟨verdicts, ys, rfl, hfilters⟩ := Evaluator.filter_eq_ok h
    exact ⟨ys, rfl, by simp, fun _ => ⟨verdicts, hfilters⟩⟩
  | sequence =>
    obtain ⟨ys, rfl, hys⟩ := Evaluator.sequence_eq_ok h
    exact ⟨ys, rfl, fun _ => hys, by simp⟩
  | split =>
    obtain ⟨ys, rfl, hys⟩ := Evaluator.split_eq_ok h
    exact ⟨ys, rfl, fun _ => hys, by simp⟩
  | convert target =>
    cases target with
    | list =>
      obtain ⟨ys, rfl⟩ := Evaluator.convert_list_eq_ok h
      exact ⟨ys, rfl, by simp, by simp⟩
    | _ => cases hb
  | _ => cases hb

/-! ## Where lists are used -/

/-- A way to use the value of a form as a list, with the other arguments given. -/
inductive ListUse where
  | count (rest : List Value)
  | head (rest : List Value)
  | last (rest : List Value)
  | map (procedure : Value) (rest : List Value)
  | filter (procedure : Value) (rest : List Value)
  | join (rest : List Value)
  | forEach (variableForm body : Value) (rest : List Value)

namespace ListUse

def builtin : ListUse → Builtin
  | count _ => .count
  | head _ => .head
  | last _ => .last
  | map .. => .map
  | filter .. => .filter
  | join _ => .join
  | forEach .. => .forEach

/-- The arguments, with a form whose value serves as the list. -/
def args (form : Value) : ListUse → List Value
  | count rest | head rest | last rest | join rest => form :: rest
  | map procedure rest | filter procedure rest => procedure :: form :: rest
  | forEach variableForm body rest => variableForm :: form :: body :: rest

/-- What comes before the list is evaluated. The result is what will be done with the items. -/
def prepare (ev : Evaluator) (frame : FrameId) : ListUse → EvalM (List Value → EvalM Value)
  | count _ => pure fun items => pure (.int items.length)
  | head _ => pure fun items =>
    match items.head? with
    | some v => pure v
    | none => fail (.emptyList "head")
  | last _ => pure fun items =>
    match items.getLast? with
    | some v => pure v
    | none => fail (.emptyList "last")
  | map procedure rest => do
    let p ← ev.functionArgument "list.map" (procedure :: .nil :: rest) 0 frame
    pure fun items => do
      let vs ← ev.mapItems p frame items
      pure (.list vs)
  | filter procedure rest => do
    let p ← ev.functionArgument "list.filter" (procedure :: .nil :: rest) 0 frame
    pure fun items => do
      let vs ← ev.filterItems p frame items
      pure (.list vs)
  | join rest => pure fun items => do
    let separator ← ev.textArgument "str.join" (.nil :: rest) 1 frame
    pure (.string (joinTexts items separator))
  | forEach variableForm body _ => do
    let name ← ofExcept (loopVariable variableForm)
    pure fun items => ev.forEach name body frame items

/-- Every use evaluates the form once, and then depends on its value as a list only. -/
theorem performBuiltin_eq (ev : Evaluator) (use : ListUse) (form : Value) (frame : FrameId) :
    ev.performBuiltin use.builtin (use.args form) frame = (do
      let finish ← use.prepare ev frame
      let v ← ev.evaluate form frame
      finish v.toItems : EvalM Value) := by
  cases use with
  | count rest => exact ev.listArgument_bind rfl ..
  | head rest => exact ev.listArgument_bind rfl ..
  | last rest => exact ev.listArgument_bind rfl ..
  | map procedure rest =>
    rw [prepare, bind_assoc]
    simp only [pure_bind]
    exact bind_congr fun p => ev.listArgument_bind rfl ..
  | filter procedure rest =>
    rw [prepare, bind_assoc]
    simp only [pure_bind]
    exact bind_congr fun p => ev.listArgument_bind rfl ..
  | join rest => exact ev.listArgument_bind rfl ..
  | forEach variableForm body rest =>
    rw [prepare, bind_assoc]
    rfl

end ListUse

/-- No procedure that makes lists runs in its caller's own frame. -/
theorem Builtin.inCallerFrame_of_makesList {b : Builtin} (h : b.makesList = true) :
    b.inCallerFrame = false := by
  cases b <;> first | rfl | cases h

theorem Evaluator.call_of_apply {ev : Evaluator} {p : Function} {args : List Value}
    {frame : FrameId} {w u : World} {v : Value}
    (h : ev.apply p args frame (w.noted (.evaluating p.name args.length)) = .ok v u) :
    ev.call p args frame w = .ok v.unwrap (u.noted (.returned v.unwrap)) := by
  have hnote : note (.evaluating p.name args.length) w =
      .ok () (w.noted (.evaluating p.name args.length)) := rfl
  rw [call, bind_of_ok hnote, bind_of_ok h]
  rfl

/-- Let a list be used that comes from a call of a procedure that makes lists, however this
call is written. Unless the body gives a list of one element that is itself a list, the use
ends with the same result and the same world as on the list that the body gives, so that the
items a filter has accepted are counted right. Otherwise the element is used in its place.
Sequences and cut texts are never folded into a list. -/
theorem performBuiltin_folded {ev : Evaluator} {use : ListUse} {form v : Value} {frame : FrameId}
    {w w₁ u : World} {finish : List Value → EvalM Value} {m : Machine} {fuel : Nat}
    {producer : Builtin} {args : List Value} (hproducer : producer.makesList = true)
    (hprepare : use.prepare ev frame w = .ok finish w₁)
    (hform : ev.evaluate form frame w₁ =
      (Evaluator.ofFuel m (fuel + 1)).call (.builtin producer) args frame w₁)
    (hbody : (Evaluator.ofFuel m (fuel + 1)).apply (.builtin producer) args frame
      (w₁.noted (.evaluating producer.name args.length)) = .ok v u) :
    let run := fun form => ev.performBuiltin use.builtin (use.args form) frame w
    let entered := ((w₁.noted (.evaluating producer.name args.length)).onStore
      fun s => (s.makeChild frame).2).noted (.nativeCalled producer.name args.length)
    ∃ ys after, v = .list ys ∧ ev.evaluate form frame w₁ = .ok (Value.list ys).unwrap after ∧
      (¬ IsNested ys → run form = finish ys after ∧
        ∀ other, ev.evaluate other frame w₁ = .ok (.list ys) after → run form = run other) ∧
      (∀ zs, ys = [.list zs] → run form = finish zs after) ∧
      (producer = .sequence ∨ producer = .split → ¬ IsNested ys) ∧
      (producer = .filter → ∃ verdicts,
        (Evaluator.ofFuel m fuel).Filters args w₁.size entered verdicts ys u ∧
        ∀ rest, use = .count rest → ¬ IsNested ys →
          run form = .ok (.int (verdicts.countP Value.truth)) after) := by
  intro run entered
  have hperformed : (Evaluator.ofFuel m fuel).performBuiltin producer args w₁.size entered =
      .ok v u := by
    have hin : (Function.builtin producer).inCallerFrame = false :=
      Builtin.inCallerFrame_of_makesList hproducer
    rw [Evaluator.apply, Evaluator.applyNative_eq hin] at hbody
    exact hbody
  obtain ⟨ys, rfl, hflat, hfilter⟩ := Builtin.performBuiltin_makesList hproducer hperformed
  have hcall := hform.trans (Evaluator.call_of_apply hbody)
  have hrun : ∀ form v after, ev.evaluate form frame w₁ = .ok v after →
      run form = finish v.toItems after := by
    intro form v after hv
    simp only [run]
    rw [ListUse.performBuiltin_eq, bind_of_ok hprepare, bind_of_ok hv]
  have hfolded := hrun form _ _ hcall
  have hsame : ¬ IsNested ys → run form = finish ys _ := fun hys =>
    hfolded.trans (by rw [toItems_unwrap hys])
  refine ⟨ys, _, rfl, hcall, ?same, ?nested, hflat, ?accepted⟩
  case same =>
    exact fun hys => ⟨hsame hys, fun other hother => (hsame hys).trans (hrun other _ _ hother).symm⟩
  case nested =>
    rintro zs rfl
    exact hfolded
  case accepted =>
    intro hproducer
    obtain ⟨verdicts, hverdicts⟩ := hfilter hproducer
    refine ⟨verdicts, hverdicts, ?_⟩
    rintro rest rfl hys
    cases hprepare
    rw [hsame hys, ← hverdicts.length_eq]
    rfl

/-- `(list.len (list.filter cast.bool ("" 7)))` is 1, although the filter's list is folded. -/
theorem performBuiltin_folded_filter :
    let w := World.fresh ⟨[], false⟩
    let args : List Value := [.symbol "cast.bool", .list [.string "", .int 7]]
    let form : Value := .list (.symbol "list.filter" :: args)
    let ev := Evaluator.ofFuel .bare 8
    ∃ after, ev.evaluate form Store.root w = .ok (.int 7) after ∧
      ev.performBuiltin .count [form] Store.root w = .ok (.int 1) after := by
  intro w args form ev
  have hform : ev.evaluate form Store.root w =
      (Evaluator.ofFuel .bare 7).call (.builtin .filter) args Store.root w :=
    Evaluator.callNamed_of_function? (World.function?_fresh ⟨[], false⟩ .filter)
  have hbody : outcome ((Evaluator.ofFuel .bare 7).apply (.builtin .filter) args Store.root)
      (w.noted (.evaluating "list.filter" 2)) = .ok (.list [.int 7]) := by
    cbv
  have hproducer : Builtin.makesList .filter = true := rfl
  have hprepare : (ListUse.count []).prepare ev Store.root w =
      .ok (fun items => pure (.int items.length)) w := rfl
  obtain ⟨ys, after, hys, hevaluate, hflat, -⟩ :=
    performBuiltin_folded hproducer hprepare hform (eq_ok_of_outcome hbody)
  cases hys
  refine ⟨after, hevaluate, (hflat ?_).1⟩
  rintro ⟨zs, h⟩
  cases h

/-- Of the two items in `("" (1 2))` the filter accepts one, and yet
`(list.len (list.filter cast.bool ("" (1 2))))` is 2. -/
theorem performBuiltin_folded_nested :
    let w := World.fresh ⟨[], false⟩
    let items : Value := .list [.string "", .list [.int 1, .int 2]]
    let ev := Evaluator.ofFuel .bare 9
    outcome (ev.evaluate items Store.root) w = .ok items ∧
      outcome (ev.mapItems (.builtin (.convert .bool)) Store.root items.toItems) w =
        .ok [.bool false, .bool true] ∧
      outcome (ev.performBuiltin .filter [.symbol "cast.bool", items] Store.root) w =
        .ok (.list [.list [.int 1, .int 2]]) ∧
      outcome (ev.evaluate (.list [.symbol "list.len",
        .list [.symbol "list.filter", .symbol "cast.bool", items]]) Store.root) w =
        .ok (.int 2) ∧
      [Value.bool false, .bool true].countP Value.truth ≠ 2 := by
  intro w items ev
  refine ⟨?_, ?_, ?_, ?_, by decide⟩ <;> cbv

end SmallLisp
