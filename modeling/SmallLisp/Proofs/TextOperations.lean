import SmallLisp.Interpreter
import SmallLisp.Proofs.Execution
import SmallLisp.Proofs.FrameEffects

/-! # Operations on texts

An operation on several texts evaluates each operand that it uses once, in the frame of
the call, and then its value depends on the values of these alone. The operands are
evaluated from left to right, but for those of the search of one text in another: there
the text that is sought comes first. A template gives back the literal text that was
escaped in it, and the values between, whatever signs they hold. -/

namespace SmallLisp

open EvalM

/-! ## Operands -/

inductive TextOperation where
  | format
  | split
  | join
  | contains
  | startsWith
  | endsWith
  | replace
deriving DecidableEq

namespace TextOperation

def builtin : TextOperation → Builtin
  | format => .format
  | split => .split
  | join => .join
  | contains => .contains
  | startsWith => .startsWith
  | endsWith => .endsWith
  | replace => .replace

/-- With fewer argument forms a call is refused. -/
def needed : TextOperation → Nat
  | format | split => 1
  | join | contains | startsWith | endsWith => 2
  | replace => 3

/-- The argument forms that are used, as they are written. -/
def operands (op : TextOperation) (args : List Value) : List Value :=
  match op with
  | format => args
  | replace => args.take 3
  | _ => args.take 2

/-- Operands, or their values, as they are written and in the order of evaluation; each
of the two is arranged from the other. -/
def arrange {α : Type} (op : TextOperation) (xs : List α) : List α :=
  match op with
  | contains => xs.reverse
  | _ => xs

/-- What an operation gives for the values of its operands, as these are written. -/
def value : TextOperation → List Value → Except ScriptError Value
  | format, template :: values =>
    .ok (.string (formatText template.display (values.map Value.display)))
  | split, [text] => .ok (stringItems (Text.words text.display.toList))
  | split, [text, separator] => splitText text.display separator.display
  | join, [items, separator] => .ok (.string (joinTexts items.toItems separator.display))
  | contains, [text, sought] => .ok (.bool (containsText text.display sought.display))
  | startsWith, [text, start] => .ok (.bool (startsWithText text.display start.display))
  | endsWith, [text, ending] => .ok (.bool (endsWithText text.display ending.display))
  | replace, [text, old, new] =>
    .ok (.string (replaceText text.display old.display new.display))
  | _, _ => .ok .nil

end TextOperation

theorem exists_two {args : List Value} (h : 2 ≤ args.length) :
    ∃ first second rest, args = first :: second :: rest := by
  obtain ⟨first, rest, rfl⟩ := List.exists_cons_of_length_pos (Nat.lt_of_lt_of_le Nat.two_pos h)
  obtain ⟨second, rest, rfl⟩ := List.exists_cons_of_length_pos (Nat.le_of_succ_le_succ h)
  exact ⟨first, second, rest, rfl⟩

/-- Two texts are evaluated one after the other. -/
theorem Evaluator.evaluate_two_texts (ev : Evaluator) {args : List Value} {i j : Nat}
    {first second : Value} (hi : args[i]? = some first) (hj : args[j]? = some second)
    (procedure : String) (frame : FrameId) {result : String → String → Value}
    {f : List Value → Except ScriptError Value}
    (hf : ∀ v u, f [v, u] = .ok (result v.display u.display)) :
    (do
      let text ← ev.textArgument procedure args i frame
      let other ← ev.textArgument procedure args j frame
      pure (result text other) : EvalM Value) =
      ev.evaluateAll [first, second] frame >>= fun vs => ofExcept (f vs) := by
  simp only [evaluateAll_cons_bind, evaluateAll_nil_bind, hf]
  rw [ev.textArgument_bind hi]
  refine bind_congr fun v => ?_
  rw [ev.textArgument_bind hj]
  rfl

/-- The operands are evaluated first, and the rest is a function of their values. -/
theorem performBuiltin_textOperation (ev : Evaluator) (op : TextOperation) (args : List Value)
    (frame : FrameId) (h : op.needed ≤ args.length) :
    ev.performBuiltin op.builtin args frame = (do
      let vs ← ev.evaluateAll (op.arrange (op.operands args)) frame
      ofExcept (op.value (op.arrange vs))) := by
  cases op with
  | format =>
    obtain ⟨template, values, rfl⟩ := List.exists_cons_of_length_pos h
    change ev.format (template :: values) frame =
      ev.evaluateAll (template :: values) frame >>= fun vs =>
        ofExcept (TextOperation.format.value vs)
    have hrequire : require "str.format" 1 (template :: values) = pure () :=
      if_neg (Nat.not_lt.2 h)
    rw [Evaluator.format, Evaluator.formatted, hrequire, pure_bind, bind_assoc,
      ev.evaluateAll_cons_bind, ev.evaluateAll_cons_bind]
    rfl
  | split =>
    obtain ⟨text, rest, rfl⟩ := List.exists_cons_of_length_pos h
    cases rest with
    | nil =>
      change ev.split [text] frame =
        ev.evaluateAll [text] frame >>= fun vs => ofExcept (TextOperation.split.value vs)
      simp only [Evaluator.evaluateAll_cons_bind, Evaluator.evaluateAll_nil_bind]
      rw [Evaluator.split, ev.textArgument_bind rfl]
      rfl
    | cons separator rest =>
      change ev.split (text :: separator :: rest) frame =
        ev.evaluateAll [text, separator] frame >>= fun vs =>
          ofExcept (TextOperation.split.value vs)
      have hmore : ¬ (text :: separator :: rest).length ≤ 1 := by simp
      simp only [Evaluator.evaluateAll_cons_bind, Evaluator.evaluateAll_nil_bind]
      rw [Evaluator.split, ev.textArgument_bind rfl]
      refine bind_congr fun v => ?_
      rw [if_neg hmore, ev.textArgument_bind rfl]
      rfl
  | join =>
    obtain ⟨items, separator, rest, rfl⟩ := exists_two h
    change ev.join (items :: separator :: rest) frame =
      ev.evaluateAll [items, separator] frame >>= fun vs => ofExcept (TextOperation.join.value vs)
    simp only [Evaluator.evaluateAll_cons_bind, Evaluator.evaluateAll_nil_bind]
    rw [Evaluator.join, ev.listArgument_bind rfl]
    refine bind_congr fun v => ?_
    rw [ev.textArgument_bind rfl]
    rfl
  | contains =>
    obtain ⟨text, sought, rest, rfl⟩ := exists_two h
    exact ev.evaluate_two_texts rfl rfl _ frame fun _ _ => rfl
  | startsWith =>
    obtain ⟨text, start, rest, rfl⟩ := exists_two h
    exact ev.evaluate_two_texts rfl rfl _ frame fun _ _ => rfl
  | endsWith =>
    obtain ⟨text, ending, rest, rfl⟩ := exists_two h
    exact ev.evaluate_two_texts rfl rfl _ frame fun _ _ => rfl
  | replace =>
    obtain ⟨text, old, rest, rfl⟩ := exists_two (Nat.le_of_succ_le h)
    obtain ⟨new, rest, rfl⟩ :=
      List.exists_cons_of_length_pos (Nat.le_of_succ_le_succ (Nat.le_of_succ_le_succ h))
    change ev.replace (text :: old :: new :: rest) frame =
      ev.evaluateAll [text, old, new] frame >>= fun vs =>
        ofExcept (TextOperation.replace.value vs)
    simp only [Evaluator.evaluateAll_cons_bind, Evaluator.evaluateAll_nil_bind]
    rw [Evaluator.replace, ev.textArgument_bind rfl]
    refine bind_congr fun v => ?_
    rw [ev.textArgument_bind rfl]
    refine bind_congr fun u => ?_
    rw [ev.textArgument_bind rfl]
    rfl

/-- A call of an operation on texts evaluates the operands that it uses once each in the
frame of the call, in their order, and is otherwise a function of their values. -/
theorem call_textOperation (m : Machine) (fuel : Nat) (op : TextOperation) (args : List Value)
    (frame : FrameId) (h : op.needed ≤ args.length) :
    (Evaluator.ofFuel m (fuel + 1)).call (.builtin op.builtin) args frame = (do
      note (.evaluating op.builtin.name args.length)
      let own ← makeChild frame
      note (.nativeCalled op.builtin.name args.length)
      let vs ← (Evaluator.ofFuel m fuel).evaluateAll (op.arrange (op.operands args)) own
      let v ← ofExcept (op.value (op.arrange vs))
      note (.returned v.unwrap)
      pure v.unwrap) := by
  have hown : (Function.builtin op.builtin).inCallerFrame = false := by cases op <;> rfl
  have hperform : ∀ own, (Evaluator.ofFuel m (fuel + 1)).perform op.builtin args own = (do
      let vs ← (Evaluator.ofFuel m fuel).evaluateAll (op.arrange (op.operands args)) own
      ofExcept (op.value (op.arrange vs))) :=
    fun own => performBuiltin_textOperation (Evaluator.ofFuel m fuel) op args own h
  have happly : (Evaluator.ofFuel m (fuel + 1)).apply (.builtin op.builtin) args frame = (do
      let own ← makeChild frame
      note (.nativeCalled op.builtin.name args.length)
      let vs ← (Evaluator.ofFuel m fuel).evaluateAll (op.arrange (op.operands args)) own
      ofExcept (op.value (op.arrange vs))) := by
    simp only [Evaluator.apply, Evaluator.applyNative, hown, hperform]
    rfl
  rw [Evaluator.call, happly]
  simp only [bind_assoc]
  rfl

/-- The third form of a call of `str.split` is not evaluated, and need not have a value. -/
theorem call_textOperation_surplus :
    let args : List Value := [.string "a,b", .string ",", .symbol "x"]
    let w := World.fresh ⟨[], false⟩
    TextOperation.split.needed ≤ args.length ∧
      outcome ((Evaluator.ofFuel .bare 2).call (.builtin .split) args Store.root) w =
        .ok (.list [.string "a", .string "b"]) := by
  intro args w
  have hargs : TextOperation.split.needed ≤ args.length := by decide
  refine ⟨hargs, ?_⟩
  have hcall := call_textOperation .bare 1 .split args Store.root hargs
  rw [TextOperation.builtin] at hcall
  rw [hcall]
  cbv

/-- Neither operand has a value. The second one is missed first, though the first would be
missed first from left to right, whatever were made of the values. -/
theorem call_contains_reversed :
    let args : List Value := [.symbol "x", .symbol "y"]
    let w := World.fresh ⟨[], false⟩
    outcome ((Evaluator.ofFuel .bare 2).call (.builtin .contains) args Store.root) w =
        .error (.error (.undeclared "y")) ∧
      ∀ f : List Value → Except ScriptError Value,
        outcome (do
          let own ← makeChild Store.root
          let vs ← (Evaluator.ofFuel .bare 1).evaluateAll args own
          ofExcept (f vs)) w = .error (.error (.undeclared "x")) := by
  intro args w
  refine ⟨?_, fun f => ?_⟩
  · cbv
  · cbv

/-! ## Templates -/

namespace Text

/-- The template of a literal text. -/
def escaped (cs : List Char) : List Char := cs.flatMap fun c => if c = '%' then ['%', '%'] else [c]

theorem fill_of_ne {c : Char} (hc : c ≠ '%') (cs : List Char) (values : List (List Char)) :
    fill (c :: cs) values = c :: fill cs values := by
  rw [fill] <;> simp [hc]

/-- A literal text comes back before whatever follows it in the template. -/
theorem fill_escaped_append (cs rest : List Char) (values : List (List Char)) :
    fill (escaped cs ++ rest) values = cs ++ fill rest values := by
  induction cs with
  | nil => rfl
  | cons c cs ih =>
    rw [escaped, List.flatMap_cons, ← escaped, List.append_assoc, List.cons_append, ← ih]
    by_cases hc : c = '%'
    · rw [if_pos hc, hc]
      rfl
    · rw [if_neg hc]
      exact fill_of_ne hc _ _

/-- The places of a template are filled in order, each with what is given for it. -/
theorem fill_places (literals values : List (List Char)) :
    fill (literals.flatMap fun cs => ['%', 'v'] ++ escaped cs) values =
      (literals.mapIdx fun i cs => values[i]?.getD ['%', 'v'] ++ cs).flatten := by
  induction literals generalizing values with
  | nil => rfl
  | cons cs literals ih =>
    have hrest (values : List (List Char)) :
        fill (escaped cs ++ literals.flatMap fun cs => ['%', 'v'] ++ escaped cs) values =
          cs ++ (literals.mapIdx fun i cs => values[i]?.getD ['%', 'v'] ++ cs).flatten := by
      rw [fill_escaped_append, ih]
    rw [List.mapIdx_cons, List.flatten_cons, List.flatMap_cons, List.append_assoc]
    cases values with
    | nil => exact congrArg (['%', 'v'] ++ ·) (hrest [])
    | cons value values =>
      exact (congrArg (value ++ ·) (hrest values)).trans (List.append_assoc ..).symm

end Text

/-- A template made of literal texts with places between them gives back the literals, and
in each place the value that is given for it, as it is; a place without one is kept. -/
theorem formatText_template (first : String) (others values : List String) :
    formatText (onChars Text.escaped first ++
        String.join (others.map fun s => "%v" ++ onChars Text.escaped s)) values =
      first ++ String.join (others.mapIdx fun i s => values[i]?.getD "%v" ++ s) := by
  have hplaces : (others.map fun s => "%v" ++ onChars Text.escaped s).flatMap String.toList =
      (others.map String.toList).flatMap fun cs => ['%', 'v'] ++ Text.escaped cs := by
    rw [List.flatMap_map, List.flatMap_map]
    refine List.flatMap_congr fun s _ => ?_
    simp only [String.toList_append, onChars, String.toList_ofList]
    rfl
  have hfilled : (others.mapIdx fun i s => values[i]?.getD "%v" ++ s).map String.toList =
      (others.map String.toList).mapIdx fun i cs =>
        (values.map String.toList)[i]?.getD ['%', 'v'] ++ cs := by
    refine List.ext_getElem (by simp) fun i hi hi' => ?_
    have hvalue : (values[i]?.getD "%v").toList =
        (values.map String.toList)[i]?.getD ['%', 'v'] := by
      rw [List.getElem?_map]
      cases values[i]? <;> rfl
    simp only [List.getElem_map, List.getElem_mapIdx, String.toList_append, hvalue]
  apply String.toList_injective
  rw [formatText, String.toList_ofList, String.toList_append, String.toList_append,
    String.toList_join, String.toList_join, hplaces, onChars, String.toList_ofList,
    Text.fill_escaped_append, Text.fill_places, ← hfilled, List.flatMap_def]

/-- A percent sign before a place, values that look like places, and a place left over. -/
example : formatText "100%%%v%v, %v" ["%", "v%v"] = "100%%v%v, %v" := by
  decide

end SmallLisp
