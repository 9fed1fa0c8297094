import SmallLisp.Interpreter
import SmallLisp.Proofs.Execution
import SmallLisp.Proofs.Reading.Pieces
import SmallLisp.Proofs.Reading.RoundTrip

/-! # Values that evaluate to themselves

A value without symbols and procedures is evaluated without any effect. What it gives is
decided by what each of its lists starts with: the value is kept just if no list in it is
empty or starts with a list. -/

namespace SmallLisp

open EvalM

namespace Value

mutual

/-- No list that occurs in the value, at any depth, is empty or starts with a list. -/
def Headed : Value → Prop
  | list items => (∃ first ∈ items.head?, first.isList = false) ∧ HeadedAll items
  | _ => True

def HeadedAll : List Value → Prop
  | [] => True
  | v :: vs => Headed v ∧ HeadedAll vs

end

/-- A list is empty, starts with a list, or starts with another value. -/
theorem list_forms (items : List Value) :
    items = [] ∨ (∃ inner rest, items = list inner :: rest) ∨
      ∃ first rest, first.isList = false ∧ items = first :: rest := by
  rcases items with _ | ⟨first, rest⟩
  · exact .inl rfl
  · cases first with
    | list inner => exact .inr (.inl ⟨inner, rest, rfl⟩)
    | _ => exact .inr (.inr ⟨_, rest, rfl, rfl⟩)

/-- What a list gives whose elements have these values: nothing, what the last element gives
if the list starts with a list, and else all the values. -/
def listValue (items values : List Value) : Value :=
  match items with
  | [] => nil
  | list _ :: _ => (values.getLastD nil).unwrap
  | _ => list values

mutual

/-- What a value without symbols and procedures gives when it is evaluated. -/
def evaluated : Value → Value
  | list items => listValue items (evaluatedAll items)
  | v => v

def evaluatedAll : List Value → List Value
  | [] => []
  | v :: vs => evaluated v :: evaluatedAll vs

end

theorem evaluatedAll_eq_map (vs : List Value) : evaluatedAll vs = vs.map evaluated := by
  induction vs with
  | nil => rfl
  | cons v vs ih => rw [evaluatedAll, ih, List.map_cons]

theorem evaluated_list (items : List Value) :
    (list items).evaluated = listValue items (items.map evaluated) := by
  rw [evaluated, evaluatedAll_eq_map]

theorem evaluated_of_isList_eq_false {v : Value} (h : v.isList = false) : v.evaluated = v := by
  cases v with
  | list items => cases h
  | _ => rfl

theorem listValue_of_isList_eq_false {first : Value} (h : first.isList = false)
    (rest values : List Value) : listValue (first :: rest) values = list values := by
  cases first with
  | list inner => cases h
  | _ => rfl

theorem headed_of_isList_eq_false {v : Value} (h : v.isList = false) : v.Headed := by
  cases v with
  | list items => cases h
  | _ => trivial

theorem headedAll_iff {vs : List Value} : HeadedAll vs ↔ ∀ v ∈ vs, v.Headed := by
  induction vs with
  | nil => simp [HeadedAll]
  | cons v vs ih => simp [HeadedAll, ih]

theorem headed_list_iff {items : List Value} :
    (list items).Headed ↔
      (∃ first ∈ items.head?, first.isList = false) ∧ ∀ v ∈ items, v.Headed := by
  rw [Headed, headedAll_iff]

theorem readable_list_iff {items : List Value} :
    (list items).Readable ↔ ∀ v ∈ items, v.Readable := by
  rw [Readable, readableAll_iff]

/-! ## Sizes -/

theorem sizeOf_unwrap_le (v : Value) : sizeOf v.unwrap ≤ sizeOf v := by
  unfold unwrap
  split
  · simp only [list.sizeOf_spec, List.cons.sizeOf_spec]
    omega
  · exact le_rfl

/-- A block gives the value of its last element. -/
theorem exists_evaluated_block (inner rest : List Value) :
    ∃ last ∈ list inner :: rest,
      (list (list inner :: rest)).evaluated = last.evaluated.unwrap := by
  obtain ⟨last, hlast⟩ : ∃ last, (list inner :: rest).getLast? = some last :=
    ⟨_, List.getLast?_cons⟩
  refine ⟨last, List.mem_of_getLast? hlast, ?_⟩
  rw [evaluated_list, listValue, List.getLastD_eq_getLast?, List.getLast?_map, hlast]
  rfl

/-- Evaluation makes no value larger. -/
theorem sizeOf_evaluated_le (v : Value) : sizeOf v.evaluated ≤ sizeOf v := by
  induction v using list_induction with
  | atom v hatom => rw [evaluated_of_isList_eq_false hatom]
  | list items ih =>
    rcases list_forms items with rfl | ⟨inner, rest, rfl⟩ | ⟨first, rest, hfirst, rfl⟩
    · simp [evaluated_list, listValue]
    · obtain ⟨last, hmem, hlast⟩ := exists_evaluated_block inner rest
      have hsize := List.sizeOf_lt_of_mem hmem
      rw [hlast]
      calc sizeOf last.evaluated.unwrap
          ≤ sizeOf last.evaluated := sizeOf_unwrap_le _
        _ ≤ sizeOf last := ih last hmem
        _ ≤ sizeOf (list (list inner :: rest)) := by
          rw [list.sizeOf_spec]
          omega
    · rw [evaluated_list, listValue_of_isList_eq_false hfirst, list.sizeOf_spec, list.sizeOf_spec]
      have hmap : ∀ vs : List Value, (∀ v ∈ vs, sizeOf v.evaluated ≤ sizeOf v) →
          sizeOf (vs.map evaluated) ≤ sizeOf vs := by
        intro vs hvs
        induction vs with
        | nil => exact le_rfl
        | cons v vs ih =>
          rw [List.forall_mem_cons] at hvs
          rw [List.map_cons, List.cons.sizeOf_spec, List.cons.sizeOf_spec]
          have hfirst := hvs.1
          have hrest := ih hvs.2
          omega
      exact Nat.add_le_add_left (hmap _ ih) 1

/-- A block is not its own value, which is no larger than its last element. -/
theorem evaluated_block_ne (inner rest : List Value) :
    (list (list inner :: rest)).evaluated ≠ list (list inner :: rest) := by
  obtain ⟨last, hmem, hlast⟩ := exists_evaluated_block inner rest
  intro heq
  have hsize := List.sizeOf_lt_of_mem hmem
  have hle := (sizeOf_unwrap_le last.evaluated).trans (sizeOf_evaluated_le last)
  rw [← hlast, heq, list.sizeOf_spec] at hle
  omega

theorem evaluated_eq_self_iff (v : Value) : v.evaluated = v ↔ v.Headed := by
  induction v using list_induction with
  | atom v hatom =>
    exact iff_of_true (evaluated_of_isList_eq_false hatom) (headed_of_isList_eq_false hatom)
  | list items ih =>
    rw [headed_list_iff]
    rcases list_forms items with rfl | ⟨inner, rest, rfl⟩ | ⟨first, rest, hfirst, rfl⟩
    · simp [evaluated_list, listValue]
    · exact iff_of_false (evaluated_block_ne inner rest) (by simp [isList])
    · rw [evaluated_list, listValue_of_isList_eq_false hfirst, list.injEq]
      have hhead : ∃ head ∈ (first :: rest).head?, head.isList = false := ⟨first, rfl, hfirst⟩
      rw [and_iff_right hhead]
      have hmap : (first :: rest).map evaluated = (first :: rest).map id ↔
          ∀ v ∈ first :: rest, v.evaluated = v := List.map_inj_left
      rw [List.map_id] at hmap
      exact hmap.trans (forall₂_congr ih)

/-! ## Values that can be written -/

theorem Readable.unwrap {v : Value} (h : v.Readable) : v.unwrap.Readable := by
  unfold Value.unwrap
  split
  · exact h.1
  · exact h

theorem Readable.evaluated {v : Value} (h : v.Readable) : v.evaluated.Readable := by
  induction v using list_induction with
  | atom v hatom => rwa [evaluated_of_isList_eq_false hatom]
  | list items ih =>
    rw [readable_list_iff] at h
    rcases list_forms items with rfl | ⟨inner, rest, rfl⟩ | ⟨first, rest, hfirst, rfl⟩
    · trivial
    · obtain ⟨last, hmem, hlast⟩ := exists_evaluated_block inner rest
      rw [hlast]
      exact (ih last hmem (h last hmem)).unwrap
    · rw [evaluated_list, listValue_of_isList_eq_false hfirst, readable_list_iff,
        List.forall_mem_map]
      exact fun v hv => ih v hv (h v hv)

theorem Readable.function?_eq_none {v : Value} (h : v.Readable) : v.function? = none := by
  cases v with
  | builtin b | host p | closure id name params body frame => exact h.elim
  | _ => rfl

/-- No NaN is left without a mark in a value that can be written. -/
theorem Readable.mark_eq {v : Value} (h : v.Readable) (next : Nat) : v.mark next = (v, next) := by
  induction v using list_induction with
  | atom v hatom =>
    cases v with
    | float x =>
      cases x with
      | number x => rfl
      | nan mark => cases h
    | list items => cases hatom
    | closure id name params body frame => exact h.elim
    | _ => rfl
  | list items ih =>
    rw [readable_list_iff] at h
    have hall : ∀ vs : List Value, (∀ v ∈ vs, v.mark next = (v, next)) →
        markAll next vs = (vs, next) := by
      intro vs hvs
      induction vs with
      | nil => rfl
      | cons v vs ih =>
        rw [List.forall_mem_cons] at hvs
        rw [markAll, hvs.1]
        dsimp only
        rw [ih hvs.2]
    rw [Value.mark, hall items fun v hv => ih v hv (h v hv)]

end Value

/-! ## Evaluation -/

namespace Evaluator

variable {m : Machine} {frame : FrameId} {w : World}

theorem evaluateAll_evaluated {ev : Evaluator} {vs : List Value}
    (h : ∀ v ∈ vs, ev.evaluate v frame w = .ok v.evaluated w) :
    ev.evaluateAll vs frame w = .ok (vs.map Value.evaluated) w := by
  induction vs with
  | nil => rfl
  | cons v vs ih =>
    rw [List.forall_mem_cons] at h
    rw [evaluateAll, bind_of_ok h.1, bind_of_ok (ih h.2), List.map_cons]
    rfl

theorem evaluateLast_evaluated {ev : Evaluator} {vs : List Value}
    (h : ∀ v ∈ vs, ev.evaluate v frame w = .ok v.evaluated w) (u : Value) :
    ev.evaluateLast u vs frame w = .ok ((vs.map Value.evaluated).getLastD u) w := by
  induction vs generalizing u with
  | nil => rfl
  | cons v vs ih =>
    rw [List.forall_mem_cons] at h
    rw [evaluateLast, bind_of_ok h.1, ih h.2, List.map_cons, List.getLastD_cons]

/-- A list that starts with neither a list, a symbol nor a function is data. -/
theorem evaluateList_data {ev : Evaluator} {first : Value} {rest : List Value}
    (hlist : first.isList = false) (hsymbol : first.SymbolFree)
    (hfunction : first.function? = none) :
    ev.evaluateList (first :: rest) frame =
      (do
        let vs ← ev.evaluateAll (first :: rest) frame
        pure (.list vs) : EvalM Value) := by
  cases first with
  | list inner => cases hlist
  | symbol name => exact hsymbol.elim
  | builtin b | host p | closure id name params body captured => cases hfunction
  | _ => rfl

theorem evaluateList_evaluated {ev : Evaluator} {items : List Value}
    (h : (Value.list items).Readable) (hsymbols : (Value.list items).SymbolFree)
    (hall : ∀ v ∈ items, ev.evaluate v frame w = .ok v.evaluated w) :
    ev.evaluateList items frame w = .ok (Value.list items).evaluated w := by
  rw [Value.evaluated_list]
  rcases Value.list_forms items with rfl | ⟨inner, rest, rfl⟩ | ⟨first, rest, hfirst, rfl⟩
  · rfl
  · have hnone := h.1.evaluated.function?_eq_none
    rw [List.forall_mem_cons] at hall
    rw [evaluateList, bind_of_ok hall.1, hnone]
    dsimp only
    rw [evaluateBlock, bind_of_ok (evaluateLast_evaluated hall.2 _), Value.listValue,
      List.map_cons, List.getLastD_cons]
    rfl
  · rw [evaluateList_data hfirst hsymbols.1 h.1.function?_eq_none,
      bind_of_ok (evaluateAll_evaluated hall), Value.listValue_of_isList_eq_false hfirst]
    rfl

/-- A value that can be written, and has no symbols, is evaluated without any effect. -/
theorem evaluate_evaluated (fuel : Nat) {v : Value} (h : v.Readable) (hsymbols : v.SymbolFree)
    (hfuel : sizeOf v ≤ fuel) :
    (Evaluator.ofFuel m fuel).evaluate v frame w = .ok v.evaluated w := by
  induction fuel generalizing v with
  | zero =>
    have hpos : 0 < sizeOf v := by
      cases v <;> simp
    omega
  | succ fuel ih =>
    change (Evaluator.ofFuel m fuel).evaluateForm v frame w = .ok v.evaluated w
    cases v with
    | list items =>
      refine evaluateList_evaluated h hsymbols fun v hv => ?_
      have hsize := List.sizeOf_lt_of_mem hv
      rw [Value.list.sizeOf_spec] at hfuel
      exact ih (Value.readable_list_iff.1 h v hv) (Value.symbolFreeAll_iff.1 hsymbols v hv)
        (by omega)
    | symbol name => exact hsymbols.elim
    | builtin b | host p | closure id name params body captured => exact h.elim
    | _ => rfl

end Evaluator

open Evaluator

/-- Let a value be made of nil, booleans, integers in range, floating-point numbers that are
no NaN, strings and lists. Evaluating its source text, in any frame and world, ends with a
value and leaves the world as it was: nothing is bound and nothing is written. The value is
the written one just if no list in it, at any depth, is empty or starts with a list. -/
theorem evaluateText_source (m : Machine) (v : Value) (h : v.Readable)
    (hsymbols : v.SymbolFree) (frame : FrameId) :
    ∃ u, (∀ fuel, sizeOf v ≤ fuel → ∀ w : World,
        (Evaluator.ofFuel m fuel).evaluateText v.source frame w = .ok u w) ∧
      (u = v ↔ v.Headed) := by
  refine ⟨v.evaluated, fun fuel hfuel w => ?_, v.evaluated_eq_self_iff⟩
  have hread : Reading.read v.source = .ok [v] := by
    have hall : Value.ReadableAll [v] := ⟨h, trivial⟩
    simpa using Reading.read_intercalate hall
  have hmarked : marked v w = .ok v w := by
    have hmark := h.mark_eq w.nextId
    simp only [marked, modifyGet, MonadStateOf.modifyGet, EStateM.modifyGet, hmark]
  rw [evaluateText_of_read _ hread, evaluateForms, bind_of_ok hmarked,
    bind_of_ok (evaluate_evaluated fuel h hsymbols hfuel)]
  rfl

/-- The lists `(1 ("a" nil))` and `(1 ((2)))`: the inner list of the second is folded. -/
theorem evaluateText_source_nested :
    let kept : Value := .list [.int 1, .list [.string "a", .nil]]
    let folded : Value := .list [.int 1, .list [.list [.int 2]]]
    (kept.Readable ∧ kept.SymbolFree ∧ ∀ m frame, ∃ fuel, ∀ w : World,
      (Evaluator.ofFuel m fuel).evaluateText kept.source frame w = .ok kept w) ∧
    (folded.Readable ∧ folded.SymbolFree ∧ ∀ m frame, ∃ fuel u, u ≠ folded ∧ ∀ w : World,
      (Evaluator.ofFuel m fuel).evaluateText folded.source frame w = .ok u w) := by
  intro kept folded
  have hkept : kept.Readable := ⟨rfl, ⟨trivial, trivial, trivial⟩, trivial⟩
  have hfolded : folded.Readable := ⟨rfl, ⟨⟨rfl, trivial⟩, trivial⟩, trivial⟩
  have hkeptSymbols : kept.SymbolFree := ⟨trivial, ⟨trivial, trivial, trivial⟩, trivial⟩
  have hfoldedSymbols : folded.SymbolFree := ⟨trivial, ⟨⟨trivial, trivial⟩, trivial⟩, trivial⟩
  refine ⟨⟨hkept, hkeptSymbols, fun m frame => ?_⟩, hfolded, hfoldedSymbols, fun m frame => ?_⟩
  · obtain ⟨u, hrun, hiff⟩ := evaluateText_source m kept hkept hkeptSymbols frame
    have hheaded : kept.Headed :=
      ⟨⟨_, rfl, rfl⟩, trivial, ⟨⟨_, rfl, rfl⟩, trivial, trivial, trivial⟩, trivial⟩
    rw [hiff.2 hheaded] at hrun
    exact ⟨_, hrun _ le_rfl⟩
  · obtain ⟨u, hrun, hiff⟩ := evaluateText_source m folded hfolded hfoldedSymbols frame
    refine ⟨_, u, fun heq => ?_, hrun _ le_rfl⟩
    obtain ⟨-, -, ⟨⟨first, hfirst, hlist⟩, -⟩, -⟩ := hiff.1 heq
    obtain rfl : .list [.int 2] = first := Option.some.inj hfirst
    cases hlist

end SmallLisp
