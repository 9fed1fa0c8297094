import SmallLisp.Proofs.BindingEffects
import SmallLisp.Proofs.CallingWithValues
import SmallLisp.Proofs.TextOperations

/-! # Cutting, joining and replacing

A text is cut where a separator occurs, from the left and without overlaps. The pieces joined
with the separator are the text again, and joined with another text they are what replacing
the separator gives. This holds in the language too, where a text that is cut into one piece
is folded into that piece. -/

namespace SmallLisp

open EvalM

namespace Text

variable {separator old new text piece : List Char} {pieces : List (List Char)}

/-! ## Pieces -/

/-- Each piece but the last one ends where the separator occurs first in what is left of the
text, and in the last piece it does not occur. -/
inductive Cuts (separator : List Char) : List Char → List (List Char) → Prop
  | last {piece : List Char} (absent : ¬ separator <:+: piece) : Cuts separator piece [piece]
  | next {piece rest : List Char} {pieces : List (List Char)}
      (first : ∀ before after, piece ++ separator ++ rest = before ++ separator ++ after →
        piece.length ≤ before.length)
      (cuts : Cuts separator rest pieces) :
      Cuts separator (piece ++ separator ++ rest) (piece :: pieces)

theorem Cuts.ne_nil (h : Cuts separator text pieces) : pieces ≠ [] := by
  cases h <;> exact List.cons_ne_nil _ _

/-- A character before which the separator does not begin belongs to the first piece. -/
theorem Cuts.cons {c : Char} (h : Cuts separator text (piece :: pieces))
    (hc : ¬ separator <+: c :: text) : Cuts separator (c :: text) ((c :: piece) :: pieces) := by
  cases h with
  | last absent =>
    apply Cuts.last
    rw [List.infix_cons_iff]
    exact not_or.2 ⟨hc, absent⟩
  | @next _ rest _ first cuts =>
    have hnext : Cuts separator ((c :: piece) ++ separator ++ rest) ((c :: piece) :: pieces) := by
      refine .next (fun before after hsplit => ?_) cuts
      cases before with
      | nil => exact absurd ⟨after, hsplit.symm⟩ hc
      | cons d before =>
        have htail := (List.cons.inj hsplit).2
        exact Nat.succ_le_succ (first before after htail)
    exact hnext

/-- A separator at the start leaves an empty first piece. -/
theorem Cuts.separator_append (h : Cuts separator text pieces) :
    Cuts separator (separator ++ text) ([] :: pieces) := by
  change Cuts separator ([] ++ separator ++ text) ([] :: pieces)
  exact .next (fun _ _ _ => Nat.zero_le _) h

theorem eq_append_drop {c : Char} (hne : separator ≠ [])
    (h : separator.isPrefixOf (c :: text) = true) :
    c :: text = separator ++ text.drop (separator.length - 1) := by
  obtain ⟨rest, hrest⟩ := List.isPrefixOf_iff_prefix.1 h
  obtain ⟨d, tail, rfl⟩ := List.exists_cons_of_ne_nil hne
  have htext : tail ++ rest = text := (List.cons.inj hrest).2
  rw [← hrest, ← htext, List.length_cons, Nat.add_sub_cancel, List.drop_left]

theorem cuts_cut (hne : separator ≠ []) (text : List Char) :
    Cuts separator text (cut separator text) := by
  fun_induction cut separator text with
  | case1 => exact .last fun h => hne (List.infix_nil.1 h)
  | case2 c cs hprefix ih =>
    rw [eq_append_drop hne hprefix]
    exact ih.separator_append
  | case3 c cs hprefix hnone ih => exact absurd hnone ih.ne_nil
  | case4 c cs hprefix piece pieces hcut ih =>
    rw [hcut] at ih
    exact ih.cons fun h => hprefix (List.isPrefixOf_iff_prefix.2 h)

/-! ## Joining -/

theorem join_cons (hne : pieces ≠ []) :
    join new (piece :: pieces) = piece ++ new ++ join new pieces := by
  obtain ⟨first, rest, rfl⟩ := List.exists_cons_of_ne_nil hne
  exact List.intercalate_cons_cons

theorem Cuts.join_eq (h : Cuts separator text pieces) : join separator pieces = text := by
  induction h with
  | last => exact List.intercalate_singleton
  | next _ cuts ih => rw [join_cons cuts.ne_nil, ih]

theorem join_cons_cons {c : Char} :
    join new ((c :: piece) :: pieces) = c :: join new (piece :: pieces) := by
  cases pieces with
  | nil => rw [join, join, List.intercalate_singleton, List.intercalate_singleton]
  | cons first rest =>
    rw [join_cons (List.cons_ne_nil _ _), join_cons (List.cons_ne_nil _ _)]
    rfl

/-- To replace a text is to cut at it and to join the pieces with the new one. -/
theorem replaceEach_eq_join (hne : old ≠ []) (new text : List Char) :
    replaceEach old new text = join new (cut old text) := by
  fun_induction cut old text with
  | case1 => rw [replaceEach, join, List.intercalate_singleton]
  | case2 c cs hprefix ih =>
    rw [replaceEach, if_pos hprefix, ih, join_cons (cuts_cut hne _).ne_nil, List.nil_append]
  | case3 c cs hprefix hnone ih => exact absurd hnone (cuts_cut hne cs).ne_nil
  | case4 c cs hprefix piece pieces hcut ih =>
    rw [replaceEach, if_neg hprefix, ih, hcut, join_cons_cons]

theorem replace_eq_join (hne : old ≠ []) (new text : List Char) :
    replace old new text = join new (cut old text) := by
  obtain ⟨c, cs, rfl⟩ := List.exists_cons_of_ne_nil hne
  exact replaceEach_eq_join hne new text

end Text

/-! ## In the language -/

namespace Store

variable {s : Store} {f : FrameId}

theorem lt_size_of_value? {name : String} {v : Value} (h : s.value? f name = some v) :
    f < s.frames.size := by
  refine lt_size_of_chain_ne_nil fun hnil => ?_
  simp only [value?, get?, hnil, List.findSome?_nil, Option.map_none, reduceCtorEq] at h

theorem value?_of_sees {name : String} {v : Value} (h : s.Sees .vars f name v) :
    s.value? f name = some v := by
  rw [value?, sees_iff.1 h]

end Store

namespace Stands

variable {s : Store} {f : FrameId} {form v : Value}

theorem lt_size (h : Stands s f form v) : f < s.frames.size := by
  obtain ⟨name, -, hv⟩ := h
  exact Store.lt_size_of_value? hv

theorem makeChild (h : Stands s f form v) (outer : FrameId) :
    Stands (s.makeChild outer).2 f form v := by
  have hf := h.lt_size
  obtain ⟨name, rfl, hv⟩ := h
  exact ⟨name, rfl, ((Store.sameSight_makeChild hf outer).value? name).trans hv⟩

/-- What a symbol stands for is seen from a new frame inside. -/
theorem inside (h : Stands s f form v) : Stands (s.makeChild f).2 s.frames.size form v := by
  have hf := h.lt_size
  obtain ⟨name, rfl, hv⟩ := h.makeChild f
  exact ⟨name, rfl, (Store.value?_inside (Store.frames_makeChild_size s f) hf name).trans hv⟩

end Stands

namespace Gives

variable {m : Machine} {fuel : Nat} {s : Store} {f : FrameId} {args : List Value}

theorem evaluateAll_stands {Q : List Value → Store → Prop} {values : List Value}
    (h : List.Forall₂ (Stands s f) args values) (hq : Q values s) :
    Gives ((Evaluator.ofFuel m (fuel + 1)).evaluateAll args f) s Q := by
  induction h generalizing Q with
  | nil => exact pure hq
  | cons hform _ ih =>
    obtain ⟨name, rfl, hv⟩ := hform
    exact evaluateAll_cons (evaluate_symbol hv (ih hq))

/-- A call of an operation on texts gives what the operation makes of the values that the
operands have in the frame of the call. -/
theorem evaluate_textOperation {Q : Value → Store → Prop} (op : TextOperation)
    (hop : s.function? f op.builtin.name = some (.builtin op.builtin))
    (hargs : op.needed ≤ args.length)
    (h : Gives ((Evaluator.ofFuel m fuel).evaluateAll (op.arrange (op.operands args))
      s.frames.size) (s.makeChild f).2 fun vs t =>
        ∃ v, op.value (op.arrange vs) = .ok v ∧ Q v.unwrap t) :
    Gives ((Evaluator.ofFuel m (fuel + 2)).evaluate
      (.list (.symbol op.builtin.name :: args)) f) s Q := by
  apply evaluate_inOwnFrame _ hop
  · rw [performBuiltin_textOperation _ op args _ hargs]
    apply bind
    refine h.imp ?_
    rintro vs t ⟨v, hv, hq⟩
    rw [hv]
    exact pure hq
  · cases op <;> rfl

variable {text separator new : String} {x y z : Value}

theorem value_split (hne : separator ≠ "") :
    TextOperation.split.value [.string text, .string separator] =
      .ok (stringItems (Text.cut separator.toList text.toList)) := by
  change splitText text separator = _
  rw [splitText, if_neg hne]

theorem evaluate_split {Q : Value → Store → Prop} (hne : separator ≠ "")
    (hop : s.function? f "str.split" = some (.builtin .split))
    (hx : Stands s f x (.string text)) (hy : Stands s f y (.string separator))
    (hq : Q (stringItems (Text.cut separator.toList text.toList)).unwrap (s.makeChild f).2) :
    Gives ((Evaluator.ofFuel m (fuel + 3)).evaluate (.list [.symbol "str.split", x, y]) f) s Q := by
  refine evaluate_textOperation .split hop (Nat.le_succ 1) ?_
  exact evaluateAll_stands (.cons hx.inside (.cons hy.inside .nil)) ⟨_, value_split hne, hq⟩

/-- A text that is cut into one piece comes as that piece, which serves as a list all the same. -/
theorem toItems_unwrap_stringItems (pieces : List (List Char)) :
    (stringItems pieces).unwrap.toItems =
      pieces.map fun piece => .string (String.ofList piece) := by
  refine Value.toItems_unwrap_list _ fun v hv => ?_
  have hmem := List.mem_singleton_self v
  rw [← hv, List.mem_map] at hmem
  obtain ⟨piece, -, rfl⟩ := hmem
  rfl

theorem value_join (pieces : List (List Char)) (new : String) :
    TextOperation.join.value [(stringItems pieces).unwrap, .string new] =
      .ok (.string (String.ofList (Text.join new.toList pieces))) := by
  change Except.ok (Value.string (joinTexts (stringItems pieces).unwrap.toItems new)) = _
  have hdisplay :
      ((fun v : Value => v.display.toList) ∘ fun piece => .string (String.ofList piece)) = id := by
    funext piece
    exact String.toList_ofList
  rw [toItems_unwrap_stringItems, joinTexts, List.map_map, hdisplay, List.map_id]

theorem evaluate_join_split {Q : Value → Store → Prop} (hne : separator ≠ "")
    (hsplit : s.function? f "str.split" = some (.builtin .split))
    (hjoin : s.function? f "str.join" = some (.builtin .join))
    (hx : Stands s f x (.string text)) (hy : Stands s f y (.string separator))
    (hz : Stands s f z (.string new))
    (hq : ∀ t, Q (.string (String.ofList
      (Text.join new.toList (Text.cut separator.toList text.toList)))) t) :
    Gives ((Evaluator.ofFuel m (fuel + 5)).evaluate
      (.list [.symbol "str.join", .list [.symbol "str.split", x, y], z]) f) s Q := by
  refine evaluate_textOperation .join hjoin (Nat.le_refl 2) ?_
  have hinner : (s.makeChild f).2.function? s.frames.size "str.split" = some (.builtin .split) :=
    (Store.function?_makeChild hx.lt_size _).trans hsplit
  refine evaluateAll_cons (evaluate_split hne hinner hx.inside hy.inside ?_)
  have hlast := hz.inside.makeChild s.frames.size
  exact evaluateAll_stands (.cons hlast .nil) ⟨_, value_join _ new, hq _⟩

theorem evaluate_replace {Q : Value → Store → Prop}
    (hop : s.function? f "str.replace" = some (.builtin .replace))
    (hx : Stands s f x (.string text)) (hy : Stands s f y (.string separator))
    (hz : Stands s f z (.string new))
    (hq : ∀ t, Q (.string (replaceText text separator new)) t) :
    Gives ((Evaluator.ofFuel m (fuel + 3)).evaluate
      (.list [.symbol "str.replace", x, y, z]) f) s Q := by
  refine evaluate_textOperation .replace hop (Nat.le_refl 3) ?_
  exact evaluateAll_stands (.cons hx.inside (.cons hy.inside (.cons hz.inside .nil)))
    ⟨_, rfl, hq _⟩

theorem outcome_eq {x : EvalM Value} {v : Value} {w : World}
    (h : Gives x w.store fun u _ => u = v) : outcome x w = .ok v := by
  obtain ⟨a, u, hrun, rfl⟩ := h w rfl
  rw [outcome, hrun]

end Gives

/-- The pieces of a text, as texts. -/
theorem exists_pieces (text : String) {separator : String} (hne : separator ≠ "") :
    ∃ pieces : List String,
      Text.Cuts separator.toList text.toList (pieces.map String.toList) ∧
      stringItems (Text.cut separator.toList text.toList) = .list (pieces.map .string) ∧
      (∀ new : String, String.ofList (Text.join new.toList
        (Text.cut separator.toList text.toList)) = new.intercalate pieces) ∧
      ∀ new, replaceText text separator new = new.intercalate pieces := by
  have hchars : separator.toList ≠ [] := fun h => hne (String.toList_eq_nil_iff.1 h)
  have hpieces : ((Text.cut separator.toList text.toList).map String.ofList).map String.toList =
      Text.cut separator.toList text.toList := by
    rw [List.map_map]
    exact List.map_id'' (fun piece => String.toList_ofList) _
  have hjoin : ∀ new : String, String.ofList (Text.join new.toList
      (Text.cut separator.toList text.toList)) =
        new.intercalate ((Text.cut separator.toList text.toList).map String.ofList) := by
    intro new
    apply String.toList_injective
    rw [String.toList_ofList, String.toList_intercalate, hpieces, Text.join]
  refine ⟨(Text.cut separator.toList text.toList).map String.ofList, ?_, ?_, hjoin, fun new => ?_⟩
  · rw [hpieces]
    exact Text.cuts_cut hchars _
  · rw [stringItems, List.map_map]
    rfl
  · rw [replaceText, Text.replace_eq_join hchars, hjoin]

/-- The form `(str.split text separator)`. -/
def splitForm (text separator : String) : Value :=
  .list [.symbol "str.split", .symbol text, .symbol separator]

/-- The form `(str.join items separator)`. -/
def joinForm (items : Value) (separator : String) : Value :=
  .list [.symbol "str.join", items, .symbol separator]

/-- The form `(str.replace text old new)`. -/
def replaceForm (text old new : String) : Value :=
  .list [.symbol "str.replace", .symbol text, .symbol old, .symbol new]

/-- In a frame where three names stand for a text, a separator and a new text, a text that is
cut at the separator and joined with it again is what it was. Joined with the new text, its
pieces are what replacing the separator gives, even where there is one piece only. -/
theorem evaluate_join_split_replace (m : Machine) (fuel : Nat) {w : World} {f : FrameId}
    {x y z text separator new : String} (hne : separator ≠ "")
    (hops : ∀ op ∈ [TextOperation.split, .join, .replace],
      w.store.function? f op.builtin.name = some (.builtin op.builtin))
    (hx : w.store.Sees .vars f x (.string text))
    (hy : w.store.Sees .vars f y (.string separator))
    (hz : w.store.Sees .vars f z (.string new)) :
    let value := fun form => outcome (evaluate m (fuel + 5) form f) w
    value (joinForm (splitForm x y) y) = .ok (.string text) ∧
      value (replaceForm x y z) = value (joinForm (splitForm x y) z) ∧
      ∃ pieces : List String,
        Text.Cuts separator.toList text.toList (pieces.map String.toList) ∧
        value (splitForm x y) = .ok (Value.list (pieces.map .string)).unwrap ∧
        value (joinForm (splitForm x y) z) = .ok (.string (new.intercalate pieces)) := by
  intro value
  have hsplit := hops .split (by decide)
  have hjoin := hops .join (by decide)
  have hreplace := hops .replace (by decide)
  have hstands : ∀ {name v}, w.store.Sees .vars f name v → Stands w.store f (.symbol name) v :=
    fun h => ⟨_, rfl, Store.value?_of_sees h⟩
  obtain ⟨pieces, hcuts, hitems, hjoined, hreplaced⟩ := exists_pieces text hne
  have hvalue_join : ∀ {name t : String}, w.store.Sees .vars f name (.string t) →
      value (joinForm (splitForm x y) name) = .ok (.string (t.intercalate pieces)) := fun h =>
    Gives.outcome_eq (Gives.evaluate_join_split hne hsplit hjoin (hstands hx) (hstands hy)
      (hstands h) fun _ => by rw [hjoined])
  have hvalue_replace : value (replaceForm x y z) = .ok (.string (new.intercalate pieces)) :=
    Gives.outcome_eq (Gives.evaluate_replace hreplace (hstands hx) (hstands hy)
      (hstands hz) fun _ => by rw [hreplaced])
  have hvalue_split : value (splitForm x y) = .ok (Value.list (pieces.map .string)).unwrap :=
    Gives.outcome_eq (Gives.evaluate_split hne hsplit (hstands hx) (hstands hy) (by rw [hitems]))
  have hback : separator.intercalate pieces = text := by
    apply String.toList_injective
    rw [String.toList_intercalate]
    exact hcuts.join_eq
  refine ⟨?_, hvalue_replace.trans (hvalue_join hz).symm, pieces, hcuts, hvalue_split,
    hvalue_join hz⟩
  rw [hvalue_join hy, hback]

/-- One frame with three variables, where the separator overlaps itself in the text. -/
def worldOfTexts : World :=
  { World.bare with
    store := ⟨#[{
      outer := none
      vars := ⟨[("text", .string "aaa"), ("separator", .string "aa"), ("new", .string "b")],
        by decide⟩
      procs := ⟨[("str.split", .builtin .split), ("str.join", .builtin .join),
        ("str.replace", .builtin .replace)], by decide⟩ }]⟩ }

/-- The separator is found at the start and not in the middle, so that `aaa` becomes `ba`. -/
theorem evaluate_join_split_replace_overlapping :
    let value := fun form => outcome (evaluate .bare 5 form Store.root) worldOfTexts
    let split := splitForm "text" "separator"
    value (joinForm split "separator") = .ok (.string "aaa") ∧
      value (replaceForm "text" "separator" "new") = value (joinForm split "new") ∧
      value (replaceForm "text" "separator" "new") = .ok (.string "ba") := by
  intro value split
  have hops : ∀ op ∈ [TextOperation.split, .join, .replace],
      worldOfTexts.store.function? Store.root op.builtin.name = some (.builtin op.builtin) := by
    intro op hop
    fin_cases hop <;> cbv
  have hx : worldOfTexts.store.Sees .vars Store.root "text" (.string "aaa") :=
    Store.sees_iff.2 (by cbv)
  have hy : worldOfTexts.store.Sees .vars Store.root "separator" (.string "aa") :=
    Store.sees_iff.2 (by cbv)
  have hz : worldOfTexts.store.Sees .vars Store.root "new" (.string "b") :=
    Store.sees_iff.2 (by cbv)
  obtain ⟨hback, hsame, -⟩ :=
    evaluate_join_split_replace .bare 0 (by decide) hops hx hy hz
  refine ⟨hback, hsame, ?_⟩
  change outcome (evaluate .bare 5 (replaceForm "text" "separator" "new") Store.root)
    worldOfTexts = _
  cbv

end SmallLisp
