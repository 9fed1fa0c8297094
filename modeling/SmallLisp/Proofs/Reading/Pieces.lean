import SmallLisp.Loading
import SmallLisp.Proofs.Reading.Grammar
import SmallLisp.Proofs.Reading.Scanning

/-! # Sources in pieces

A source that is cut at the end of a line, outside strings and between forms, is read
piece by piece, and evaluated piece by piece: no token, no list and no effect of the
evaluation crosses the cut. -/

namespace SmallLisp

namespace Reading

/-! ## Tokens -/

/-- The mode that the scanner is in at the end of a text. -/
def endMode (source : List Char) : Mode := source.foldl Mode.after .plain

def Mode.inString : Mode → Bool
  | .string | .escaped => true
  | .plain | .comment => false

/-- What comes after a text is scanned in the mode at its end. -/
theorem scan_append (cs : List Char) :
    ∀ {mode : Mode} {collected : List Char}, Collecting mode collected →
      ∃ done kept, Collecting (cs.foldl Mode.after mode) kept ∧
        ∀ rest, scan mode collected (cs ++ rest) =
          done ++ scan (cs.foldl Mode.after mode) kept rest := by
  induction cs with
  | nil => exact fun {mode collected} h => ⟨[], collected, h, fun _ => rfl⟩
  | cons c cs ih =>
    intro mode collected h
    obtain ⟨first, kept, -, hkept, hfirst⟩ := scan_step h c
    obtain ⟨done, left, hleft, hdone⟩ := ih hkept
    refine ⟨first ++ done, left, hleft, fun rest => ?_⟩
    rw [List.cons_append, hfirst, hdone, List.append_assoc]
    rfl

/-- Outside strings, the end of a line ends what was collected. -/
theorem scan_newline {mode : Mode} {collected : List Char} (h : Collecting mode collected)
    (hmode : mode.inString = false) (rest : List Char) :
    scan mode collected ('\n' :: rest) = scan mode collected [] ++ tokens rest := by
  cases mode with
  | plain => simp [scan_cons_plain, scan_nil, tokens, Text.isBlank]
  | comment =>
    obtain rfl : collected = [] := h
    simp [scan_cons_comment, scan_nil, finished, tokens]
  | string => cases hmode
  | escaped => cases hmode

theorem tokens_newline {cs : List Char} (h : (endMode cs).inString = false) (rest : List Char) :
    tokens (cs ++ '\n' :: rest) = tokens cs ++ tokens rest := by
  have hstart : Collecting .plain [] := fun _ hc => by cases hc
  obtain ⟨done, kept, hkept, hscan⟩ := scan_append cs hstart
  change Collecting (endMode cs) kept at hkept
  have hfirst := hscan []
  rw [List.append_nil] at hfirst
  change tokens cs = done ++ scan (endMode cs) kept [] at hfirst
  calc tokens (cs ++ '\n' :: rest)
      = done ++ scan (endMode cs) kept ('\n' :: rest) := hscan _
    _ = done ++ (scan (endMode cs) kept [] ++ tokens rest) := by rw [scan_newline hkept h]
    _ = tokens cs ++ tokens rest := by rw [hfirst, List.append_assoc]

/-! ## Forms -/

/-- What follows balanced tokens is balanced if the whole is. -/
theorem Balanced.of_append {xs ys : List Token} (hx : Balanced xs) (h : Balanced (xs ++ ys)) :
    Balanced ys := by
  refine ⟨fun k => ?_, ?_⟩
  · have hprefix := h.1 (xs.length + k)
    rw [List.take_length_add_append, List.count_append, List.count_append, hx.2] at hprefix
    exact Nat.le_of_add_le_add_left hprefix
  · have htotal := h.2
    rw [List.count_append, List.count_append, hx.2] at htotal
    exact Nat.add_left_cancel htotal

theorem readTokens_append {xs ys : List Token} {forms rest : List Value}
    (hx : readTokens xs = .ok forms) (hy : readTokens ys = .ok rest) :
    readTokens (xs ++ ys) = .ok (forms ++ rest) := by
  obtain ⟨trees, rfl, hforms⟩ := exists_forest hx
  obtain ⟨others, rfl, hrest⟩ := exists_forest hy
  rw [← Tree.flattenAll_append]
  exact readTokens_flattenAll (Tree.valueAll_append hforms hrest)

/-- After tokens that are read on their own, the others are read on their own. -/
theorem readTokens_append_iff {xs ys : List Token} {forms : List Value}
    (hx : readTokens xs = .ok forms) {all : List Value} :
    readTokens (xs ++ ys) = .ok all ↔ ∃ rest, readTokens ys = .ok rest ∧ all = forms ++ rest := by
  constructor
  · intro h
    obtain ⟨hbalanced, hdenotes⟩ := exists_readTokens_iff.1 ⟨all, h⟩
    have hfirst := (exists_readTokens_iff.1 ⟨forms, hx⟩).1
    obtain ⟨rest, hrest⟩ := exists_readTokens_iff.2 ⟨hfirst.of_append hbalanced,
      fun token ht => hdenotes token (List.mem_append_right xs ht)⟩
    rw [readTokens_append hx hrest] at h
    exact ⟨rest, hrest, (Except.ok.inj h).symm⟩
  · rintro ⟨rest, hrest, rfl⟩
    exact readTokens_append hx hrest

theorem read_append_iff {first second : String} {forms : List Value}
    (hmode : (endMode first.toList).inString = false) (hfirst : read first = .ok forms)
    {all : List Value} :
    read (first ++ "\n" ++ second) = .ok all ↔
      ∃ rest, read second = .ok rest ∧ all = forms ++ rest := by
  have htext : (first ++ "\n" ++ second).toList = first.toList ++ '\n' :: second.toList := by
    simp
  rw [read, htext, tokens_newline hmode]
  exact readTokens_append_iff hfirst

end Reading

/-! ## Evaluation -/

namespace Evaluator

variable (ev : Evaluator)

theorem evaluateForms_append (v : Value) (forms rest : List Value) (frame : FrameId) :
    ev.evaluateForms v (forms ++ rest) frame =
      (do
        let u ← ev.evaluateForms v forms frame
        ev.evaluateForms u rest frame : EvalM Value) := by
  induction forms generalizing v with
  | nil => simp only [List.nil_append, evaluateForms, pure_bind]
  | cons form forms ih => simp only [List.cons_append, evaluateForms, bind_assoc, ih]

/-- What was evaluated before is the value only if there are no forms. -/
theorem evaluateForms_eq (v : Value) (forms : List Value) (frame : FrameId) :
    ev.evaluateForms v forms frame =
      (do
        let u ← ev.evaluateForms .nil forms frame
        pure (if forms.isEmpty then v else u) : EvalM Value) := by
  cases forms with
  | nil => simp only [evaluateForms, pure_bind, List.isEmpty_nil, if_true]
  | cons form forms =>
    simp only [evaluateForms, List.isEmpty_cons, Bool.false_eq_true, if_false, bind_pure]

theorem evaluateText_of_read {source : String} {forms : List Value}
    (h : Reading.read source = .ok forms) (frame : FrameId) :
    ev.evaluateText source frame = ev.evaluateForms .nil forms frame := by
  rw [evaluateText, h]
  rfl

end Evaluator

/-- Let a source be read that does not end in a string. With a second one after it on a
line of its own, the whole is read just if the second is, and gives the forms of both. To
evaluate the whole is to evaluate the first and then, if that gave a value, the second;
the value is that of the first if the second has no forms. -/
theorem evaluateText_pieces {first : String} {forms : List Value}
    (hmode : (Reading.endMode first.toList).inString = false)
    (hfirst : Reading.read first = .ok forms) (second : String) :
    (∀ all, Reading.read (first ++ "\n" ++ second) = .ok all ↔
      ∃ rest, Reading.read second = .ok rest ∧ all = forms ++ rest) ∧
    ∀ rest, Reading.read second = .ok rest → ∀ (ev : Evaluator) (frame : FrameId),
      ev.evaluateText (first ++ "\n" ++ second) frame =
        (do
          let v ← ev.evaluateText first frame
          let u ← ev.evaluateText second frame
          pure (if rest.isEmpty then v else u) : EvalM Value) := by
  refine ⟨fun all => Reading.read_append_iff hmode hfirst, fun rest hsecond ev frame => ?_⟩
  have hwhole := (Reading.read_append_iff hmode hfirst).2 ⟨rest, hsecond, rfl⟩
  calc ev.evaluateText (first ++ "\n" ++ second) frame
      = ev.evaluateForms .nil (forms ++ rest) frame := ev.evaluateText_of_read hwhole frame
    _ = (do
          let v ← ev.evaluateForms .nil forms frame
          let u ← ev.evaluateForms .nil rest frame
          pure (if rest.isEmpty then v else u) : EvalM Value) := by
      rw [ev.evaluateForms_append]
      exact bind_congr fun v => ev.evaluateForms_eq v rest frame
    _ = _ := by rw [ev.evaluateText_of_read hfirst, ev.evaluateText_of_read hsecond]

/-- The comment ends at the cut, and the second piece sees what the first one binds. -/
theorem evaluateText_pieces_comment :
    Reading.read "(def x 1) ; one\n(+ x 1)" =
      .ok [.list [.symbol "def", .symbol "x", .int 1], .list [.symbol "+", .symbol "x", .int 1]] ∧
    ∀ (ev : Evaluator) (frame : FrameId),
      ev.evaluateText "(def x 1) ; one\n(+ x 1)" frame =
        (do
          let _ ← ev.evaluateText "(def x 1) ; one" frame
          ev.evaluateText "(+ x 1)" frame : EvalM Value) := by
  have hmode : (Reading.endMode "(def x 1) ; one".toList).inString = false := by decide
  have hfirst : Reading.read "(def x 1) ; one" =
      .ok [.list [.symbol "def", .symbol "x", .int 1]] := by cbv
  have hsecond : Reading.read "(+ x 1)" = .ok [.list [.symbol "+", .symbol "x", .int 1]] := by cbv
  obtain ⟨hread, heval⟩ := evaluateText_pieces hmode hfirst "(+ x 1)"
  refine ⟨(hread _).2 ⟨_, hsecond, rfl⟩, fun ev frame => ?_⟩
  exact (heval _ hsecond ev frame).trans (bind_congr fun v => bind_pure _)

end SmallLisp
