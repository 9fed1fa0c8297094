import SmallLisp.Proofs.Reading.Trees

/-! # The grammar of forms

Reading accepts the forests whose leaves all denote values. Of any other sequence of
tokens it reports the first one that does not fit, or that a list is left open. -/

namespace SmallLisp.Reading

open Reading.Tree

/-- No prefix closes more lists than it opens, and in the end all are closed. -/
def Balanced (tokens : List Token) : Prop :=
  (∀ k, (tokens.take k).count [')'] ≤ (tokens.take k).count ['(']) ∧
    tokens.count [')'] = tokens.count ['(']

/-- The token at `k` closes a list although none is open, or denotes no value. -/
inductive Misfit (tokens : List Token) (k : Nat) : Stop → Prop
  | close (h : tokens[k]? = some [')'])
      (hdepth : (tokens.take (k + 1)).count ['('] < (tokens.take (k + 1)).count [')']) :
      Misfit tokens k (.error (.unexpectedClose k))
  | atom {token : Token} {s : Stop} (h : tokens[k]? = some token)
      (hleaf : isParenthesis token = false) (hs : readAtom token = .error s) :
      Misfit tokens k s

/-- The token at `k` is the first that does not fit. -/
def FirstMisfit (tokens : List Token) (k : Nat) (s : Stop) : Prop :=
  Misfit tokens k s ∧ ∀ j < k, ∀ s', ¬ Misfit tokens j s'

/-- What is wrong with a sequence of tokens: the first token that does not fit, or, if
all fit, a list that is left open. -/
def Fault (tokens : List Token) (s : Stop) : Prop :=
  (∃ k, FirstMisfit tokens k s) ∨
    ((∀ k s', ¬ Misfit tokens k s') ∧ tokens.count [')'] < tokens.count ['('] ∧
      s = .error .unterminatedList)

/-! ## The forest that is read -/

/-- The layers hold the values of the trees that the tokens spell, one layer for each
list that is still open. -/
inductive Spells : List Token → Layers → Prop
  | start : Spells [] .start
  | add {tokens : List Token} {layers : Layers} {t : Tree} {v : Value} :
      Spells tokens layers → t.value = .ok v → Spells (tokens ++ t.flatten) (layers.add v)
  | openList {tokens : List Token} {layers : Layers} :
      Spells tokens layers → Spells (tokens ++ [['(']]) layers.openList

/-- The innermost layer is a forest of its own, after the parenthesis that opened it. -/
theorem Spells.inner {tokens : List Token} {layers : Layers} (h : Spells tokens layers) :
    ∃ before forest, tokens = before ++ flattenAll forest ∧
      valueAll forest = .ok layers.inner.reverse ∧
      match layers.outer with
      | [] => before = []
      | around :: outer => ∃ start, before = start ++ [['(']] ∧ Spells start ⟨around, outer⟩ := by
  induction h with
  | start => exact ⟨[], [], rfl, rfl, rfl⟩
  | @add tokens layers t v _ hv ih =>
    obtain ⟨before, forest, rfl, hvalue, hbefore⟩ := ih
    refine ⟨before, forest ++ [t], by simp, ?_, hbefore⟩
    have hlast : valueAll [t] = .ok [v] := valueAll_cons hv rfl
    have hadd := valueAll_append hvalue hlast
    simpa [Layers.add] using hadd
  | @openList tokens layers h _ =>
    exact ⟨tokens ++ [['(']], [], by simp [flattenAll], rfl, tokens, rfl, h⟩

theorem Spells.closeList? {tokens : List Token} {layers closed : Layers}
    (h : Spells tokens layers) (hc : layers.closeList? = some closed) :
    Spells (tokens ++ [[')']]) closed := by
  obtain ⟨before, forest, rfl, hvalue, hbefore⟩ := h.inner
  obtain ⟨inner, outer⟩ := layers
  cases outer with
  | nil => cases hc
  | cons around outer =>
    cases hc
    obtain ⟨start, rfl, hstart⟩ := hbefore
    have hnode := hstart.add (value_node hvalue)
    simpa [flatten, Layers.add] using hnode

theorem advance_of_leaf {token : Token} (h : isParenthesis token = false) (index : Nat)
    (layers : Layers) : advance index token layers = (readAtom token).map layers.add := by
  simp only [isParenthesis, Bool.or_eq_false_iff, decide_eq_false_iff_not] at h
  rw [advance, if_neg h.1, if_neg h.2]

theorem isParenthesis_eq_true {token : Token} :
    isParenthesis token = true ↔ token = ['('] ∨ token = [')'] := by
  simp [isParenthesis]

theorem Spells.advance {tokens : List Token} {layers after : Layers} {token : Token}
    {index : Nat} (h : Spells tokens layers) (ha : advance index token layers = .ok after) :
    Spells (tokens ++ [token]) after := by
  by_cases hp : isParenthesis token = true
  · rcases isParenthesis_eq_true.1 hp with rfl | rfl
    · cases ha
      exact h.openList
    · rw [Reading.advance, if_neg (by decide), if_pos rfl] at ha
      split at ha
      · next closed hclosed =>
        cases ha
        exact h.closeList? hclosed
      · cases ha
  · rw [Bool.not_eq_true] at hp
    rw [advance_of_leaf hp] at ha
    cases hatom : readAtom token with
    | error e => rw [hatom] at ha; cases ha
    | ok v =>
      rw [hatom] at ha
      cases ha
      exact h.add (t := .leaf ⟨token, hp⟩) hatom

theorem Spells.readFrom {rest : List Token} {forms : List Value} :
    ∀ {tokens : List Token} {layers : Layers} {index : Nat}, Spells tokens layers →
      readFrom index layers rest = .ok forms →
      ∃ forest, flattenAll forest = tokens ++ rest ∧ valueAll forest = .ok forms := by
  induction rest with
  | nil =>
    intro tokens layers index h hr
    obtain ⟨before, forest, rfl, hvalue, hbefore⟩ := h.inner
    obtain ⟨inner, outer⟩ := layers
    cases outer with
    | nil =>
      cases hr
      subst hbefore
      exact ⟨forest, by simp, hvalue⟩
    | cons around outer => cases hr
  | cons token rest ih =>
    intro tokens layers index h hr
    unfold Reading.readFrom at hr
    split at hr
    · next after hafter =>
      obtain ⟨forest, hflat, hvalue⟩ := ih (h.advance hafter) hr
      exact ⟨forest, by simpa using hflat, hvalue⟩
    · cases hr

/-- What is read is the value of a forest that has just these tokens. -/
theorem exists_forest {tokens : List Token} {forms : List Value}
    (h : readTokens tokens = .ok forms) :
    ∃ forest, flattenAll forest = tokens ∧ valueAll forest = .ok forms :=
  Spells.readFrom .start h

/-! ## Forests are balanced -/

theorem Balanced.nil : Balanced [] := ⟨fun k => by simp, rfl⟩

theorem Balanced.leaf (token : Leaf) : Balanced [token.1] := by
  have hleaf := token.2
  simp only [isParenthesis, Bool.or_eq_false_iff, decide_eq_false_iff_not] at hleaf
  have hclose : [token.1].count [')'] = 0 := List.count_eq_zero.2 (by simpa using Ne.symm hleaf.2)
  have hopen : [token.1].count ['('] = 0 := List.count_eq_zero.2 (by simpa using Ne.symm hleaf.1)
  refine ⟨fun k => ?_, hclose.trans hopen.symm⟩
  have hsub := (List.take_sublist k [token.1]).count_le [')']
  omega

theorem Balanced.append {xs ys : List Token} (hx : Balanced xs) (hy : Balanced ys) :
    Balanced (xs ++ ys) := by
  refine ⟨fun k => ?_, ?_⟩
  · rw [List.take_append, List.count_append, List.count_append]
    exact Nat.add_le_add (hx.1 k) (hy.1 _)
  · rw [List.count_append, List.count_append, hx.2, hy.2]

theorem Balanced.enclose {xs : List Token} (hx : Balanced xs) :
    Balanced (['('] :: (xs ++ [[')']])) := by
  refine ⟨fun k => ?_, ?_⟩
  · cases k with
    | zero => simp
    | succ k =>
      -- Whatever is left of the last parenthesis is made up for by the first one.
      have hlast : ([[')']].take (k - xs.length)).count [')'] ≤ 1 :=
        (List.take_sublist _ _).count_le _
      have hinner := hx.1 k
      have hother : [')'] ≠ ['('] := by decide
      rw [List.take_succ_cons, List.take_append, List.count_cons_of_ne hother.symm,
        List.count_cons_self, List.count_append, List.count_append]
      omega
  · simp [hx.2]

mutual

theorem balanced_flatten : ∀ t : Tree, Balanced t.flatten
  | .leaf token => .leaf token
  | .node ts => (balanced_flattenAll ts).enclose

theorem balanced_flattenAll : ∀ ts : List Tree, Balanced (flattenAll ts)
  | [] => .nil
  | t :: ts => (balanced_flatten t).append (balanced_flattenAll ts)

end

/-- All tokens that are forms of their own denote values. -/
def Denotes (tokens : List Token) : Prop :=
  ∀ token ∈ tokens, isParenthesis token = false → ∃ v, readAtom token = .ok v

mutual

theorem denotes_of_value : ∀ {t : Tree} {v : Value}, t.value = .ok v → Denotes t.flatten
  | .leaf a, v, h => fun token ht _ => ⟨v, by rw [List.mem_singleton.1 ht]; exact h⟩
  | .node ts, v, h => by
    obtain ⟨vs, hvs, rfl⟩ := value_node_inv h
    intro token ht hleaf
    simp only [flatten, List.mem_cons, List.mem_append, List.not_mem_nil, or_false] at ht
    rcases ht with rfl | ht | rfl
    · cases hleaf
    · exact denotes_of_valueAll hvs token ht hleaf
    · cases hleaf

theorem denotes_of_valueAll : ∀ {ts : List Tree} {vs : List Value},
    valueAll ts = .ok vs → Denotes (flattenAll ts)
  | [], _, _ => fun _ ht => absurd ht List.not_mem_nil
  | t :: ts, us, h => by
    obtain ⟨v, vs, ht, hts, rfl⟩ := valueAll_cons_inv h
    intro token hmem hleaf
    rcases List.mem_append.1 hmem with hmem | hmem
    · exact denotes_of_value ht token hmem hleaf
    · exact denotes_of_valueAll hts token hmem hleaf

end

/-! ## The fault that is reported -/

theorem misfit_iff {tokens : List Token} {k : Nat} {token : Token} {s : Stop}
    (h : tokens[k]? = some token) :
    Misfit tokens k s ↔
      (token = [')'] ∧ (tokens.take (k + 1)).count ['('] < (tokens.take (k + 1)).count [')'] ∧
        s = .error (.unexpectedClose k)) ∨
      isParenthesis token = false ∧ readAtom token = .error s := by
  constructor
  · rintro (⟨hk, hdepth⟩ | ⟨hk, hleaf, he⟩)
    · rw [h] at hk
      exact .inl ⟨Option.some.inj hk, hdepth, rfl⟩
    · rw [h] at hk
      cases hk
      exact .inr ⟨hleaf, he⟩
  · rintro (⟨rfl, hdepth, rfl⟩ | ⟨hleaf, he⟩)
    · exact .close h hdepth
    · exact .atom h hleaf he

theorem lt_length_of_misfit {tokens : List Token} {k : Nat} {s : Stop}
    (h : Misfit tokens k s) : k < tokens.length := by
  cases h with
  | close hk _ => exact (List.getElem?_eq_some_iff.1 hk).1
  | atom hk _ _ => exact (List.getElem?_eq_some_iff.1 hk).1

theorem misfit_unique {tokens : List Token} {k : Nat} {s s' : Stop}
    (h : Misfit tokens k s) (h' : Misfit tokens k s') : s = s' := by
  have hget := List.getElem?_eq_getElem (lt_length_of_misfit h)
  rw [misfit_iff hget] at h h'
  rcases h with ⟨hclose, -, rfl⟩ | ⟨hleaf, he⟩
  · rcases h' with ⟨-, -, rfl⟩ | ⟨hleaf, -⟩
    · rfl
    · rw [hclose] at hleaf
      cases hleaf
  · rcases h' with ⟨hclose, -⟩ | ⟨-, he'⟩
    · rw [hclose] at hleaf
      cases hleaf
    · rw [he] at he'
      exact Except.error.inj he'

theorem fault_iff_of_first {tokens : List Token} {k : Nat} {s : Stop}
    (h : FirstMisfit tokens k s) {s' : Stop} : Fault tokens s' ↔ s = s' := by
  constructor
  · rintro (⟨j, hj⟩ | ⟨hnone, -, -⟩)
    · rcases Nat.lt_trichotomy j k with hlt | rfl | hlt
      · exact absurd hj.1 (h.2 j hlt s')
      · exact misfit_unique h.1 hj.1
      · exact absurd h.1 (hj.2 k hlt s)
    · exact absurd h.1 (hnone k s)
  · rintro rfl
    exact .inl ⟨k, h⟩

/-- Where all tokens fit, only a list that is left open is at fault. -/
theorem fault_iff_of_fit {tokens : List Token} (h : ∀ k < tokens.length, ∀ s, ¬ Misfit tokens k s)
    {s : Stop} :
    Fault tokens s ↔ tokens.count [')'] < tokens.count ['('] ∧ s = .error .unterminatedList := by
  have hnone : ∀ k s', ¬ Misfit tokens k s' := fun k s' hk =>
    h k (lt_length_of_misfit hk) s' hk
  constructor
  · rintro (⟨k, hk, -⟩ | ⟨-, hopen⟩)
    · exact absurd hk (hnone k s)
    · exact hopen
  · exact fun hopen => .inr ⟨hnone, hopen⟩

/-- One list is open for each layer around the innermost. -/
def Depth (tokens : List Token) (layers : Layers) : Prop :=
  layers.outer.length + tokens.count [')'] = tokens.count ['(']

theorem Depth.advance {tokens : List Token} {layers after : Layers} {token : Token} {index : Nat}
    (h : Depth tokens layers) (ha : advance index token layers = .ok after) :
    Depth (tokens ++ [token]) after := by
  unfold Depth at *
  rw [List.count_append, List.count_append]
  by_cases hp : isParenthesis token = true
  · rcases isParenthesis_eq_true.1 hp with rfl | rfl
    · cases ha
      simp [Layers.openList]
      omega
    · obtain ⟨inner, outer⟩ := layers
      cases outer with
      | nil => cases ha
      | cons around outer =>
        cases ha
        simp at h ⊢
        omega
  · rw [Bool.not_eq_true] at hp
    rw [advance_of_leaf hp] at ha
    have hleaf : [token].count [')'] = [token].count ['('] := (Balanced.leaf ⟨token, hp⟩).2
    cases hatom : readAtom token with
    | error e => rw [hatom] at ha; cases ha
    | ok v =>
      rw [hatom] at ha
      cases ha
      simp only [Layers.add]
      omega

/-- The token after some others fits just if it is taken up. -/
theorem advance_eq_error_iff {tokens rest : List Token} {layers : Layers} {token : Token}
    {s : Stop} (h : Depth tokens layers) :
    advance tokens.length token layers = .error s ↔
      Misfit (tokens ++ token :: rest) tokens.length s := by
  have hget : (tokens ++ token :: rest)[tokens.length]? = some token := by simp
  have htake : (tokens ++ token :: rest).take (tokens.length + 1) = tokens ++ [token] := by
    simp [List.take_append]
  rw [misfit_iff hget, htake, List.count_append, List.count_append]
  by_cases hp : isParenthesis token = true
  · rcases isParenthesis_eq_true.1 hp with rfl | rfl
    · refine iff_of_false (fun ha => by cases ha) ?_
      rintro (⟨hclose, -⟩ | ⟨hleaf, -⟩)
      · cases hclose
      · cases hleaf
    · obtain ⟨inner, outer⟩ := layers
      unfold Depth at h
      cases outer with
      | nil =>
        have hclose : tokens.count ['('] + [[')']].count ['('] <
            tokens.count [')'] + [[')']].count [')'] := by
          simp at h ⊢
          omega
        constructor
        · intro ha
          cases ha
          exact .inl ⟨rfl, hclose, rfl⟩
        · rintro (⟨-, -, rfl⟩ | ⟨hleaf, -⟩)
          · rfl
          · cases hleaf
      | cons around outer =>
        refine iff_of_false (fun ha => by cases ha) ?_
        rintro (⟨-, hdepth, -⟩ | ⟨hleaf, -⟩)
        · simp at h hdepth
          omega
        · cases hleaf
  · rw [Bool.not_eq_true] at hp
    rw [advance_of_leaf hp]
    constructor
    · intro ha
      cases hatom : readAtom token with
      | error e' => rw [hatom] at ha; cases ha; exact .inr ⟨hp, rfl⟩
      | ok v => rw [hatom] at ha; cases ha
    · rintro (⟨rfl, -⟩ | ⟨-, he⟩)
      · cases hp
      · rw [he]
        rfl

/-- After tokens that all fit, the fault of the whole is reported. -/
theorem readFrom_eq_error_iff {rest : List Token} {s : Stop} :
    ∀ {tokens : List Token} {layers : Layers}, Depth tokens layers →
      (∀ k < tokens.length, ∀ s', ¬ Misfit (tokens ++ rest) k s') →
      (readFrom tokens.length layers rest = .error s ↔ Fault (tokens ++ rest) s) := by
  induction rest with
  | nil =>
    intro tokens layers hdepth hfit
    rw [List.append_nil] at hfit ⊢
    rw [fault_iff_of_fit hfit, readFrom]
    unfold Depth at hdepth
    cases houter : layers.outer with
    | nil =>
      rw [houter, List.length_nil] at hdepth
      simp only [List.isEmpty_nil, if_true, reduceCtorEq, false_iff, not_and]
      omega
    | cons around outer =>
      rw [houter, List.length_cons] at hdepth
      simp only [List.isEmpty_cons, Bool.false_eq_true, if_false, Except.error.injEq]
      constructor
      · rintro rfl
        exact ⟨by omega, rfl⟩
      · rintro ⟨-, rfl⟩
        rfl
  | cons token rest ih =>
    intro tokens layers hdepth hfit
    rw [readFrom]
    cases hadvance : advance tokens.length token layers with
    | error s' =>
      have hmisfit : Misfit (tokens ++ token :: rest) tokens.length s' :=
        (advance_eq_error_iff hdepth).1 hadvance
      rw [fault_iff_of_first ⟨hmisfit, hfit⟩, Except.error.injEq]
    | ok after =>
      have hfit' : ∀ k < (tokens ++ [token]).length, ∀ s',
          ¬ Misfit (tokens ++ [token] ++ rest) k s' := by
        intro k hk s' hmisfit
        rw [List.append_assoc, List.singleton_append] at hmisfit
        rw [List.length_append, List.length_singleton, Nat.lt_succ_iff] at hk
        rcases Nat.lt_or_eq_of_le hk with hlt | rfl
        · exact hfit k hlt s' hmisfit
        · rw [(advance_eq_error_iff hdepth).2 hmisfit] at hadvance
          cases hadvance
      have hrest := ih (hdepth.advance hadvance) hfit'
      rw [List.append_assoc, List.singleton_append, List.length_append,
        List.length_singleton] at hrest
      exact hrest

theorem readTokens_eq_error_iff {tokens : List Token} {s : Stop} :
    readTokens tokens = .error s ↔ Fault tokens s :=
  @readFrom_eq_error_iff tokens s [] .start rfl fun _ hk => absurd hk (Nat.not_lt_zero _)

theorem not_fault_of_balanced {tokens : List Token} (h : Balanced tokens) (ha : Denotes tokens)
    (s : Stop) : ¬ Fault tokens s := by
  rintro (⟨k, hk, -⟩ | ⟨-, hopen, -⟩)
  · cases hk with
    | close _ hdepth => exact Nat.not_le_of_lt hdepth (h.1 _)
    | atom hk hleaf he =>
      obtain ⟨v, hv⟩ := ha _ (List.mem_of_getElem? hk) hleaf
      rw [he] at hv
      cases hv
  · exact Nat.ne_of_lt hopen h.2

theorem exists_readTokens_iff {tokens : List Token} :
    (∃ forms, readTokens tokens = .ok forms) ↔ Balanced tokens ∧ Denotes tokens := by
  constructor
  · rintro ⟨forms, h⟩
    obtain ⟨forest, rfl, hvalue⟩ := exists_forest h
    exact ⟨balanced_flattenAll forest, denotes_of_valueAll hvalue⟩
  · rintro ⟨hbalanced, hdenotes⟩
    cases hr : readTokens tokens with
    | ok forms => exact ⟨forms, rfl⟩
    | error s =>
      exact absurd (readTokens_eq_error_iff.1 hr) (not_fault_of_balanced hbalanced hdenotes s)

/-- A forest whose leaves denote values is read from its tokens. -/
theorem readTokens_flattenAll {forest : List Tree} {forms : List Value}
    (h : valueAll forest = .ok forms) : readTokens (flattenAll forest) = .ok forms := by
  obtain ⟨forms', hread⟩ :=
    exists_readTokens_iff.2 ⟨balanced_flattenAll forest, denotes_of_valueAll h⟩
  obtain ⟨forest', hflat, hvalue⟩ := exists_forest hread
  rw [flattenAll_injective hflat, h] at hvalue
  cases hvalue
  exact hread

/-! ## Kinds of faults -/

/-- How an atom fails: as a number after a base mark, or by its number of digits. -/
theorem readAtom_eq_error {token : Token} {s : Stop} (h : readAtom token = .error s) :
    s = .error (.malformedNumber (String.ofList token)) ∨
      s = .error (.numberTooLarge (String.ofList token)) ∨ readInteger token = .error s := by
  have hbased : ∀ {base isDigit digits}, readBased token base isDigit digits = .error s →
      s = .error (.malformedNumber (String.ofList token)) ∨
        s = .error (.numberTooLarge (String.ofList token)) := by
    intro base isDigit digits hb
    unfold readBased at hb
    split at hb
    · cases hb
      exact .inl rfl
    · split at hb
      · cases hb
        exact .inr rfl
      · cases hb
  unfold readAtom readNumberOrSymbol readOther at h
  repeat' split at h
  all_goals first
    | exact (hbased h).imp_right .inl
    | cases h
  next hinteger => exact .inr (.inr hinteger)

theorem kind_of_fault {tokens : List Token} {s : Stop} (h : Fault tokens s) :
    (∃ e, s = .error e ∧ e.kind = .reading ∧ e ≠ .unexpectedEnd) ∨
      ∃ token ∈ tokens, readInteger token = .error s := by
  rcases h with ⟨k, hk, -⟩ | ⟨-, -, rfl⟩
  · cases hk with
    | close _ _ => exact .inl ⟨_, rfl, rfl, by simp⟩
    | atom hget _ hs =>
      rcases readAtom_eq_error hs with rfl | rfl | hinteger
      · exact .inl ⟨_, rfl, rfl, by simp⟩
      · exact .inl ⟨_, rfl, rfl, by simp⟩
      · exact .inr ⟨_, List.mem_of_getElem? hget, hinteger⟩
  · exact .inl ⟨_, rfl, rfl, by simp⟩

/-- Tokens are read just if their parentheses are balanced and all others denote values.
What is read is then the one forest that has these tokens, with a value for each leaf.
Otherwise the fault reported is the first token that does not fit, be it a parenthesis
or an atom, and if there is none, that a list is left open. It is an error of the
language, unless the atom at fault has too many digits. -/
theorem readTokens_grammar (tokens : List Token) :
    ((∃ forms, readTokens tokens = .ok forms) ↔ Balanced tokens ∧ Denotes tokens) ∧
    (∀ forms, readTokens tokens = .ok forms →
      ∃ forest, valueAll forest = .ok forms ∧
        ∀ other, flattenAll other = tokens ↔ other = forest) ∧
    (∀ s, readTokens tokens = .error s ↔ Fault tokens s) ∧
    (∀ s, readTokens tokens = .error s →
      (∃ e, s = .error e ∧ e.kind = .reading ∧ e ≠ .unexpectedEnd) ∨
        ∃ token ∈ tokens, Number.exceedsDigitLimit token = true ∧
          s = .fault (.tooManyDigits (Number.splitSign token).2.length)) ∧
    (∀ k, (ScriptError.unexpectedClose k).message = "Unexpected ')' at token " ++ toString k) ∧
    ScriptError.unterminatedList.message = "Unterminated list: missing ')'" := by
  refine ⟨exists_readTokens_iff, ?_, fun s => readTokens_eq_error_iff, ?_, fun k => rfl, rfl⟩
  · intro forms h
    obtain ⟨forest, rfl, hvalue⟩ := exists_forest h
    exact ⟨forest, hvalue, fun other => flattenAll_injective.eq_iff⟩
  · intro s h
    refine (kind_of_fault (readTokens_eq_error_iff.1 h)).imp_right ?_
    rintro ⟨token, hmem, hs⟩
    exact ⟨token, hmem, readInteger_eq_error_iff.1 hs⟩

end SmallLisp.Reading
