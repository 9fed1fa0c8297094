import SmallLisp.Proofs.Bounds
import SmallLisp.Proofs.Number.ReadBack
import SmallLisp.Proofs.Reading.Grammar
import SmallLisp.Proofs.Reading.Scanning
import SmallLisp.Value.Display

/-! # Reading what was written

A value is read back from its source text just if it can be written at all: numbers
have to be in range, and the name of a symbol has to be a word that is read as that
symbol. Whatever is read can be written, so that the forms of a text, written one
after another, are read again as they were. -/

namespace SmallLisp

open Number Reading Reading.Tree

/-- A name that stands for its symbol in a source. -/
structure IsName (name : String) : Prop where
  word : IsWord name.toList
  symbol : readAtom name.toList = .ok (.symbol name)

namespace Value

mutual

/-- No NaN occurs in the value, at any depth of lists. -/
def NaNFree : Value → Prop
  | float x => x.isNaN = false
  | list items => NaNFreeAll items
  | _ => True

def NaNFreeAll : List Value → Prop
  | [] => True
  | v :: vs => NaNFree v ∧ NaNFreeAll vs

end

mutual

/-- The value can be written in a source. -/
def Readable : Value → Prop
  | nil | bool _ | string _ => True
  | int n => inRange n = true
  | float x => x.isNaN = false
  | symbol name => IsName name
  | list items => ReadableAll items
  | builtin _ | host _ | closure .. => False

def ReadableAll : List Value → Prop
  | [] => True
  | v :: vs => Readable v ∧ ReadableAll vs

end

theorem nanFreeAll_iff {vs : List Value} : NaNFreeAll vs ↔ ∀ v ∈ vs, v.NaNFree := by
  induction vs with
  | nil => simp [NaNFreeAll]
  | cons v vs ih => simp [NaNFreeAll, ih]

theorem readableAll_iff {vs : List Value} : ReadableAll vs ↔ ∀ v ∈ vs, v.Readable := by
  induction vs with
  | nil => simp [ReadableAll]
  | cons v vs ih => simp [ReadableAll, ih]

end Value

/-! ## Writing -/

namespace Reading

/-- The source text of a value spells the tokens of a tree that denotes it. -/
structure Written (v : Value) (t : Tree) : Prop where
  value : t.value = .ok v
  tokens : ∀ rest, AtWordEnd rest →
    tokens (v.source.toList ++ rest) = t.flatten ++ Reading.tokens rest

/-- The same for values one after another, with one blank between two of them. -/
structure WrittenAll (vs : List Value) (ts : List Tree) : Prop where
  value : valueAll ts = .ok vs
  tokens : ∀ rest, AtWordEnd rest →
    tokens ((" ".intercalate (vs.map Value.source)).toList ++ rest) =
      flattenAll ts ++ Reading.tokens rest

theorem IsWord.not_parenthesis {word : List Char} (h : IsWord word) :
    isParenthesis word = false := by
  by_contra hp
  rw [Bool.not_eq_false, isParenthesis_eq_true] at hp
  rcases hp with rfl | rfl
  · exact absurd (h.all '(' (by simp)) (by decide)
  · exact absurd (h.all ')' (by simp)) (by decide)

theorem written_word {v : Value} {word : List Char} (hword : IsWord word)
    (hvalue : readAtom word = .ok v) (hsource : v.source.toList = word) : ∃ t, Written v t := by
  refine ⟨.leaf ⟨word, hword.not_parenthesis⟩, hvalue, fun rest hrest => ?_⟩
  rw [hsource, tokens_word hword hrest]
  rfl

theorem endsWord_of_isSpelling {c : Char} (h : isSpelling c = true) : endsWord c = false := by
  simp only [isSpelling, Bool.or_eq_true, decide_eq_true_eq, List.mem_cons, List.not_mem_nil,
    or_false] at h
  rcases h with hdigit | rfl | rfl | rfl | rfl | rfl | rfl | rfl
  · rw [isDecimalDigit_iff] at hdigit
    have hblank : Text.isBlank c = false := by
      simp only [Text.isBlank, Bool.or_eq_false_iff, Bool.and_eq_false_iff, decide_eq_false_iff_not,
        beq_eq_false_iff_ne]
      omega
    have hne : ∀ delimiter : Char, delimiter.toNat < 48 ∨ 57 < delimiter.toNat → c ≠ delimiter := by
      rintro delimiter hout rfl
      omega
    exact endsWord_eq_false.2 ⟨hblank, hne _ (by decide), hne _ (by decide), hne _ (by decide),
      hne _ (by decide)⟩
  all_goals decide

theorem readAtom_of_isSpelling {token : Token} (h : ∀ c ∈ token, isSpelling c = true) :
    readAtom token = readNumberOrSymbol token := by
  have hother : ∀ c, isSpelling c = false → c ∉ token := by
    intro c hc hmem
    rw [h c hmem] at hc
    cases hc
  have hnil : token ≠ ['n', 'i', 'l'] := by
    rintro rfl
    exact hother 'l' (by decide) (by simp)
  have htrue : token ≠ ['t', 'r', 'u', 'e'] := by
    rintro rfl
    exact hother 't' (by decide) (by simp)
  have hfalse : token ≠ ['f', 'a', 'l', 's', 'e'] := by
    rintro rfl
    exact hother 'a' (by decide) (by simp)
  unfold readAtom
  rw [if_neg hnil, if_neg htrue, if_neg hfalse]
  split
  · exact absurd List.mem_cons_self (hother '"' (by decide))
  · rfl

theorem integerText_ne_nil (n : Int) : integerText n ≠ [] := by
  unfold integerText
  split
  · exact List.cons_ne_nil _ _
  · exact decimalDigits_ne_nil _

theorem readInteger_integerText {n : Int} (h : inRange n = true) :
    readInteger (integerText n) = .ok (some n) :=
  readInteger_eq_ok_iff.2 ⟨exceedsDigitLimit_integerText h, integer?_integerText h⟩

theorem readAtom_integerText {n : Int} (h : inRange n = true) :
    readAtom (integerText n) = .ok (.int n) := by
  rw [readAtom_of_isSpelling (isSpelling_integerText n), readNumberOrSymbol,
    readInteger_integerText h]

theorem written_int {n : Int} (h : inRange n = true) : ∃ t, Written (.int n) t := by
  have hspelling := isSpelling_integerText n
  have hword : IsWord (integerText n) :=
    ⟨integerText_ne_nil n, fun c hc => endsWord_of_isSpelling (hspelling c hc)⟩
  exact written_word hword (readAtom_integerText h) String.toList_ofList

theorem written_float (x : Binary64) : ∃ t, Written (.float (.number x)) t := by
  have hspelling := Floating.isSpelling_sourceText x
  have hread := Floating.ofText?_sourceText x
  have hword : IsWord (Floating.number x).sourceText := by
    refine ⟨fun hnil => ?_, fun c hc => endsWord_of_isSpelling (hspelling c hc)⟩
    rw [hnil] at hread
    cases hread
  refine written_word hword ?_ String.toList_ofList
  have hinteger : readInteger (Floating.number x).sourceText = .ok none :=
    readInteger_eq_ok_iff.2
      ⟨Floating.exceedsDigitLimit_sourceText x, Floating.integer?_sourceText x⟩
  rw [readAtom_of_isSpelling hspelling, readNumberOrSymbol, hinteger]
  simp only [hread]

theorem written_string (s : String) : ∃ t, Written (.string s) t := by
  refine ⟨.leaf ⟨'"' :: s.toList, by simp [isParenthesis]⟩, ?_, fun rest _ => ?_⟩
  · simp [Tree.value, readAtom]
  · rw [Value.source, String.toList_ofList, tokens_quoteSource]
    rfl

theorem written_list {vs : List Value} {ts : List Tree} (h : WrittenAll vs ts) :
    Written (.list vs) (.node ts) := by
  refine ⟨value_node h.value, fun rest hrest => ?_⟩
  have hclose : AtWordEnd (')' :: rest) := atWordEnd_cons (by decide) rest
  have hsource : (Value.list vs).source.toList ++ rest =
      '(' :: ((" ".intercalate (vs.map Value.source)).toList ++ ')' :: rest) := by
    simp [Value.source, Value.sourceAll_eq_map]
  rw [hsource, tokens_open, h.tokens _ hclose, tokens_close, flatten]
  simp

theorem writtenAll_nil : WrittenAll [] [] := ⟨rfl, fun _ _ => rfl⟩

theorem WrittenAll.cons {v : Value} {t : Tree} {vs : List Value} {ts : List Tree}
    (h : Written v t) (hs : WrittenAll vs ts) : WrittenAll (v :: vs) (t :: ts) := by
  refine ⟨valueAll_cons h.value hs.value, fun rest hrest => ?_⟩
  cases vs with
  | nil =>
    obtain rfl : ts = [] := by
      cases ts with
      | nil => rfl
      | cons t ts =>
        obtain ⟨v, vs, -, -, heq⟩ := valueAll_cons_inv hs.value
        cases heq
    simpa [flattenAll] using h.tokens rest hrest
  | cons u us =>
    have hspace : ∀ cs, AtWordEnd (' ' :: cs) := atWordEnd_cons (by decide)
    have hfirst := h.tokens _
      (hspace ((" ".intercalate ((u :: us).map Value.source)).toList ++ rest))
    rw [tokens_space, hs.tokens rest hrest] at hfirst
    rw [flattenAll, List.append_assoc, ← hfirst]
    simp

mutual

/-- A value that can be written is written with the tokens of a tree that denotes it. -/
theorem exists_written : ∀ {v : Value}, v.Readable → ∃ t, Written v t
  | .nil, _ => by
    have hword : IsWord ['n', 'i', 'l'] := ⟨by simp, by simp [endsWord, Text.isBlank]⟩
    exact written_word hword rfl rfl
  | .bool true, _ => by
    have hword : IsWord ['t', 'r', 'u', 'e'] := ⟨by simp, by simp [endsWord, Text.isBlank]⟩
    exact written_word hword rfl rfl
  | .bool false, _ => by
    have hword : IsWord ['f', 'a', 'l', 's', 'e'] := ⟨by simp, by simp [endsWord, Text.isBlank]⟩
    exact written_word hword rfl rfl
  | .int n, h => written_int h
  | .float (.number x), _ => written_float x
  | .float (.nan mark), h => by cases h
  | .string s, _ => written_string s
  | .symbol name, h => written_word h.word h.symbol rfl
  | .list items, h => by
    obtain ⟨ts, hts⟩ := exists_writtenAll h
    exact ⟨.node ts, written_list hts⟩
  | .builtin _, h | .host _, h | .closure .., h => h.elim

theorem exists_writtenAll : ∀ {vs : List Value}, Value.ReadableAll vs → ∃ ts, WrittenAll vs ts
  | [], _ => ⟨[], writtenAll_nil⟩
  | v :: vs, h => by
    obtain ⟨t, ht⟩ := exists_written h.1
    obtain ⟨ts, hts⟩ := exists_writtenAll h.2
    exact ⟨t :: ts, .cons ht hts⟩

end

/-- Values that can be written are read from their texts, one blank between two. -/
theorem read_intercalate {vs : List Value} (h : Value.ReadableAll vs) :
    read (" ".intercalate (vs.map Value.source)) = .ok vs := by
  obtain ⟨ts, hvalue, htokens⟩ := exists_writtenAll h
  have hall := htokens [] atWordEnd_nil
  rw [List.append_nil, show Reading.tokens [] = [] from rfl, List.append_nil] at hall
  rw [read, hall, readTokens_flattenAll hvalue]

/-! ## What is read can be written -/

theorem readable_of_readBased {token : Token} {base : Nat} {isDigit : Char → Bool}
    {digits : List Char} {v : Value} (h : readBased token base isDigit digits = .ok v) :
    v.Readable := by
  unfold readBased at h
  split at h
  · cases h
  · split at h
    · cases h
    · next hle =>
      cases h
      rw [greatestInteger] at hle
      exact Bounds.inRange_of_lt (by omega)

theorem readable_of_readAtom {token : Token} {v : Value} (htoken : WellFormed token)
    (hleaf : isParenthesis token = false) (h : readAtom token = .ok v) (hnan : v.NaNFree) :
    v.Readable := by
  have hatom := h
  unfold readAtom at h
  split at h
  · cases h
    trivial
  split at h
  · cases h
    trivial
  split at h
  · cases h
    trivial
  split at h
  · cases h
    trivial
  · next hstring =>
    unfold readNumberOrSymbol at h
    split at h
    · cases h
    · next n hn =>
      cases h
      exact Bounds.inRange_of_integer? (readInteger_eq_ok_iff.1 hn).2
    · split at h
      · cases h
        exact hnan
      · unfold readOther at h
        split at h
        · exact readable_of_readBased h
        · exact readable_of_readBased h
        · cases h
          -- The token is neither a parenthesis nor a string, so that it is a word.
          have hword : IsWord token := by
            rcases htoken with hp | hquote | hword
            · rw [hleaf] at hp
              cases hp
            · obtain ⟨cs, rfl⟩ := List.head?_eq_some_iff.1 hquote
              exact absurd rfl (hstring cs)
            · exact hword
          exact ⟨by rwa [String.toList_ofList], by rwa [String.toList_ofList]⟩

mutual

theorem readable_of_value : ∀ {t : Tree} {v : Value}, (∀ token ∈ t.flatten, WellFormed token) →
    t.value = .ok v → v.NaNFree → v.Readable
  | .leaf token, v, htokens, h, hnan =>
    readable_of_readAtom (htokens _ (List.mem_singleton_self _)) token.2 h hnan
  | .node ts, v, htokens, h, hnan => by
    obtain ⟨vs, hvs, rfl⟩ := value_node_inv h
    refine readableAll_of_valueAll (fun token ht => htokens token ?_) hvs hnan
    exact List.mem_cons_of_mem _ (List.mem_append_left _ ht)

theorem readableAll_of_valueAll : ∀ {ts : List Tree} {vs : List Value},
    (∀ token ∈ flattenAll ts, WellFormed token) → valueAll ts = .ok vs →
    Value.NaNFreeAll vs → Value.ReadableAll vs
  | [], _, _, h, _ => by
    cases h
    trivial
  | t :: ts, us, htokens, h, hnan => by
    obtain ⟨v, vs, ht, hts, rfl⟩ := valueAll_cons_inv h
    refine ⟨readable_of_value (fun token hmem => htokens token ?_) ht hnan.1,
      readableAll_of_valueAll (fun token hmem => htokens token ?_) hts hnan.2⟩
    · exact List.mem_append_left _ hmem
    · exact List.mem_append_right _ hmem

end

theorem readableAll_of_read {source : String} {forms : List Value} (h : read source = .ok forms)
    (hnan : Value.NaNFreeAll forms) : Value.ReadableAll forms := by
  obtain ⟨forest, hflat, hvalue⟩ := exists_forest h
  refine readableAll_of_valueAll (fun token ht => ?_) hvalue hnan
  rw [hflat] at ht
  exact wellFormed_of_mem_tokens token ht

end Reading

/-- A value without NaNs is read back from its source text, and is all that is read, just
if it can be written. -/
theorem read_source_iff (v : Value) (h : v.NaNFree) :
    Reading.read v.source = .ok [v] ↔ v.Readable := by
  constructor
  · intro hread
    exact (Reading.readableAll_of_read hread ⟨h, trivial⟩).1
  · intro hreadable
    have hall : Value.ReadableAll [v] := ⟨hreadable, trivial⟩
    simpa using Reading.read_intercalate hall

/-- A list of a string with delimiters, the least integer, a symbol and a list is read
back; a symbol with the name of a numeral is not. -/
theorem read_source_mixed :
    let v : Value := .list [.string "\"a\\b\n(;", .int (-9223372036854775808), .symbol "+x",
      .list [.nil, .bool true]]
    v.NaNFree ∧ Reading.read v.source = .ok [v] ∧
      (Value.symbol "07").NaNFree ∧
        Reading.read (Value.symbol "07").source ≠ .ok [.symbol "07"] := by
  intro v
  have hname : IsName "+x" := ⟨⟨by decide, by simp [endsWord, Text.isBlank]⟩, rfl⟩
  have hnan : v.NaNFree := by simp [v, Value.NaNFree, Value.NaNFreeAll]
  have hreadable : v.Readable := ⟨trivial, rfl, hname, ⟨trivial, trivial, trivial⟩, trivial⟩
  have hnumeral : ¬ (Value.symbol "07").Readable := by
    rintro ⟨-, h⟩
    cases h
  exact ⟨hnan, (read_source_iff v hnan).2 hreadable, trivial,
    mt (read_source_iff (.symbol "07") trivial).1 hnumeral⟩

/-- The forms of a text in which no NaN is written are read again from their own source
texts, with one blank between two of them. -/
theorem read_sources_of_read (source : String) (forms : List Value)
    (h : Reading.read source = .ok forms) (hnan : ∀ form ∈ forms, form.NaNFree) :
    Reading.read (" ".intercalate (forms.map Value.source)) = .ok forms := by
  have hreadable := Reading.readableAll_of_read h (Value.nanFreeAll_iff.2 hnan)
  exact Reading.read_intercalate hreadable

/-- A text with a comment, two spellings of numbers, a string without a blank after it
and one without an end. -/
theorem read_sources_of_read_spellings :
    let forms : List Value :=
      [.list [.symbol "+", .int 31, .int 7, .string "a", .symbol "b"], .string "c"]
    Reading.read "; note\n(+ 0x1F +07 \"a\"b) \"c" = .ok forms ∧
      (∀ form ∈ forms, form.NaNFree) ∧
      Reading.read (" ".intercalate (forms.map Value.source)) = .ok forms := by
  intro forms
  have hread : Reading.read "; note\n(+ 0x1F +07 \"a\"b) \"c" = .ok forms := rfl
  have hnan : ∀ form ∈ forms, form.NaNFree := by
    simp [forms, Value.NaNFree, Value.NaNFreeAll]
  exact ⟨hread, hnan, read_sources_of_read _ forms hread hnan⟩

end SmallLisp
