import SmallLisp.Proofs.Reading.Trees
import SmallLisp.Text.Quoted

/-! # Scanning

The scanner gives parentheses, strings and words, whatever the text. It takes up a
word that is followed by an end of words, and a string between quotes, as one token
each, and goes on with the rest as if it were a text of its own. So every sequence of
such tokens is that of a text: the one in which they are written one after another. -/

namespace SmallLisp.Reading

/-- Blanks, parentheses, quotes and the start of a comment stand in no word. -/
def endsWord (c : Char) : Bool := Text.isBlank c || c ∈ ['(', ')', '"', ';']

/-- The characters of one or more that stand together in a word. -/
structure IsWord (cs : List Char) : Prop where
  ne_nil : cs ≠ []
  all : ∀ c ∈ cs, endsWord c = false

/-- A parenthesis, a string with its quote in front, or a word. -/
def WellFormed (token : Token) : Prop :=
  isParenthesis token = true ∨ token.head? = some '"' ∨ IsWord token

/-- The text does not go on with what may stand in a word. -/
def AtWordEnd (rest : List Char) : Prop := ∀ c ∈ rest.head?, endsWord c = true

theorem atWordEnd_nil : AtWordEnd [] := fun _ h => by cases h

theorem atWordEnd_cons {c : Char} (h : endsWord c = true) (rest : List Char) :
    AtWordEnd (c :: rest) := by
  intro c' hc'
  cases hc'
  exact h

theorem endsWord_eq_false {c : Char} :
    endsWord c = false ↔
      Text.isBlank c = false ∧ c ≠ '(' ∧ c ≠ ')' ∧ c ≠ '"' ∧ c ≠ ';' := by
  simp [endsWord]

@[simp] theorem finished_nil : finished [] = [] := rfl

/-! ## What one character does -/

theorem scan_nil (mode : Mode) (collected : List Char) :
    scan mode collected [] = finished collected := by
  cases mode <;> rfl

theorem scan_cons_escaped (collected : List Char) (c : Char) (cs : List Char) :
    scan .escaped collected (c :: cs) = scan .string (c :: collected) cs := rfl

theorem scan_cons_string (collected : List Char) (c : Char) (cs : List Char) :
    scan .string collected (c :: cs) =
      if c = '"' then collected.reverse :: scan .plain [] cs
      else if c = '\\' then scan .escaped collected cs
      else scan .string (c :: collected) cs := rfl

theorem scan_cons_comment (collected : List Char) (c : Char) (cs : List Char) :
    scan .comment collected (c :: cs) =
      if c = '\n' then scan .plain collected cs else scan .comment collected cs := rfl

theorem scan_cons_plain (collected : List Char) (c : Char) (cs : List Char) :
    scan .plain collected (c :: cs) =
      if c = '(' || c = ')' then finished collected ++ [c] :: scan .plain [] cs
      else if c = '"' then finished collected ++ scan .string ['"'] cs
      else if c = ';' then finished collected ++ scan .comment [] cs
      else if Text.isBlank c then finished collected ++ scan .plain [] cs
      else scan .plain (c :: collected) cs := rfl

/-! ## Taking up a token -/

theorem scan_plain_cons {c : Char} (h : endsWord c = false) (collected rest : List Char) :
    scan .plain collected (c :: rest) = scan .plain (c :: collected) rest := by
  obtain ⟨hblank, hopen, hclose, hquote, hcomment⟩ := endsWord_eq_false.1 h
  simp [scan_cons_plain, hblank, hopen, hclose, hquote, hcomment]

theorem scan_plain_append {word : List Char} (h : ∀ c ∈ word, endsWord c = false)
    (collected rest : List Char) :
    scan .plain collected (word ++ rest) = scan .plain (word.reverse ++ collected) rest := by
  induction word generalizing collected with
  | nil => rfl
  | cons c cs ih =>
    rw [List.forall_mem_cons] at h
    rw [List.cons_append, scan_plain_cons h.1, ih h.2, List.reverse_cons, List.append_assoc]
    rfl

/-- At the end of a word, what was collected is a token. -/
theorem scan_plain_of_atWordEnd {rest : List Char} (h : AtWordEnd rest) (collected : List Char) :
    scan .plain collected rest = finished collected ++ tokens rest := by
  cases rest with
  | nil => simp [scan_nil, tokens]
  | cons c cs =>
    have hc := h c rfl
    simp only [endsWord, Bool.or_eq_true, decide_eq_true_eq, List.mem_cons, List.not_mem_nil,
      or_false] at hc
    rw [tokens, scan_cons_plain, scan_cons_plain]
    rcases hc with hblank | rfl | rfl | rfl | rfl
    · simp only [hblank, if_true, finished_nil, List.nil_append]
      split_ifs <;> rfl
    all_goals simp

theorem tokens_word {word rest : List Char} (hword : IsWord word) (hrest : AtWordEnd rest) :
    tokens (word ++ rest) = word :: tokens rest := by
  rw [tokens, scan_plain_append hword.all, scan_plain_of_atWordEnd hrest, List.append_nil]
  simp [finished, hword.ne_nil]

theorem scan_string (cs collected rest : List Char) :
    scan .string collected (Text.escapeSource cs ++ '"' :: rest) =
      (collected.reverse ++ cs) :: tokens rest := by
  induction cs generalizing collected with
  | nil => simp [Text.escapeSource, scan_cons_string, tokens]
  | cons c cs ih =>
    unfold Text.escapeSource
    split
    · have hescape : scan .string collected ('\\' :: c :: (Text.escapeSource cs ++ '"' :: rest)) =
          scan .string (c :: collected) (Text.escapeSource cs ++ '"' :: rest) := by
        simp [scan_cons_string, scan_cons_escaped]
      rw [List.cons_append, List.cons_append, hescape, ih]
      simp
    · next hplain =>
      simp only [Bool.or_eq_true, decide_eq_true_eq, not_or] at hplain
      rw [List.cons_append, scan_cons_string, if_neg hplain.2, if_neg hplain.1, ih]
      simp

theorem tokens_quoteSource (cs rest : List Char) :
    tokens (Text.quoteSource cs ++ rest) = ('"' :: cs) :: tokens rest := by
  have hquote : tokens ('"' :: (Text.escapeSource cs ++ '"' :: rest)) =
      scan .string ['"'] (Text.escapeSource cs ++ '"' :: rest) := by
    simp [tokens, scan_cons_plain]
  rw [Text.quoteSource, List.cons_append, List.cons_append, List.append_assoc,
    List.singleton_append, hquote, scan_string]
  rfl

theorem tokens_open (rest : List Char) : tokens ('(' :: rest) = ['('] :: tokens rest := by
  simp [tokens, scan_cons_plain]

theorem tokens_close (rest : List Char) : tokens (')' :: rest) = [')'] :: tokens rest := by
  simp [tokens, scan_cons_plain]

theorem tokens_space (rest : List Char) : tokens (' ' :: rest) = tokens rest := by
  simp [tokens, scan_cons_plain, Text.isBlank]

/-! ## All tokens are well-formed -/

/-- What may have been collected in each mode: letters of a word, a string from its
quote on, or nothing. -/
def Collecting : Mode → List Char → Prop
  | .plain, collected => ∀ c ∈ collected, endsWord c = false
  | .string, collected | .escaped, collected => collected.getLast? = some '"'
  | .comment, collected => collected = []

theorem wellFormed_of_mem_finished {mode : Mode} {collected : List Char}
    (h : Collecting mode collected) {token : Token} (ht : token ∈ finished collected) :
    WellFormed token := by
  cases collected with
  | nil => cases ht
  | cons c cs =>
    obtain rfl : token = (c :: cs).reverse := List.mem_singleton.1 ht
    cases mode with
    | plain =>
      refine .inr (.inr ⟨by simp, ?_⟩)
      intro c' hc'
      exact h c' (List.mem_reverse.1 hc')
    | string => exact .inr (.inl (by rw [List.head?_reverse]; exact h))
    | escaped => exact .inr (.inl (by rw [List.head?_reverse]; exact h))
    | comment => cases h

theorem Collecting.cons_string {collected : List Char} (h : Collecting .string collected)
    (c : Char) : Collecting .string (c :: collected) := by
  cases collected with
  | nil => cases h
  | cons c' cs => exact h

/-- The mode after one more character. -/
def Mode.after : Mode → Char → Mode
  | .escaped, _ => .string
  | .string, c => if c = '"' then .plain else if c = '\\' then .escaped else .string
  | .comment, c => if c = '\n' then .plain else .comment
  | .plain, c => if c = '"' then .string else if c = ';' then .comment else .plain

/-- In front of a word character no token ends; in front of any other, the word does. -/
theorem scan_plain_step {collected : List Char} (h : Collecting .plain collected) (c : Char) :
    ∃ done kept, (∀ token ∈ done, WellFormed token) ∧ Collecting (Mode.plain.after c) kept ∧
      ∀ rest, scan .plain collected (c :: rest) = done ++ scan (Mode.plain.after c) kept rest := by
  have hnone : ∀ token ∈ ([] : List Token), WellFormed token := fun _ ht => by cases ht
  have hstart : Collecting .plain [] := fun _ hc => by cases hc
  have hended : ∀ token ∈ finished collected, WellFormed token :=
    fun token ht => wellFormed_of_mem_finished h ht
  simp only [Mode.after]
  split_ifs with hquote hcomment
  · exact ⟨finished collected, ['"'], hended, rfl, fun _ => by simp [scan_cons_plain, hquote]⟩
  · exact ⟨finished collected, [], hended, rfl, fun _ => by simp [scan_cons_plain, hcomment]⟩
  by_cases hparenthesis : c = '(' ∨ c = ')'
  · refine ⟨finished collected ++ [[c]], [], ?_, hstart,
      fun _ => by simp [scan_cons_plain, hparenthesis]⟩
    rw [List.forall_mem_append, List.forall_mem_singleton]
    exact ⟨hended, .inl (by simpa [isParenthesis] using hparenthesis)⟩
  by_cases hblank : Text.isBlank c = true
  · refine ⟨finished collected, [], hended, hstart, fun _ => ?_⟩
    simp [scan_cons_plain, hparenthesis, hquote, hcomment, hblank]
  · rw [not_or] at hparenthesis
    have hc : endsWord c = false := endsWord_eq_false.2
      ⟨Bool.eq_false_of_not_eq_true hblank, hparenthesis.1, hparenthesis.2, hquote, hcomment⟩
    have hkept : Collecting .plain (c :: collected) := List.forall_mem_cons.2 ⟨hc, h⟩
    exact ⟨[], c :: collected, hnone, hkept, scan_plain_cons hc collected⟩

/-- One character completes some tokens, and the rest is scanned in the mode after it. -/
theorem scan_step {mode : Mode} {collected : List Char} (h : Collecting mode collected)
    (c : Char) :
    ∃ done kept, (∀ token ∈ done, WellFormed token) ∧ Collecting (mode.after c) kept ∧
      ∀ rest, scan mode collected (c :: rest) = done ++ scan (mode.after c) kept rest := by
  have hnone : ∀ token ∈ ([] : List Token), WellFormed token := fun _ ht => by cases ht
  have hstart : Collecting .plain [] := fun _ hc => by cases hc
  cases mode with
  | plain => exact scan_plain_step h c
  | escaped =>
    have hkept := Collecting.cons_string h c
    exact ⟨[], c :: collected, hnone, hkept, fun _ => scan_cons_escaped collected c _⟩
  | string =>
    have hkept := Collecting.cons_string h c
    simp only [Mode.after]
    split_ifs with hquote hescape
    · refine ⟨[collected.reverse], [], ?_, hstart, fun _ => by simp [scan_cons_string, hquote]⟩
      rw [List.forall_mem_singleton]
      exact .inr (.inl (by rw [List.head?_reverse]; exact h))
    · exact ⟨[], collected, hnone, h, fun _ => by simp [scan_cons_string, hescape]⟩
    · exact ⟨[], c :: collected, hnone, hkept,
        fun _ => by simp [scan_cons_string, hquote, hescape]⟩
  | comment =>
    obtain rfl : collected = [] := h
    simp only [Mode.after]
    split_ifs with hend
    · exact ⟨[], [], hnone, hstart, fun _ => by simp [scan_cons_comment, hend]⟩
    · exact ⟨[], [], hnone, rfl, fun _ => by simp [scan_cons_comment, hend]⟩

theorem wellFormed_of_mem_scan (cs : List Char) :
    ∀ {mode : Mode} {collected : List Char}, Collecting mode collected →
      ∀ token ∈ scan mode collected cs, WellFormed token := by
  induction cs with
  | nil =>
    intro mode collected h token ht
    rw [scan_nil] at ht
    exact wellFormed_of_mem_finished h ht
  | cons c cs ih =>
    intro mode collected h token ht
    obtain ⟨done, kept, hdone, hkept, hscan⟩ := scan_step h c
    rw [hscan, List.mem_append] at ht
    rcases ht with ht | ht
    · exact hdone token ht
    · exact ih hkept token ht

theorem wellFormed_of_mem_tokens {source : List Char} :
    ∀ token ∈ tokens source, WellFormed token :=
  wellFormed_of_mem_scan source fun _ h => by cases h

/-! ## Writing tokens -/

/-- A string is written between quotes, any other token as it is. -/
def writeToken : Token → List Char
  | '"' :: cs => Text.quoteSource cs
  | token => token

/-- Tokens one after another, with one blank between two of them. -/
def writeTokens (ts : List Token) : List Char := [' '].intercalate (ts.map writeToken)

theorem IsWord.head_ne_quote {word : List Char} (h : IsWord word) (cs : List Char) :
    word ≠ '"' :: cs := by
  rintro rfl
  have hquote := h.all '"' List.mem_cons_self
  exact absurd hquote (by decide)

theorem writeToken_word {word : List Char} (h : IsWord word) : writeToken word = word := by
  unfold writeToken
  split
  · next cs => exact absurd rfl (h.head_ne_quote cs)
  · rfl

/-- What is written for a token is taken up as that token. -/
theorem tokens_writeToken {token : Token} (h : WellFormed token) {rest : List Char}
    (hrest : AtWordEnd rest) : tokens (writeToken token ++ rest) = token :: tokens rest := by
  rcases h with hparenthesis | hstring | hword
  · simp only [isParenthesis, Bool.or_eq_true, decide_eq_true_eq] at hparenthesis
    rcases hparenthesis with rfl | rfl
    · exact tokens_open rest
    · exact tokens_close rest
  · obtain ⟨cs, rfl⟩ := List.head?_eq_some_iff.1 hstring
    exact tokens_quoteSource cs rest
  · rw [writeToken_word hword]
    exact tokens_word hword hrest

theorem tokens_writeTokens {ts : List Token} (h : ∀ token ∈ ts, WellFormed token) :
    tokens (writeTokens ts) = ts := by
  induction ts with
  | nil => rfl
  | cons token ts ih =>
    rw [List.forall_mem_cons] at h
    cases ts with
    | nil =>
      have hlast := tokens_writeToken h.1 atWordEnd_nil
      have hone : writeTokens [token] = writeToken token ++ [] := by simp [writeTokens]
      rw [hone, hlast]
      rfl
    | cons next ts =>
      have hsplit : writeTokens (token :: next :: ts) =
          writeToken token ++ ' ' :: writeTokens (next :: ts) := by
        simp [writeTokens]
      have hblank : AtWordEnd (' ' :: writeTokens (next :: ts)) := atWordEnd_cons (by decide) _
      rw [hsplit, tokens_writeToken h.1 hblank, tokens_space, ih h.2]

/-- Every token of a text is a parenthesis, a string or a word, and every sequence of
these is the tokens of the text that is written for it. -/
theorem tokens_image (ts : List Token) :
    (∀ source, ∀ token ∈ tokens source, WellFormed token) ∧
      ((∀ token ∈ ts, WellFormed token) → tokens (writeTokens ts) = ts) :=
  ⟨fun _ => wellFormed_of_mem_tokens, tokens_writeTokens⟩

/-- A string with a quote, a backslash, a parenthesis and a blank in it, the empty
string, and words beside parentheses. -/
theorem tokens_image_strings :
    let ts : List Token :=
      [['('], "\"a\"\\( ".toList, ['"'], "x".toList, [')'], "0x+".toList]
    (∀ token ∈ tokens (writeTokens ts), WellFormed token) ∧
      (∀ token ∈ ts, WellFormed token) ∧ tokens (writeTokens ts) = ts := by
  intro ts
  have hformed : ∀ token ∈ ts, WellFormed token := by
    have hword : ∀ word, word = "x".toList ∨ word = "0x+".toList → IsWord word := by
      rintro word (rfl | rfl) <;> exact ⟨by simp, by simp [endsWord, Text.isBlank]⟩
    intro token htoken
    simp only [ts, List.mem_cons, List.not_mem_nil, or_false] at htoken
    rcases htoken with rfl | rfl | rfl | rfl | rfl | rfl
    · exact .inl rfl
    · exact .inr (.inl rfl)
    · exact .inr (.inl rfl)
    · exact .inr (.inr (hword _ (.inl rfl)))
    · exact .inl rfl
    · exact .inr (.inr (hword _ (.inr rfl)))
  obtain ⟨himage, hread⟩ := tokens_image ts
  exact ⟨himage (writeTokens ts), hformed, hread hformed⟩

end SmallLisp.Reading
