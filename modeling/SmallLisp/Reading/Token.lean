import SmallLisp.Text.Blank

/-! # Tokens

A source text is a sequence of parentheses, strings and words. A string token
keeps its opening quote, which tells it from a word; blanks and comments leave
no token. Every text has tokens: a string or comment may be left open. -/

namespace SmallLisp.Reading

abbrev Token := List Char

/-- What the scanner is in the middle of. -/
inductive Mode where
  | plain
  | string
  | escaped
  | comment
deriving DecidableEq, Repr

/-- The word or string that has been collected, newest character first. -/
def finished (collected : List Char) : List Token :=
  if collected.isEmpty then [] else [collected.reverse]

/-- The tokens of the rest of a text, given the mode and what was collected. -/
def scan : Mode → List Char → List Char → List Token
  | _, collected, [] => finished collected
  | .escaped, collected, c :: cs => scan .string (c :: collected) cs
  | .string, collected, c :: cs =>
    if c = '"' then collected.reverse :: scan .plain [] cs
    else if c = '\\' then scan .escaped collected cs
    else scan .string (c :: collected) cs
  | .comment, collected, c :: cs =>
    if c = '\n' then scan .plain collected cs else scan .comment collected cs
  | .plain, collected, c :: cs =>
    if c = '(' || c = ')' then finished collected ++ [c] :: scan .plain [] cs
    else if c = '"' then finished collected ++ scan .string ['"'] cs
    else if c = ';' then finished collected ++ scan .comment [] cs
    else if Text.isBlank c then finished collected ++ scan .plain [] cs
    else scan .plain (c :: collected) cs

def tokens (source : List Char) : List Token := scan .plain [] source

end SmallLisp.Reading
