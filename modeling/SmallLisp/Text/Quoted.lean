import SmallLisp.Text.Printable

/-! # Quoted texts

Two ways to write a text between quotes: as a string of the language, and for
messages and logs, where every character that does not print is spelled out. -/

namespace SmallLisp.Text

/-- Quotes and backslashes are preceded by a backslash. -/
def escapeSource : List Char → List Char
  | [] => []
  | c :: cs =>
    if c = '\\' || c = '"' then '\\' :: c :: escapeSource cs else c :: escapeSource cs

/-- A string as the language writes it. -/
def quoteSource (cs : List Char) : List Char := '"' :: escapeSource cs ++ ['"']

/-- The `width` last hexadecimal digits of `n`, in lower case. -/
def hexDigits : Nat → Nat → List Char
  | 0, _ => []
  | width + 1, n => hexDigits width (n / 16) ++ [Nat.digitChar (n % 16)]

/-- One character between `quote` characters: control characters by their
letter, others that do not print by the shortest of three code spellings. -/
def escapeMessage (quote c : Char) : List Char :=
  let n := c.toNat
  if c = '\\' || c = quote then ['\\', c]
  else if c = '\n' then ['\\', 'n']
  else if c = '\r' then ['\\', 'r']
  else if c = '\t' then ['\\', 't']
  else if isPrintable c then [c]
  else if n < 0x100 then '\\' :: 'x' :: hexDigits 2 n
  else if n < 0x10000 then '\\' :: 'u' :: hexDigits 4 n
  else '\\' :: 'U' :: hexDigits 8 n

/-- A text as messages and logs show it: between single quotes, unless it
holds a single quote and no double one. -/
def quoteMessage (cs : List Char) : List Char :=
  let quote := if cs.contains '\x27' && !cs.contains '"' then '"' else '\x27'
  quote :: cs.flatMap (escapeMessage quote) ++ [quote]

end SmallLisp.Text
