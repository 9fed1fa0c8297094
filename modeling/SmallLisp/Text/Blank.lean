/-! # Blank characters

The characters that separate words, trimming, and the words of a text. -/

namespace SmallLisp.Text

/-- The characters of the Unicode classes of white space and separators. -/
def isBlank (c : Char) : Bool :=
  let n := c.toNat
  (9 ≤ n && n ≤ 13) || (28 ≤ n && n ≤ 32) || n == 133 || n == 160 || n == 5760 ||
    (8192 ≤ n && n ≤ 8202) || n == 8232 || n == 8233 || n == 8239 || n == 8287 || n == 12288

def trimLeft (cs : List Char) : List Char := cs.dropWhile isBlank

def trimRight (cs : List Char) : List Char := (cs.reverse.dropWhile isBlank).reverse

def trim (cs : List Char) : List Char := trimRight (trimLeft cs)

/-- The pieces between the characters that satisfy `stop`. -/
def piecesBy (stop : Char → Bool) : List Char → List (List Char)
  | [] => [[]]
  | c :: cs =>
    if stop c then [] :: piecesBy stop cs
    else
      match piecesBy stop cs with
      | [] => [[c]]
      | piece :: pieces => (c :: piece) :: pieces

/-- The longest runs of characters that are not blank. -/
def words (cs : List Char) : List (List Char) :=
  (piecesBy isBlank cs).filter (!·.isEmpty)

end SmallLisp.Text
