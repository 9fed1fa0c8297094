import SmallLisp.Text.Case.Mapping
import SmallLisp.Text.Case.Context

/-! # Upper and lower case of a text

Each character has its full case mapping. A capital sigma at the end of a word
is the one letter whose lower case depends on what surrounds it. -/

namespace SmallLisp.Text

namespace Case

/-- The characters that stand for `c`: its spelling when it has one, else its
image in the run that covers it, else itself. -/
def mapped (spellings : List (Nat × List Nat)) (runs : Array Run) (c : Char) : List Char :=
  match spellings.lookup c.toNat with
  | some spelling => spelling.map Char.ofNat
  | none =>
    let i := lastAtMost (fun i => (runs[i]?.map Run.first).getD 0) c.toNat 0 runs.size
    match runs[i]? with
    | some r => if r.covers c.toNat then [Char.ofNat (r.apply c.toNat)] else [c]
    | none => [c]

def upperOf (c : Char) : List Char := mapped upperSpellings upperRuns c

def lowerOf (c : Char) : List Char := mapped lowerSpellings lowerRuns c

/-- Is the nearest character that is not ignorable cased? -/
def meetsCased (cs : List Char) : Bool :=
  match cs.dropWhile isIgnorable with
  | [] => false
  | c :: _ => isCased c

def capitalSigma : Char := Char.ofNat 0x3A3
def finalSigma : Char := Char.ofNat 0x3C2

/-- Lower case of a text, given the reversed text before it. -/
def lowerAfter (before : List Char) : List Char → List Char
  | [] => []
  | c :: cs =>
    (if c = capitalSigma && meetsCased before && !meetsCased cs then [finalSigma]
      else lowerOf c) ++ lowerAfter (c :: before) cs

end Case

def upper (cs : List Char) : List Char := cs.flatMap Case.upperOf

def lower (cs : List Char) : List Char := Case.lowerAfter [] cs

end SmallLisp.Text
