/-! # Search in texts

Occurrences of one text in another are found from the left and do not overlap.
Cutting at a separator and joining with it are inverse. -/

namespace SmallLisp.Text

/-- Does `sought` occur somewhere in `text`? -/
def occursIn (sought : List Char) : List Char → Bool
  | [] => sought.isEmpty
  | c :: cs => sought.isPrefixOf (c :: cs) || occursIn sought cs

/-- The pieces between the occurrences of a nonempty separator. -/
def cut (separator : List Char) : List Char → List (List Char)
  | [] => [[]]
  | c :: cs =>
    if separator.isPrefixOf (c :: cs) then
      [] :: cut separator (cs.drop (separator.length - 1))
    else
      match cut separator cs with
      | [] => [[c]]
      | piece :: pieces => (c :: piece) :: pieces
termination_by text => text.length
decreasing_by all_goals simp only [List.length_drop, List.length_cons]; omega

def join (separator : List Char) (pieces : List (List Char)) : List Char :=
  separator.intercalate pieces

/-- `text` with every occurrence of a nonempty `old` replaced. -/
def replaceEach (old new : List Char) : List Char → List Char
  | [] => []
  | c :: cs =>
    if old.isPrefixOf (c :: cs) then new ++ replaceEach old new (cs.drop (old.length - 1))
    else c :: replaceEach old new cs
termination_by text => text.length
decreasing_by all_goals simp only [List.length_drop, List.length_cons]; omega

/-- The empty text occurs before each character and at the end. -/
def replace (old new text : List Char) : List Char :=
  match old with
  | [] => new ++ text.flatMap fun c => c :: new
  | _ :: _ => replaceEach old new text

end SmallLisp.Text
