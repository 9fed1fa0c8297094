/-! # Templates

A template holds places for values, written `%v`, and percent signs, written
twice. The values are placed in order and verbatim. -/

namespace SmallLisp.Text

/-- A place that has no value is kept, surplus values are dropped, and a percent
sign before any other character stands for itself. -/
def fill : List Char → List (List Char) → List Char
  | '%' :: '%' :: cs, values => '%' :: fill cs values
  | '%' :: 'v' :: cs, value :: values => value ++ fill cs values
  | '%' :: 'v' :: cs, [] => '%' :: 'v' :: fill cs []
  | c :: cs, values => c :: fill cs values
  | [], _ => []

end SmallLisp.Text
