/-! # Sorted intervals of code points

A character class is a sorted table of disjoint closed intervals, searched by
halving. -/

namespace SmallLisp.Text

abbrev Intervals := Array (Nat × Nat)

/-- The last index in `lo ≤ i < hi` whose key is at most `n`, when the keys
ascend; `lo` itself when there is none. -/
def lastAtMost (key : Nat → Nat) (n lo hi : Nat) : Nat :=
  if hi ≤ lo + 1 then lo
  else
    let middle := (lo + hi) / 2
    if key middle ≤ n then lastAtMost key n middle hi else lastAtMost key n lo middle
termination_by hi - lo
decreasing_by all_goals omega

namespace Intervals

def contains (table : Intervals) (n : Nat) : Bool :=
  let i := lastAtMost (fun i => (table[i]?.map Prod.fst).getD 0) n 0 table.size
  match table[i]? with
  | some (first, last) => first ≤ n && n ≤ last
  | none => false

end Intervals

end SmallLisp.Text
