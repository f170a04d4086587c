/-!
# Sets of characters as ranges

A set of characters given by ascending ranges of code points, and membership by
halving (`inRanges`).
-/

namespace RepoOrbit.Text

/-- Whether `n` lies in one of the ranges numbered from `lo` up to `hi`. -/
def inRangesFrom (table : Array (Nat × Nat)) (n lo hi : Nat) : Bool :=
  if _h : lo < hi then
    let mid := (lo + hi) / 2
    match table[mid]? with
    | none => false
    | some (first, last) =>
      if n < first then inRangesFrom table n lo mid
      else if last < n then inRangesFrom table n (mid + 1) hi
      else true
  else false
termination_by hi - lo

/-- Whether `n` lies in one of the ranges. -/
def inRanges (table : Array (Nat × Nat)) (n : Nat) : Bool := inRangesFrom table n 0 table.size

end RepoOrbit.Text
