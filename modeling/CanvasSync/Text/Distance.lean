/-!
Edit distance: the least number of insertions, deletions and replacements of one element that turn
one list into another.
-/

namespace CanvasSync.Text

/-- The next row of the table of distances: `left` is the entry made last, `previous` holds the
entries above from the one diagonal to it on. -/
def distanceRow {α : Type} [DecidableEq α] (x : α) : Nat → List Nat → List α → List Nat
  | left, diagonal :: above :: row, y :: ys =>
    let here := min (min (left + 1) (above + 1)) (if x = y then diagonal else diagonal + 1)
    here :: distanceRow x here (above :: row) ys
  | _, _, _ => []

/-- The distances of a list to every beginning of `ys`, given those of what comes before it. -/
def distanceRows {α : Type} [DecidableEq α] (ys : List α) : Nat → List Nat → List α → List Nat
  | _, row, [] => row
  | i, row, x :: xs => distanceRows ys (i + 1) ((i + 1) :: distanceRow x (i + 1) row ys) xs

/-- The edit distance of two lists. -/
def distance {α : Type} [DecidableEq α] (xs ys : List α) : Nat :=
  (distanceRows ys 0 (List.range (ys.length + 1)) xs).getLastD 0

end CanvasSync.Text
