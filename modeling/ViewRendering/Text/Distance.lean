/-!
How different two texts are: the least number of characters to insert, remove or
replace that turns one into the other. The table of distances between beginnings is
built row by row, one row for each character of the first text.
-/
namespace ViewRendering.Text

/-- The entries of a row behind the entry `left`; `diagonal` is the entry above `left`, and the
list holds the entries above those still to come. -/
def entriesBehind (c : Char) (left diagonal : Nat) : List Char → List Nat → List Nat
  | d :: t, above :: row =>
    let e := min (min (left + 1) (above + 1)) (diagonal + if c = d then 0 else 1)
    e :: entriesBehind c e above t row
  | _, _ => []

/-- The row below `row` for one more character of the first text. -/
def rowBelow (t : List Char) (row : List Nat) (c : Char) : List Nat :=
  match row with
  | [] => []
  | top :: rest => (top + 1) :: entriesBehind c (top + 1) top t rest

def distance (s t : List Char) : Nat :=
  (s.foldl (rowBelow t) (List.range (t.length + 1))).getLastD 0

end ViewRendering.Text
