import ViewRendering.Text.Scan

/-!
White space in the sense of Unicode: the characters with the property White_Space.
Trimming removes them at the two ends of a text, and words are the stretches
between them.
-/
namespace ViewRendering.Text

/-- The characters with the Unicode property White_Space. -/
def isSpace (c : Char) : Bool :=
  let n := c.toNat
  (9 ≤ n && n ≤ 13) || n == 0x20 || n == 0x85 || n == 0xA0 || n == 0x1680 ||
    (0x2000 ≤ n && n ≤ 0x200A) || n == 0x2028 || n == 0x2029 || n == 0x202F ||
    n == 0x205F || n == 0x3000

def trim (s : List Char) : List Char := trimBy isSpace s

def trimStart (s : List Char) : List Char := s.dropWhile isSpace

def trimEnd (s : List Char) : List Char := (s.reverse.dropWhile isSpace).reverse

theorem trim_eq (s : List Char) : trim s = trimEnd (trimStart s) := rfl

def isBlank (s : List Char) : Bool := s.all isSpace

def words (s : List Char) : List (List Char) :=
  match s with
  | [] => []
  | c :: r =>
    if isSpace c then words r
    else (c :: r.takeWhile (!isSpace ·)) :: words (r.dropWhile (!isSpace ·))
termination_by s.length
decreasing_by
  · simp
  · have h := (List.dropWhile_suffix (l := r) (!isSpace ·)).length_le
    simp only [List.length_cons]
    omega

end ViewRendering.Text
