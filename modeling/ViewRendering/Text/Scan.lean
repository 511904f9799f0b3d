/-!
Searching and cutting texts held as lists of characters. A text is cut at the
first place where a mark occurs; nothing is lost, and the part before the cut is
the shortest one. Every scanner of the library is built from `after?` and `cut?`.
-/
namespace ViewRendering.Text

def after? : List Char → List Char → Option (List Char)
  | [], s => some s
  | _ :: _, [] => none
  | m :: mark, c :: s => if m = c then after? mark s else none

theorem after?_append (mark s : List Char) : after? mark (mark ++ s) = some s := by
  induction mark with
  | nil => cases s <;> rfl
  | cons m mark ih => simpa [after?] using ih

theorem eq_append_of_after? {mark s r : List Char} (h : after? mark s = some r) :
    s = mark ++ r := by
  induction mark generalizing s with
  | nil => simpa [after?] using h
  | cons m mark ih =>
    cases s with
    | nil => simp [after?] at h
    | cons c s =>
      by_cases hc : m = c
      · subst hc
        simp only [after?, if_true] at h
        simp [ih h]
      · simp [after?, hc] at h

/-- The text before and after the first occurrence of `mark`. -/
def cut? (mark : List Char) : List Char → Option (List Char × List Char)
  | [] => (after? mark []).map fun r => ([], r)
  | c :: s =>
    match after? mark (c :: s) with
    | some r => some ([], r)
    | none => (cut? mark s).map fun p => (c :: p.1, p.2)

theorem eq_append_of_cut? {mark s a b : List Char} (h : cut? mark s = some (a, b)) :
    s = a ++ (mark ++ b) := by
  induction s generalizing a with
  | nil =>
    simp only [cut?, Option.map_eq_some_iff, Prod.mk.injEq] at h
    obtain ⟨r, hr, rfl, rfl⟩ := h
    simpa using eq_append_of_after? hr
  | cons c s ih =>
    unfold cut? at h
    split at h
    · rename_i r hr
      simp only [Option.some.injEq, Prod.mk.injEq] at h
      obtain ⟨rfl, rfl⟩ := h
      simpa using eq_append_of_after? hr
    · simp only [Option.map_eq_some_iff, Prod.mk.injEq] at h
      obtain ⟨p, hp, rfl, rfl⟩ := h
      simpa using ih hp

theorem length_of_cut? {mark s a b : List Char} (h : cut? mark s = some (a, b)) :
    a.length + mark.length + b.length = s.length := by
  rw [eq_append_of_cut? h]
  simp only [List.length_append]
  omega

def contains (mark s : List Char) : Bool := (cut? mark s).isSome

def splitOn (sep : Char) : List Char → List (List Char)
  | [] => [[]]
  | c :: s =>
    if c = sep then [] :: splitOn sep s
    else
      match splitOn sep s with
      | [] => [[c]]
      | p :: ps => (c :: p) :: ps

theorem splitOn_ne_nil (sep : Char) (s : List Char) : splitOn sep s ≠ [] := by
  induction s with
  | nil => simp [splitOn]
  | cons c s ih =>
    unfold splitOn
    split
    · simp
    · split <;> simp

def join (sep : List Char) : List (List Char) → List Char
  | [] => []
  | [p] => p
  | p :: ps => p ++ (sep ++ join sep ps)

/-- Splitting at a character and joining with it gives the text back. -/
theorem join_splitOn (sep : Char) (s : List Char) : join [sep] (splitOn sep s) = s := by
  induction s with
  | nil => rfl
  | cons c s ih =>
    unfold splitOn
    split
    · rename_i hc
      subst hc
      cases hp : splitOn c s with
      | nil => exact absurd hp (splitOn_ne_nil c s)
      | cons p ps =>
        rw [hp] at ih
        simp [join, ih]
    · cases hp : splitOn sep s with
      | nil => exact absurd hp (splitOn_ne_nil sep s)
      | cons p ps =>
        rw [hp] at ih
        cases ps with
        | nil => simpa [join] using ih
        | cons q qs => simpa [join] using ih

/-- The pieces between the occurrences of the mark `m :: mark`, taken from the left. -/
def splitAtMark (m : Char) (mark s : List Char) : List (List Char) :=
  match _h : cut? (m :: mark) s with
  | none => [s]
  | some (a, b) => a :: splitAtMark m mark b
termination_by s.length
decreasing_by
  have h := length_of_cut? _h
  simp only [List.length_cons] at h
  omega

/-- Splitting at an empty mark gives an empty piece at both ends and each character between. -/
def split (mark s : List Char) : List (List Char) :=
  match mark with
  | [] => [] :: s.map (fun c => [c]) ++ [[]]
  | m :: mark => splitAtMark m mark s

/-- Every occurrence of `mark`, taken from the left, exchanged for `other`; an empty mark occurs
before every character and at the end. -/
def replace (mark other s : List Char) : List Char := join other (split mark s)

def trimBy (p : Char → Bool) (s : List Char) : List Char :=
  ((s.dropWhile p).reverse.dropWhile p).reverse

def utf8Size (s : List Char) : Nat := s.foldl (fun n c => n + c.utf8Size) 0

theorem foldl_utf8Size (s : List Char) (k : Nat) :
    s.foldl (fun n c => n + c.utf8Size) k = k + utf8Size s := by
  induction s generalizing k with
  | nil => rfl
  | cons c s ih =>
    have h := ih c.utf8Size
    simp only [utf8Size, List.foldl_cons, Nat.zero_add] at h ⊢
    rw [ih, h]
    simp only [utf8Size, Nat.add_assoc]

theorem utf8Size_cons (c : Char) (s : List Char) : utf8Size (c :: s) = c.utf8Size + utf8Size s := by
  simpa [utf8Size] using foldl_utf8Size s c.utf8Size

def lineEnds (s : List Char) : Nat := s.count '\n'

theorem lineEnds_append (s t : List Char) : lineEnds (s ++ t) = lineEnds s + lineEnds t :=
  List.count_append

def splitOnce? (sep : Char) (s : List Char) : Option (List Char × List Char) := cut? [sep] s

end ViewRendering.Text
