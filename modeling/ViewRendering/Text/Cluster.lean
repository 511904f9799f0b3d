/-!
Clusters: the pieces of a text that a reader takes for single characters. A combining
mark stays with what it modifies, a line end of two characters is one piece, a joiner
binds what follows it, and regional indicators go in pairs. The marks are those of the
blocks for combining diacritics, variation selectors and emoji modifiers.
-/
namespace ViewRendering.Text

def markBlocks : List (Nat × Nat) :=
  [(0x300, 0x36F), (0x483, 0x489), (0x591, 0x5BD), (0x64B, 0x65F), (0x1AB0, 0x1AFF),
   (0x1DC0, 0x1DFF), (0x200C, 0x200D), (0x20D0, 0x20FF), (0x302A, 0x302F), (0x3099, 0x309A),
   (0xFE00, 0xFE0F), (0xFE20, 0xFE2F), (0x1F3FB, 0x1F3FF), (0xE0020, 0xE007F),
   (0xE0100, 0xE01EF)]

def isMark (c : Char) : Bool := markBlocks.any fun b => b.1 ≤ c.toNat && c.toNat ≤ b.2

def isJoiner (c : Char) : Bool := c.toNat == 0x200D

def isPictograph (c : Char) : Bool :=
  (0x1F300 ≤ c.toNat && c.toNat ≤ 0x1FAFF) || (0x2190 ≤ c.toNat && c.toNat ≤ 0x2BFF)

def isRegional (c : Char) : Bool := 0x1F1E6 ≤ c.toNat && c.toNat ≤ 0x1F1FF

def isControl (c : Char) : Bool := c.toNat < 0x20 || c.toNat == 0x7F

/-- Whether `c` continues a cluster, given its characters so far, the last one first. -/
def continues (done : List Char) (c : Char) : Bool :=
  match done with
  | [] => true
  | d :: before =>
    if d == '\r' && c == '\n' then true
    else if isControl d || isControl c then false
    else if isMark c then true
    else if isJoiner d then isPictograph c && (before.dropWhile isMark).head?.any isPictograph
    else isRegional d && isRegional c && before.isEmpty

/-- The clusters of a text behind the one begun with `done`, whose last character is first. -/
def clustersFrom (done : List Char) : List Char → List (List Char)
  | [] => if done.isEmpty then [] else [done.reverse]
  | c :: s =>
    if continues done c then clustersFrom (c :: done) s
    else done.reverse :: clustersFrom [c] s

def clusters (s : List Char) : List (List Char) := clustersFrom [] s

theorem flatten_clustersFrom (done s : List Char) :
    (clustersFrom done s).flatten = done.reverse ++ s := by
  induction s generalizing done with
  | nil =>
    cases done with
    | nil => rfl
    | cons d t => simp [clustersFrom]
  | cons c s ih =>
    by_cases h : continues done c
    · simp [clustersFrom, h, ih]
    · simp [clustersFrom, h, ih]

/-- Nothing is lost or moved. -/
theorem flatten_clusters (s : List Char) : (clusters s).flatten = s := by
  simp [clusters, flatten_clustersFrom]

end ViewRendering.Text
