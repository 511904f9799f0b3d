import ViewRendering.Text.Scan

/-!
Readers of texts. A reader takes what it recognises from the front of a text and hands
back the rest, or refuses. Alternatives are tried in order and the first that succeeds
counts, so a reader never goes back behind a choice.
-/
namespace ViewRendering

abbrev Reader (α : Type) := StateT (List Char) Option α

namespace Reader

variable {α : Type}

def refuse : Reader α := fun _ => none

def exact (mark : String) : Reader Unit := fun s => (Text.after? mark.toList s).map ((), ·)

def either (p q : Reader α) : Reader α := fun s =>
  match p s with
  | some r => some r
  | none => q s

def firstOf : List (Reader α) → Reader α
  | [] => refuse
  | p :: ps => either p (firstOf ps)

def maybe (p : Reader α) : Reader (Option α) := fun s =>
  match p s with
  | some (a, r) => some (some a, r)
  | none => some (none, s)

/-- Items as often as `p` succeeds; one that reads nothing is the last. -/
def manyFrom (p : Reader α) (s : List Char) : Option (List α × List Char) :=
  match p s with
  | some (a, r) =>
    if r.length < s.length then (manyFrom p r).map fun q => (a :: q.1, q.2) else some ([a], r)
  | none => some ([], s)
termination_by s.length

def many (p : Reader α) : Reader (List α) := manyFrom p

def sourceOf (p : Reader α) : Reader (List Char) := fun s =>
  (p s).map fun r => (s.take (s.length - r.2.length), r.2)

def digits : Reader (List Char) := fun s =>
  match s with
  | c :: _ => if c.isDigit then some (s.takeWhile Char.isDigit, s.dropWhile Char.isDigit) else none
  | [] => none

def valueOf (ds : List Char) : Nat := ds.foldl (fun n c => n * 10 + (c.toNat - 48)) 0

end Reader

end ViewRendering
