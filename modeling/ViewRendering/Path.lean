import ViewRendering.Text.Scan
import ViewRendering.Text.Space

/-!
Slash-separated paths. Empty parts and single dots name no step; a double dot goes
up and any other part goes down. A relative path stays inside its root when in none
of its beginnings the steps up outnumber the steps down.
-/
namespace ViewRendering.Path

def isAbsolute (path : String) : Bool := path.toList.head? == some '/'

def steps (path : String) : List (List Char) :=
  (Text.splitOn '/' path.toList).filter fun p => !p.isEmpty && p != ['.']

def isUp (part : List Char) : Bool := part == ['.', '.']

/-- The depth below the root after the given steps, unless they climb above it. The program counts
in 32 bits with a sign, which makes a difference from 2^31 steps on. -/
def depthAfter : Nat → List (List Char) → Option Nat
  | n, [] => some n
  | n, p :: rest =>
    if isUp p then
      match n with
      | 0 => none
      | n + 1 => depthAfter n rest
    else depthAfter (n + 1) rest

/-- Whether no beginning of the path climbs above where the path starts. -/
def staysInside (path : String) : Bool := (depthAfter 0 (steps path)).isSome

/-- The path `name` below `base`; an absolute name stands for itself. -/
def join (base name : String) : String :=
  if isAbsolute name || base.isEmpty then name
  else if base.toList.getLast? == some '/' then base ++ name
  else base ++ "/" ++ name

/-- The last parts of a path that name no step are dropped, down to `keep` parts. -/
def dropIdle (keep : Nat) (parts : List (List Char)) : List (List Char) :=
  let rec go : List (List Char) → List (List Char)
    | [] => []
    | p :: rest =>
      if (p.isEmpty || p == ['.']) && keep < (p :: rest).length then go rest else p :: rest
  (go parts.reverse).reverse

def parent? (path : String) : Option String :=
  let parts := Text.splitOn '/' path.toList
  let root := if isAbsolute path then 1 else 0
  let first := match parts with
    | ['.'] :: _ => 1
    | _ => root
  let kept := dropIdle first parts
  if kept.length ≤ root then none
  else
    let up := dropIdle first kept.dropLast
    some (String.ofList (if up = [[]] then ['/'] else Text.join ['/'] up))

end ViewRendering.Path
