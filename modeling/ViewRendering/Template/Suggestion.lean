import ViewRendering.Text.Distance
import ViewRendering.Text.Scan
import ViewRendering.Value

/-!
Names that a template may have meant. When a message speaks of a variable that was not
found, the locals and their fields with similar names are suggested, the most similar
ones first.
-/
namespace ViewRendering.Template

def missingStart : List Char := "Variable `".toList

def missingEnd : List Char := "` not found".toList

def missingAt? (s : List Char) : Option (List Char) :=
  (Text.after? missingStart s).bind fun r =>
    let name := r.takeWhile (· ≠ Char.ofNat 96)
    if name.isEmpty then none
    else if (Text.after? missingEnd (r.drop name.length)).isSome then some name
    else none

def missingName? : List Char → Option (List Char)
  | [] => none
  | c :: s =>
    match missingAt? (c :: s) with
    | some name => some name
    | none => missingName? s

/-- The names that a template can use: each local, followed by its fields if it has any. -/
def knownNames (locals : Dict Value) : List String :=
  locals.flatMap fun (k, v) =>
    match v with
    | .record fields => k :: fields.map fun f => k ++ "." ++ f.1
    | _ => [k]

/-- How different a suggested name may be: half the size of the missing one in octets. -/
def tolerance (missing : List Char) : Nat := Text.utf8Size missing * 50 / 100

/-- The most similar names, at most three, of those that are similar enough. -/
def similarNames (missing : List Char) (known : List String) : List String :=
  let scored := known.map fun k => (k, Text.distance missing k.toList)
  let close := (scored.mergeSort fun p q => p.2 ≤ q.2).filter fun p => p.2 ≤ tolerance missing
  (close.take 3).map (·.1)

def suggestions (message : String) (locals : Dict Value) : List String :=
  match missingName? message.toList with
  | some name => similarNames name (knownNames locals)
  | none => []

end ViewRendering.Template
