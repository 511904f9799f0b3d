import ViewRendering.Event
import ViewRendering.Text.Case
import ViewRendering.Text.Space

/-!
Media types of pages. A page is always written in UTF-8: a media type that does not say
so is made to, and one that says otherwise is corrected with a warning. Only the
parameter for the character set is touched.
-/
namespace ViewRendering.ContentType

def charset : List Char := "utf-8".toList

def usual : List Char := "text/html; charset=utf-8".toList

def charsetValue? (parameter : List Char) : Option (List Char) :=
  match Text.splitOnce? '=' parameter with
  | some (name, value) =>
    if Text.sameLetters (Text.trim name) "charset".toList then
      some (Text.trimBy (· == '"') (Text.trim value))
    else none
  | none => none

def isUtf8 (value : List Char) : Bool :=
  Text.sameLetters value charset || Text.sameLetters value "utf8".toList

def segments (value : List Char) : List (List Char) := (Text.splitOn ';' value).map Text.trim

/-- The parameters before the first one for the character set, its value, and the parameters
behind it. -/
def cutCharset? : List (List Char) → Option (List (List Char) × List Char × List (List Char))
  | [] => none
  | p :: rest =>
    match charsetValue? p with
    | some value => some ([], value, rest)
    | none => (cutCharset? rest).map fun r => (p :: r.1, r.2)

def corrected : List Char := "charset=".toList ++ charset

/-- The media type with its character set, and the warning if another one was declared. -/
def withCharset (declared : Option (List Char)) : List Char × Journal :=
  match (declared.map Text.trim).filter (!·.isEmpty) with
  | none => (usual, [])
  | some value =>
    let parts := segments value
    match cutCharset? parts.tail with
    | none => (value ++ "; ".toList ++ corrected, [])
    | some (before, name, after) =>
      if isUtf8 name then (value, [])
      else
        (Text.join "; ".toList (parts.take 1 ++ before ++ corrected :: after),
          [Journal.warn .response (s!"Response declares charset '{String.ofList name}'; " ++
            "page text is always encoded as utf-8")])

end ViewRendering.ContentType
