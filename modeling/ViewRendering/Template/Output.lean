import ViewRendering.Text.Quoted
import ViewRendering.Value

/-!
Values on their way to the page: their text, their text with the marks of HTML spelled
by entities, and whether they count as true. Messages show values in a notation that
names their kind.
-/
namespace ViewRendering.Template

def escapeChar (c : Char) : List Char :=
  if c = '&' then "&amp;".toList
  else if c = '<' then "&lt;".toList
  else if c = '>' then "&gt;".toList
  else if c = '"' then "&quot;".toList
  else if c = '\'' then "&#x27;".toList
  else if c = '/' then "&#x2F;".toList
  else [c]

def escapeHtml (s : List Char) : List Char := s.flatMap escapeChar

mutual

def pageText : Value → List Char
  | .null => []
  | .bool b => if b then "true".toList else "false".toList
  | .number n => n.write .page
  | .text s => s.toList
  | .list items => '[' :: pageTexts items ++ [']']
  | .record _ => "[object]".toList

def pageTexts : List Value → List Char
  | [] => []
  | [v] => pageText v
  | v :: w :: rest => pageText v ++ ',' :: ' ' :: pageTexts (w :: rest)

end

/-- Whether a value counts as true: neither null, false, zero, nor empty. -/
def isTruthy : Value → Bool
  | .null => false
  | .bool b => b
  | .number (.whole n) => n ≠ 0
  | .number (.real x) => !(x == 0.0) && !x.isNaN
  | .text s => !s.isEmpty
  | .list items => !items.isEmpty
  | .record fields => !fields.isEmpty

mutual

def kindText : Value → String
  | .null => "Null"
  | .bool b => if b then "Bool(true)" else "Bool(false)"
  | .number n => "Number(" ++ String.ofList (n.write .data) ++ ")"
  | .text s => "String(" ++ Text.quoted s ++ ")"
  | .list items => "Array [" ++ String.intercalate ", " (kindTexts items) ++ "]"
  | .record fields => "Object \x7b" ++ String.intercalate ", " (fieldTexts fields) ++ "\x7d"

def kindTexts : List Value → List String
  | [] => []
  | v :: rest => kindText v :: kindTexts rest

def fieldTexts : List (String × Value) → List String
  | [] => []
  | (k, v) :: rest => (Text.quoted k ++ ": " ++ kindText v) :: fieldTexts rest

end

end ViewRendering.Template
