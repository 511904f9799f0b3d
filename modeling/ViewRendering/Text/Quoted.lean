import ViewRendering.Text.SpelledTable

/-!
Texts in double quotes. The quote and the backslash are preceded by a backslash;
tab, line feed, carriage return and the null character have short escapes; a
character that cannot be shown is spelled by its code point in braces.
-/
namespace ViewRendering.Text

def hexDigits (n : Nat) : List Char := Nat.toDigits 16 n

def isSpelled (c : Char) : Bool :=
  spelledRuns.any fun r => r.1 ≤ c.toNat && c.toNat ≤ r.2

def quoteChar (c : Char) : List Char :=
  if c = '"' then ['\\', '"']
  else if c = '\\' then ['\\', '\\']
  else if c = '\t' then ['\\', 't']
  else if c = '\n' then ['\\', 'n']
  else if c = '\r' then ['\\', 'r']
  else if c.toNat = 0 then ['\\', '0']
  else if isSpelled c then ['\\', 'u', '\x7b'] ++ hexDigits c.toNat ++ ['\x7d']
  else [c]

def quoted (s : String) : String :=
  String.ofList ('"' :: s.toList.flatMap quoteChar ++ ['"'])

end ViewRendering.Text
