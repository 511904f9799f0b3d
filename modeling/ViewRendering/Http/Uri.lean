import ViewRendering.Http.Fault
import ViewRendering.Text.Scan
import ViewRendering.Text.Case

/-!
The targets of requests: a path with a query, the single marks for a server as a whole,
an authority alone, or a scheme with an authority and a path. What stands behind a
hash is dropped. A target is refused at its first character that cannot be there.
-/
namespace ViewRendering.Http

structure Uri where
  scheme : Option (List Char)
  authority : List Char
  /-- The path as it is written; it may be empty. -/
  written : List Char
  query : Option (List Char)
deriving DecidableEq, Repr

namespace Uri

/-- The path; with a scheme an empty one is the root. -/
def path (u : Uri) : List Char :=
  if u.written.isEmpty && (u.scheme.isSome || u.query.isSome) then ['/'] else u.written

def text (u : Uri) : List Char :=
  u.scheme.elim [] (· ++ "://".toList) ++ u.authority ++ u.path ++ u.query.elim [] ('?' :: ·)

/-- The characters of paths: visible ones that need no spelling, those of data texts, and all
beyond ASCII. -/
def isPathChar (c : Char) : Bool :=
  let n := c.toNat
  n == 0x21 || (0x24 ≤ n && n ≤ 0x3B) || n == 0x3D || (0x40 ≤ n && n ≤ 0x5F) ||
    (0x61 ≤ n && n ≤ 0x7E) || 0x7F ≤ n || c == '"'

def isQueryChar (c : Char) : Bool :=
  let n := c.toNat
  n == 0x21 || (0x24 ≤ n && n ≤ 0x3B) || n == 0x3D || 0x3F ≤ n

def isAuthorityChar (c : Char) : Bool :=
  c.isAlphanum || "!$&'()*+,-.:;=@[]_~".toList.contains c

def isSchemeChar (c : Char) : Bool := c.isAlphanum || "+-.~".toList.contains c

def pathAndQuery (s : List Char) : Except Fault (List Char × Option (List Char)) :=
  let path := s.takeWhile fun c => c != '?' && c != '#'
  if !path.all isPathChar then .error .uriCharacter
  else
    match s.drop path.length with
    | '?' :: r =>
      let query := r.takeWhile (· != '#')
      if query.all isQueryChar then .ok (path, some query) else .error .uriCharacter
    | _ => .ok (path, none)

structure Seen where
  colons : Nat := 0
  opened : Bool := false
  closed : Bool := false
  percent : Bool := false
  /-- Whether the last character was an at sign. -/
  ended : Bool := false

/-- Whether an authority may end here: brackets are closed, there is at most one colon for a
port, something follows the at sign, and only names of users are spelled with percent signs. -/
def Seen.mayEnd (a : Seen) : Bool :=
  a.opened == a.closed && a.colons ≤ 1 && !a.ended && !a.percent

def Seen.next (a : Seen) (c : Char) : Except Fault Seen :=
  if c = ':' then
    if 8 ≤ a.colons then .error .uriAuthority
    else .ok { a with colons := a.colons + 1, ended := false }
  else if c = '[' then
    if a.percent || a.opened then .error .uriAuthority
    else .ok { a with opened := true, ended := false }
  else if c = ']' then
    if !a.opened || a.closed then .error .uriAuthority
    else .ok { a with closed := true, colons := 0, percent := false, ended := false }
  else if c = '@' then .ok { a with colons := 0, percent := false, ended := true }
  else if c = '%' then .ok { a with percent := true, ended := false }
  else if isAuthorityChar c then .ok { a with ended := false }
  else .error .uriCharacter

def authorityAt (s : List Char) : Except Fault (List Char) :=
  let front := s.takeWhile fun c => c != '/' && c != '?' && c != '#'
  match front.foldlM Seen.next {} with
  | .error f => .error f
  | .ok a => if a.mayEnd then .ok front else .error .uriAuthority

/-- The scheme at the front of a text, with the text behind its mark. The two usual ones are kept
in small letters. -/
def scheme? (s : List Char) : Except Fault (Option (List Char × List Char)) :=
  let usual (name : List Char) : Option (List Char × List Char) :=
    if Text.sameLetters (s.take (name.length + 3)) (name ++ "://".toList) then
      some (name, s.drop (name.length + 3))
    else none
  match usual "http".toList, usual "https".toList with
  | some r, _ => .ok (some r)
  | none, some r => .ok (some r)
  | none, none =>
    let name := s.takeWhile isSchemeChar
    match Text.after? "://".toList (s.drop name.length) with
    | some rest =>
      if 64 < name.length then .error .uriSchemeTooLong
      else if s.length ≤ 3 then .ok none
      else .ok (some (name, rest))
    | none => .ok none

/-- A target of more than one character that does not start with a slash. -/
def parseFull (s : List Char) : Except Fault Uri := do
  match ← scheme? s with
  | none =>
    let a ← authorityAt s
    if a.length = s.length then return ⟨none, a, [], none⟩ else .error .uriFormat
  | some (name, rest) =>
    let a ← authorityAt rest
    if a.isEmpty then .error .uriFormat
    else
      let (path, query) ← pathAndQuery (rest.drop a.length)
      return ⟨some name, a, path, query⟩

def parse (s : List Char) : Except Fault Uri :=
  if 65534 < Text.utf8Size s then .error .uriTooLong
  else
    match s with
    | [] => .error .uriEmpty
    | ['/'] => .ok ⟨none, [], ['/'], none⟩
    | ['*'] => .ok ⟨none, [], ['*'], none⟩
    | [c] => do
      let a ← authorityAt [c]
      if a.isEmpty then .error .uriCharacter else return ⟨none, a, [], none⟩
    | '/' :: _ => do
      let (path, query) ← pathAndQuery s
      return ⟨none, [], path, query⟩
    | _ => parseFull s

end Uri

end ViewRendering.Http
