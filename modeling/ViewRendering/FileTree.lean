import ViewRendering.Dict
import ViewRendering.Files
import ViewRendering.Path

/-!
A tree of files below a working directory, and what its paths lead to. A path
is walked part by part: each part but the last has to be a directory, and a step up
leaves a directory that exists. Outside the working directory nothing is known.
-/
namespace ViewRendering

inductive FileEntry where
  | file (content : List UInt8)
  | directory
deriving DecidableEq, Repr

/-- Entries by their path, its steps joined by slashes; the working directory itself needs none. -/
structure FileTree where
  entries : Dict FileEntry

namespace FileTree

def empty : FileTree := ⟨[]⟩

def key (parts : List (List Char)) : String := String.ofList (Text.join ['/'] parts)

def entry? (t : FileTree) (parts : List (List Char)) : Option FileEntry :=
  if parts.isEmpty then some .directory else t.entries.lookup (key parts)

/-- Where a walk stands: above the working directory, or at an entry below it. -/
inductive Place where
  | outside
  | inside (parts : List (List Char)) (entry : FileEntry)

/-- One part of a path. A name too long for a directory entry and a step out of a file are
faults of their own. -/
def walkStep (t : FileTree) : Place → List Char → Except FileFault Place
  | .inside _ (.file _), _ => .error .notDirectory
  | .outside, part =>
    if part.isEmpty || part == ['.'] || Path.isUp part then .ok .outside
    else if 255 < Text.utf8Size part then .error .nameTooLong
    else .error .missing
  | .inside parts .directory, part =>
    if part.isEmpty || part == ['.'] then .ok (.inside parts .directory)
    else if Path.isUp part then
      if parts.isEmpty then .ok .outside else .ok (.inside parts.dropLast .directory)
    else if 255 < Text.utf8Size part then .error .nameTooLong
    else
      match t.entry? (parts ++ [part]) with
      | some e => .ok (.inside (parts ++ [part]) e)
      | none => .error .missing

/-- The place that a walk of these parts leads to; an absolute path begins outside. -/
def walk (t : FileTree) (path : String) (parts : List (List Char)) : Except FileFault Place :=
  parts.foldlM (walkStep t) (if Path.isAbsolute path then .outside else .inside [] .directory)

def place (t : FileTree) (path : String) : Except FileFault Place :=
  let s := path.toList
  if s.contains (Char.ofNat 0) then .error .nulInPath
  else if s.isEmpty then .error .missing
  else if 4095 < Text.utf8Size s then .error .nameTooLong
  else t.walk path (Text.splitOn '/' s)

def octets (t : FileTree) (path : String) : Except FileFault (List UInt8) :=
  match t.place path with
  | .error e => .error e
  | .ok (.inside _ (.file content)) => .ok content
  | .ok _ => .error .isDirectory

def put (t : FileTree) (parts : List (List Char)) (e : FileEntry) : FileTree :=
  ⟨t.entries.insert (key parts) e⟩

/-- One part of a path whose directories are made where they are missing. -/
def makeStep (t : FileTree) (place : Place) (part : List Char) :
    Except FileFault (FileTree × Place) :=
  match t.walkStep place part, place with
  | .ok next, _ => .ok (t, next)
  | .error e, .inside parts .directory =>
    if e = .missing then
      .ok (t.put (parts ++ [part]) .directory, .inside (parts ++ [part]) .directory)
    else .error e
  | .error e, _ => .error e

/-- The tree with a directory at a path. A file in the way, or a path that leads outside, leaves
the tree as it was. -/
def makeDirectory (t : FileTree) (path : String) : FileTree :=
  if path.isEmpty || Path.isAbsolute path then t
  else
    match (Text.splitOn '/' path.toList).foldlM (fun (w : FileTree × Place) part =>
        w.1.makeStep w.2 part) (t, .inside [] .directory) with
    | .ok (made, _) => made
    | .error _ => t

/-- The tree with this content in the file at a path. There has to be a directory that holds the
file, and no directory in its place. -/
def store (t : FileTree) (path : String) (content : List UInt8) : FileTree :=
  let parts := Text.splitOn '/' path.toList
  match t.place path, t.walk path parts.dropLast, parts.getLast? with
  | .ok (.inside parts (.file _)), _, _ => t.put parts (.file content)
  | .error e, .ok (.inside above .directory), some (c :: name) =>
    if e = .missing then t.put (above ++ [c :: name]) (.file content) else t
  | _, _, _ => t

def write (t : FileTree) (path : String) (content : List UInt8) : FileTree :=
  (t.makeDirectory ((Path.parent? path).getD "")).store path content

/-- Removes a file; a directory stays. -/
def remove (t : FileTree) (path : String) : FileTree :=
  match t.place path with
  | .ok (.inside parts (.file _)) => ⟨t.entries.erase (key parts)⟩
  | _ => t

def files (t : FileTree) : Files := ⟨t.octets⟩

end FileTree

end ViewRendering
