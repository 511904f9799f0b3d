import ViewRendering.Files

/-!
A file operation that failed: what was done to which path, why and for whom, and the
fault behind it. The explanation says what a reader can do about it.
-/
namespace ViewRendering

inductive FileOperation where
  | read
  | validate
deriving DecidableEq, Repr

def FileOperation.label : FileOperation → String
  | .read => "reading"
  | .validate => "validating file path"

structure FileFailure where
  operation : FileOperation
  path : String
  purpose : String
  caller : String
  fault : FileFault
  /-- Other paths that matter for the operation, such as the root it is confined to. -/
  related : List String
deriving DecidableEq, Repr

namespace FileFailure

def message (f : FileFailure) : String := s!"File operation failed: {f.operation.label} {f.path}"

def isNotFound (f : FileFailure) : Bool := f.fault.kind = .notFound

def advice (f : FileFailure) : String :=
  match f.fault.kind with
  | .notFound =>
    "\n\nThe file does not exist at the specified path." ++
      "\n\nFor views and layouts, check:" ++
      "\n- The view name is spelled correctly (case-sensitive)" ++
      "\n- The configured view extension matches the file name" ++
      "\n- The file is located under: " ++ f.related.head?.getD "the view root"
  | .permissionDenied =>
    s!"\n\nPermission denied. Check file/directory permissions for: {f.path}"
  | .invalidData =>
    "\n\nThe file contains invalid data or encoding." ++
      "\nEnsure the file contains valid UTF-8 text."
  | .invalidInput => s!"\n\nError details: {f.fault.message}"
  | .other => s!"\n\nError details: {f.fault.message}"

def relatedLines (f : FileFailure) : String :=
  if f.related.isEmpty then ""
  else "\n\nRelated paths:" ++ String.join (f.related.map fun p => s!"\n  - {p}")

def explanation (f : FileFailure) : String :=
  s!"Failed {f.operation.label} file '{f.path}' for {f.purpose} ({f.caller})" ++
    f.advice ++ f.relatedLines

end FileFailure

/-- Reads a text below `root`; a failure keeps the root as its related path. -/
def Files.readFor (files : Files) (path root purpose caller : String) :
    Except FileFailure (List Char) :=
  match files.read path with
  | .ok s => .ok s
  | .error e => .error ⟨.read, path, purpose, caller, e, [root]⟩

end ViewRendering
