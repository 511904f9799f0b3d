import ViewRendering.Dict
import ViewRendering.Text.Utf8

/-!
Files as a render sees them: a path gives octets or a fault. Where they come from, a tree
in memory or a disk, makes no difference to it.
-/
namespace ViewRendering

inductive FileFaultKind where
  | notFound
  | permissionDenied
  | invalidData
  | invalidInput
  | other
deriving DecidableEq, Repr

structure FileFault where
  kind : FileFaultKind
  message : String
deriving DecidableEq, Repr

namespace FileFault

def missing : FileFault := ⟨.notFound, "No such file or directory (os error 2)"⟩
def notDirectory : FileFault := ⟨.other, "Not a directory (os error 20)"⟩
def isDirectory : FileFault := ⟨.other, "Is a directory (os error 21)"⟩
def nameTooLong : FileFault := ⟨.other, "File name too long (os error 36)"⟩
def nulInPath : FileFault := ⟨.invalidInput, "file name contained an unexpected NUL byte"⟩
def permissionDenied : FileFault := ⟨.permissionDenied, "Permission denied (os error 13)"⟩
def notUtf8 : FileFault := ⟨.invalidData, "stream did not contain valid UTF-8"⟩

def ofCode (code : Nat) (details : String) : FileFault :=
  match [missing, permissionDenied, notDirectory, isDirectory, nameTooLong].find? fun f =>
      f.message.endsWith s!"(os error {code})" with
  | some f => f
  | none => ⟨.other, s!"{details} (os error {code})"⟩

end FileFault

structure Files where
  octets : String → Except FileFault (List UInt8)

namespace Files

def read (files : Files) (path : String) : Except FileFault (List Char) :=
  match files.octets path with
  | .error e => .error e
  | .ok content =>
    match Text.Utf8.decode? content with
    | some s => .ok s
    | none => .error .notUtf8

/-- Files that are known by path; all others are missing. -/
def ofKnown (known : Dict (Except FileFault (List UInt8))) : Files :=
  ⟨fun path => (known.lookup path).getD (.error .missing)⟩

end Files

end ViewRendering
