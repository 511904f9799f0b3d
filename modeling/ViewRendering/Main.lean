import ViewRendering.Program

/-!
The program at the command line. A run that reads a path nobody has looked at yet is
made again with what the path holds, so that each path is read once and the run itself
stays a function of what was read.
-/
namespace ViewRendering.Program

abbrev Known := Dict (Except FileFault (List UInt8))

/-- Libraries below give the numbers of faults with a minus sign, in 32 bits. -/
def errorNumber (code : UInt32) : Nat :=
  if code.toNat < 0x80000000 then code.toNat else 0x100000000 - code.toNat

def faultOf : IO.Error → FileFault
  | .noFileOrDirectory _ code details => .ofCode (errorNumber code) details
  | .permissionDenied _ code details => .ofCode (errorNumber code) details
  | .inappropriateType _ code details => .ofCode (errorNumber code) details
  | .invalidArgument _ code details => .ofCode (errorNumber code) details
  | .noSuchThing _ code details => .ofCode (errorNumber code) details
  | .resourceExhausted _ code details => .ofCode (errorNumber code) details
  | .otherError code details => .ofCode (errorNumber code) details
  | e => ⟨.other, toString e⟩

def readPath (path : String) : IO (Except FileFault (List UInt8)) := do
  if path.contains (Char.ofNat 0) then return .error .nulInPath
  match ← (IO.FS.readBinFile path).toBaseIO with
  | .ok octets => return .ok octets.toList
  | .error e => return .error (faultOf e)

/-- Runs until all that is read is known. -/
partial def runOnDisk (arguments : List String) (asked : Option String) (known : Known) :
    IO Result := do
  let (result, journal) := run arguments (.ofKnown known) asked
  match journal.reads.find? fun path => (known.lookup path).isNone with
  | none => return result
  | some path => runOnDisk arguments asked (known.insert path (← readPath path))

def print (r : Result) : IO UInt32 := do
  let output ← IO.getStdout
  output.write ⟨r.output.toArray⟩
  output.flush
  IO.eprint r.messages
  return UInt32.ofNat r.exitCode

end ViewRendering.Program

def main (arguments : List String) : IO UInt32 := do
  let asked ← IO.getEnv "RUST_LOG"
  ViewRendering.Program.print (← ViewRendering.Program.runOnDisk arguments asked [])
