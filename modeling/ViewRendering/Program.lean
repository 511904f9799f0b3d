import ViewRendering.CommandLine
import ViewRendering.LogFilter

/-!
The program as a whole: from its arguments, the files it can see and the log filter of
its surroundings to what it prints and its exit code.
-/
namespace ViewRendering.Program

structure Result where
  exitCode : Nat
  output : List UInt8
  /-- The log and the messages to the user. -/
  messages : String
deriving DecidableEq, Repr

def versionText : String := "viewpress 0.1.0\n"

def refused (r : CommandLine.Refusal) : Result :=
  match r with
  | .version => ⟨r.exitCode, Text.Utf8.encode versionText.toList, ""⟩
  | .help => ⟨r.exitCode, [], ""⟩
  | _ => ⟨r.exitCode, [], r.message⟩

/-- The filter that is asked for, or that of the command line if it makes no sense. -/
def filterFor (asked : Option String) (level : Level) : LogFilter :=
  (asked.bind LogFilter.parse).getD (.upTo level)

def logText (f : LogFilter) (j : Journal) : String :=
  String.join ((j.events.filter f.allows).map fun e => e.line ++ "\n")

def run (arguments : List String) (files : Files) (asked : Option String) : Result × Journal :=
  match CommandLine.read arguments with
  | .error r => (refused r, [])
  | .ok invocation =>
    let (outcome, journal) := invocation.command.run files
    let log := logText (filterFor asked invocation.level) journal
    match outcome with
    | .ok output => (⟨0, output, log⟩, journal)
    | .error refusal => (⟨1, [], log ++ refusal.notice.printed⟩, journal)

end ViewRendering.Program
