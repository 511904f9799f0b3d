import ViewRendering.FileFailure
import ViewRendering.Http.Fault
import ViewRendering.Text.Space

/-!
Why a render failed, and how the failure is reported: in one line, in several lines
with context, and as a message with details and a suggestion for the command line.
-/
namespace ViewRendering

inductive Failure where
  /-- A view or layout cannot be read, or its name leads out of the root. -/
  | viewRead (view : String) (cause : FileFailure)
  /-- The source of a view is no template; an unclosed tag gives the line. -/
  | compile (view message : String) (line : Option Nat)
  /-- A template failed while it was writing its page. -/
  | execution (view message : String) (suggestions : List String)
  /-- The response was wrong before the page was put into it. -/
  | response (fault : Http.Fault)
  | settings (message : String)
deriving DecidableEq, Repr

namespace Failure

def message : Failure → String
  | .viewRead view _ => s!"Cannot read view '{view}'"
  | .compile view message _ => s!"Failed to compile view '{view}': {message}"
  | .execution view message _ => s!"Failed to render view '{view}': {message}"
  | .response fault => s!"Failed to build response: {fault.message}"
  | .settings message => s!"Invalid render configuration: {message}"

def view? : Failure → Option String
  | .viewRead view _ => some view
  | .compile view _ _ => some view
  | .execution view _ _ => some view
  | .response _ => none
  | .settings _ => none

def report : Failure → String
  | .viewRead view cause =>
    s!"ERROR: View Not Readable\n\nView: {view}\n{cause.explanation}\n"
  | .compile view message line =>
    s!"ERROR: Template Syntax Error\n\nView: {view}\n" ++
      (line.elim "" fun n => s!"Line: {n}\n") ++
      s!"Error: {message}\n" ++
      "\nSUGGESTION: Check template syntax for unclosed tags or invalid expressions.\n" ++
      "Common issues:\n" ++
      "  - A code region opened without its closing delimiter\n" ++
      "  - A block statement (for/if) without its end statement\n" ++
      "  - Missing quotes around string values\n"
  | .execution view message suggestions =>
    s!"ERROR: Template Execution Failed\n\nView: {view}\nError: {message}\n" ++
      (if suggestions.isEmpty then ""
       else "\nDid you mean one of these?\n" ++
        String.join (suggestions.map fun s => s!"  - {s}\n"))
  | .response fault => s!"ERROR: Response Assembly Failed\n\nError: {fault.message}\n"
  | .settings message => s!"ERROR: Invalid Configuration\n\nError: {message}\n"

end Failure

/-- A message for the user of the command line, with details and a suggestion where there are
any. -/
structure Notice where
  message : String
  details : Option String
  suggestion : Option String
deriving DecidableEq, Repr

namespace Notice

def display (n : Notice) : String :=
  n.message ++ (n.details.elim "" fun d => s!"\nDetails: {d}") ++
    (n.suggestion.elim "" fun s => s!"\nSuggestion: {s}")

def printed (n : Notice) : String :=
  s!"error: {n.message}\n" ++ (n.details.elim "" fun d => s!"details: {d}\n") ++
    (n.suggestion.elim "" fun s => s!"suggestion: {s}\n")

/-- A chain of causes, outermost first, shows its first two. -/
def ofChain : List String → Notice
  | [] => ⟨"", none, none⟩
  | m :: causes => ⟨m, causes.head?, none⟩

end Notice

def Failure.suggestion : Failure → Option String
  | .viewRead _ _ => some "Check --root and --ext, or the view name passed to render"
  | .compile _ _ _ => some "Fix the template source; every code region needs a closing delimiter"
  | .execution _ _ _ => some "Pass the missing values with --locals '\x7b\"name\": ...\x7d'"
  | .response _ => none
  | .settings _ => some "Check the configuration file and the open/close delimiters"

def Failure.notice (f : Failure) : Notice :=
  ⟨f.message, some (String.ofList (Text.trimEnd f.report.toList)), f.suggestion⟩

end ViewRendering
