import ViewRendering.Text.Space
import ViewRendering.Value

/-!
How the work of a template goes wrong: with a chain of messages, outermost first, or
by a breakdown of the code behind a filter or function, which may leave a text.
-/
namespace ViewRendering.Template

inductive Fault where
  | chain (messages : List String)
  | breakdown (text : Option String)
  /-- A count without end, or macros and inclusions nested more deeply than is followed here. The
  program has no such outcome: it goes on until its memory or its stack is used up. -/
  | endless
deriving DecidableEq, Repr

namespace Fault

def ofMessage (m : String) : Fault := .chain [m]

def behind (m : String) : Fault → Fault
  | .chain ms => .chain (m :: ms)
  | f => f

def outermost : Fault → Fault
  | .chain ms => .chain (ms.take 1)
  | f => f

def missingValue : Fault := .breakdown (some "called `Option::unwrap()` on a `None` value")

end Fault

/-- How messages begin that only say that rendering failed. -/
def wrapperStart : List Char := "Failed to render".toList

/-- The messages of a chain that say something: blank ones are left out, and where there is more
than one, so are those that only say that rendering failed. -/
def tellingMessages (chain : List String) : List (List Char) :=
  ((chain.map fun m => Text.trim m.toList).filter (!·.isEmpty)).filter fun m =>
    !(decide (1 < chain.length) && wrapperStart.isPrefixOf m)

def chainText (chain : List String) : String :=
  match tellingMessages chain with
  | [] => "Template error (no details available)"
  | ms => String.ofList (Text.join [':', ' '] ms)

abbrev Result (α : Type) := Except Fault α

def failed {α : Type} (message : String) : Result α := .error (.ofMessage message)

abbrev Filter := Value → Dict Value → Result Value

end ViewRendering.Template
