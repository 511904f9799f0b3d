import ViewRendering.Template.Fault
import ViewRendering.Value.Json

/-!
What filters ask of their value and of their arguments. A value or argument of another
kind is a fault that shows what was given, in the notation of data texts, and names
what was expected.
-/
namespace ViewRendering.Template

/-- The kinds that filters ask for; numbers are told apart by the range they have to be in. -/
inductive Asked : Type → Type 1 where
  | text : Asked String
  | bool : Asked Bool
  | list : Asked (List Value)
  | real : Asked Float
  | signed64 : Asked Int
  | signed32 : Asked Int
  | unsigned64 : Asked Nat
  | unsigned32 : Asked Nat

namespace Asked

def label {α : Type} : Asked α → String
  | text => "String"
  | bool => "bool"
  | list => "Vec<Value>"
  | real => "f64"
  | signed64 => "i64"
  | signed32 => "i32"
  | unsigned64 => "usize"
  | unsigned32 => "u32"

def read? {α : Type} : Asked α → Value → Option α
  | text, .text s => some s
  | bool, .bool b => some b
  | list, .list items => some items
  | real, .number n => some n.toReal
  | signed64, .number (.whole n) => if Number.isSigned64 n then some n else none
  | signed32, .number (.whole n) => if -0x80000000 ≤ n ∧ n < 0x80000000 then some n else none
  | unsigned64, .number (.whole n) => if 0 ≤ n then some n.toNat else none
  | unsigned32, .number (.whole n) => if 0 ≤ n ∧ n < 0x100000000 then some n.toNat else none
  | _, _ => none

end Asked

def inputOf {α : Type} (filter : String) (asked : Asked α) (v : Value) : Result α :=
  match asked.read? v with
  | some a => .ok a
  | none =>
    failed (s!"Filter `{filter}` was called on an incorrect value: got `" ++
      Value.Json.toText v ++ s!"` but expected a {asked.label}")

def givenArgument {α : Type} (filter argument : String) (asked : Asked α) (v : Value) : Result α :=
  match asked.read? v with
  | some a => .ok a
  | none =>
    failed (s!"Filter `{filter}` received an incorrect type for arg `{argument}`: got `" ++
      Value.Json.toText v ++ s!"` but expected a {asked.label}")

def argumentOr {α : Type} (filter argument : String) (asked : Asked α) (args : Dict Value)
    (default : α) : Result α :=
  match args.lookup argument with
  | some v => givenArgument filter argument asked v
  | none => .ok default

def argumentNeeded {α : Type} (filter argument : String) (asked : Asked α) (args : Dict Value)
    (complaint : String) : Result α :=
  match args.lookup argument with
  | some v => givenArgument filter argument asked v
  | none => failed complaint

end ViewRendering.Template
