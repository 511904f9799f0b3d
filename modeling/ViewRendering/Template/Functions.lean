import ViewRendering.Template.Argument
import ViewRendering.Template.Output

/-!
The functions of the template language: `range` counts, and `throw` fails with a
message of the template's choice. Every configured filter can also be called as a
function; its value is then the argument named `value`, and nothing if there is none.
The functions `now`, `get_random` and `get_env` are not defined here; they come with `Engine`.
-/
namespace ViewRendering.Template

abbrev Function := Dict Value → Result Value

namespace Functions

def bound? (args : Dict Value) (name : String) : Result (Option Nat) :=
  match args.lookup name with
  | none => .ok none
  | some v =>
    match Asked.unsigned64.read? v with
    | some n => .ok (some n)
    | none =>
      failed (s!"Function `range` received {name}=" ++ Value.Json.toText v ++
        s!" but `{name}` can only be a number")

def numbers (start step : Nat) : Nat → List Value
  | 0 => []
  | n + 1 => .ofNat start :: numbers (start + step) step n

def howMany (start stop step : Nat) : Nat := (stop - start + step - 1) / step

/-- The numbers from one bound up to the other. Where the program would count without end, with a
step of zero, the fault is `endless`. Numbers here do not wrap around, as those of the program do
when a step leads beyond what a machine word holds. -/
def range : Function := fun args => do
  let start := (← bound? args "start").getD 0
  let step := (← bound? args "step_by").getD 1
  match ← bound? args "end" with
  | none => failed "Function `range` was called without a `end` argument"
  | some stop =>
    if stop < start then
      failed ("Function `range` was called with a `start` argument greater than the `end` one")
    else if step = 0 ∧ start < stop then .error .endless
    else return .list (numbers start step (howMany start stop step))

def throw : Function := fun args =>
  match args.lookup "message" with
  | none => failed "Function `throw` was called without a `message` argument"
  | some (.text m) => failed m
  | some v =>
    failed ("Function `throw` received message=" ++ Value.Json.toText v ++
      " but `message` can only be a string")

/-- A filter as a function; the named value stays among its arguments. -/
def ofFilter (f : Filter) : Function := fun args => f ((args.lookup "value").getD .null) args

def find? (name : String) : Option Function :=
  match name with
  | "range" => some range
  | "throw" => some throw
  | _ => none

end Functions

end ViewRendering.Template
