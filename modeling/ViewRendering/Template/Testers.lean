import ViewRendering.Template.Calculation
import ViewRendering.Template.Fault
import ViewRendering.Value

/-!
The tests behind `is`: what a template can ask about a value. The subject may be
missing, which only two of the tests allow. Each test says how many arguments it
takes before it looks at its subject. The test `matching` is not defined here; it comes
with `Engine`.
-/
namespace ViewRendering.Template

/-- A test of a subject, which may be missing, with arguments. -/
abbrev Tester := Option Value → List Value → Result Bool

namespace Testers

def limitArguments (name : String) (most : Nat) (args : List Value) : Result Unit :=
  if args.length ≤ most then .ok ()
  else if most = 0 then
    failed s!"Tester `{name}` was called with some args but this test doesn't take args"
  else
    failed s!"Tester `{name}` was called with {args.length} args, the max number is {most}"

def needing (name : String) (most : Nat) (f : Value → List Value → Result Bool) : Tester :=
  fun subject args => do
    limitArguments name most args
    match subject with
    | some v => f v args
    | none => failed s!"Tester `{name}` was called on an undefined variable"

def ofKind (name : String) (p : Value → Bool) : Tester := needing name 0 fun v _ => .ok (p v)

def defined : Tester := fun subject args => do
  limitArguments "defined" 0 args
  return subject.isSome

def undefined : Tester := fun subject args => do
  limitArguments "undefined" 0 args
  return subject.isNone

def isText : Value → Bool
  | .text _ => true
  | _ => false

def isNumber : Value → Bool
  | .number _ => true
  | _ => false

def isRecord : Value → Bool
  | .record _ => true
  | _ => false

def isIterable : Value → Bool
  | .list _ => true
  | .record _ => true
  | _ => false

/-- Whether a number leaves something when halved; both tests of parity complain alike. -/
def isOdd (v : Value) : Result Bool :=
  match v with
  | .number n => .ok (!(remainder n.toReal 2.0 == 0.0))
  | _ => failed "Tester `odd` was called on a variable that isn't a number"

def odd : Tester := needing "odd" 0 fun v _ => isOdd v

def even : Tester := needing "even" 0 fun v _ => do
  let b ← isOdd v
  return !b

def divisible : Tester := needing "divisibleby" 1 fun v args =>
  match v, args.head? with
  | .number m, some (.number n) => .ok (remainder m.toReal n.toReal == 0.0)
  | .number _, _ =>
    failed "Tester `divisibleby` was called with a parameter that isn't a number"
  | _, _ => failed "Tester `divisibleby` was called on a variable that isn't a number"

def textOf (name part : String) (v : Option Value) : Result (List Char) :=
  match v with
  | some (.text s) => .ok s.toList
  | _ => failed s!"Tester `{name}` was called {part} that isn't a string"

def onTexts (name : String) (p : List Char → List Char → Bool) : Tester :=
  needing name 1 fun v args => do
    let s ← textOf name "on a variable" (some v)
    let t ← textOf name "with a parameter" args.head?
    return p t s

def containing : Tester := needing "containing" 1 fun v args =>
  match v with
  | .text s => do
    let t ← textOf "containing" "with a parameter" args.head?
    return Text.contains t s.toList
  | .list items =>
    match args.head? with
    | some a => .ok (items.any fun i => i.same a)
    | none => .error .missingValue
  | .record fields => do
    let t ← textOf "containing" "with a parameter" args.head?
    return Dict.has fields (String.ofList t)
  | _ => failed "Tester `containing` can only be used on string, array or map"

def find? (name : String) : Option Tester :=
  match name with
  | "defined" => some defined
  | "undefined" => some undefined
  | "string" => some (ofKind "string" isText)
  | "number" => some (ofKind "number" isNumber)
  | "iterable" => some (ofKind "iterable" isIterable)
  | "object" => some (ofKind "object" isRecord)
  | "odd" => some odd
  | "even" => some even
  | "divisibleby" => some divisible
  | "starting_with" => some (onTexts "starting_with" List.isPrefixOf)
  | "ending_with" => some (onTexts "ending_with" List.isSuffixOf)
  | "containing" => some containing
  | _ => none

end Testers

end ViewRendering.Template
