import ViewRendering.Template.Engine
import ViewRendering.Template.Filters
import ViewRendering.Template.Node

/-!
The meaning of expressions. An expression has three of them: a value, a truth, and a
number. A text that comes from a literal, a name, a function or a filter is escaped
when it leaves its expression, unless the last filter says that it is safe; operands and
arguments are never escaped. Macros are the only terms that reach beyond the
expression; how their bodies are rendered is a parameter.
-/
namespace ViewRendering.Template

structure Context where
  page : Page
  /-- The configured filters, which come before the usual ones. -/
  filters : Dict Filter
  engine : Engine
  scope : Scope
  /-- Whether texts are escaped when they leave an expression. -/
  escaping : Bool

/-- How a body that is not part of the current one is rendered. -/
abbrev Nested := Context → List Node → Result (List Char)

namespace Context

/-- The same context for operands and arguments, which are not escaped. -/
def unescaped (c : Context) : Context := { c with escaping := false }

def lookup (c : Context) (path : String) : Result Value := Template.lookup c.scope c.page.name path

/-- The filter of a name; configured ones come first. -/
def filter (c : Context) (name : String) : Result Filter :=
  match (c.filters.lookup name).or ((Filters.find? name).or (c.engine.filters.lookup name)) with
  | some f => .ok f
  | none => failed s!"Filter '{name}' not found"

/-- The function of a name; every configured filter is one. -/
def function (c : Context) (name : String) : Result Function :=
  match c.filters.lookup name with
  | some f => .ok (Functions.ofFilter f)
  | none =>
    match (Functions.find? name).or (c.engine.functions.lookup name) with
    | some f => .ok f
    | none => failed s!"Function '{name}' not found"

def tester (c : Context) (name : String) : Result Tester :=
  match (Testers.find? name).or (c.engine.testers.lookup name) with
  | some t => .ok t
  | none => failed s!"Test '{name}' not found"

def macrosOf? (c : Context) (namesp : String) : Option (List (String × Macro)) :=
  if namesp = "self" ∧ !c.page.macros.isEmpty then some c.page.macros
  else if c.page.imports.any (·.2 = namesp) then some c.page.macros
  else none

def macro? (c : Context) (namesp name : String) : Result Macro :=
  match c.macrosOf? namesp with
  | none =>
    failed (s!"Macro namespace `{namesp}` was not found in template `{c.page.name}`. " ++
      "Have you maybe forgotten to import it, or misspelled it?")
  | some ms =>
    match ms.lookup name with
    | some m => .ok m
    | none => failed s!"Macro `{namesp}::{name}` not found in template `{c.page.name}`"

end Context

def wrapped {α : Type} (message : String) (r : Result α) : Result α := r.mapError (·.behind message)

/-- A value on its way out of an expression, and whether a text would still be escaped. -/
abbrev Flowing := Value × Bool

/-- Filters that are no functions: one ends escaping, the other one replaces a missing value. -/
def isMarker (name : String) : Bool := name == "safe" || name == "default"

def hasDefault : List Call → Bool
  | .mk name _ :: _ => name == "default"
  | [] => false

def endsSafe (filters : List Call) : Bool := filters.getLast?.any fun f => f.name == "safe"

/-- The value of an expression from what its filters made of its term: negation, or the
escaping of a text. -/
def completed (c : Context) (negated : Bool) (filters : List Call) (v : Flowing) : Value :=
  if negated then .bool (!isTruthy v.1)
  else
    match v.1 with
    | .text s =>
      if c.escaping && v.2 && !endsSafe filters then .ofChars (escapeHtml s.toList) else .text s
    | w => w

/-- The value of a name with filters. A missing value takes the default; without one it is a
fault, unless it is negated, since what is missing counts as false. -/
def namedValue (c : Context) (path : String) (negated : Bool) (filters : List Call)
    (default : Unit → Result Value) (filtered : Flowing → Result Flowing) : Result Value :=
  let from? : Result (Option Value) :=
    match c.lookup path with
    | .ok .null => if hasDefault filters then (default ()).map some else .ok (some .null)
    | .ok v => .ok (some v)
    | .error e =>
      if hasDefault filters then (default ()).map some
      else if negated then .ok none
      else .error e
  do
    match ← from? with
    | none => return .bool true
    | some v => return completed c negated filters (← filtered (v, path ≠ Scope.dumpName))

/-- Equality of values; a number equals no other kind of value and is compared as a real
number. There is no answer for a number beside another kind. -/
def equalValues? : Value → Value → Option Bool
  | .number m, .number n => some (m.toReal == n.toReal)
  | .number _, _ => none
  | _, .number _ => none
  | v, w => some (v.same w)

/-- The truth of a comparison. A number beside another kind is neither equal nor different. -/
def comparedTruth (op : Comparison) (negated : Bool) (values : Unit → Result (Value × Value))
    (numbers : Unit → Result (Option Number × Option Number)) : Result Bool :=
  let equality (wanted : Bool) : Result Bool := do
    let (v, w) ← values ()
    match equalValues? v w with
    | none => return false
    | some b => return (b == wanted) != negated
  match op with
  | .equal => equality true
  | .different => equality false
  | _ => do
    match ← numbers () with
    | (some m, some n) => return compareReals op m.toReal n.toReal != negated
    | _ => failed "Comparison to NaN"

def connectedTruth (op : Connective) (l : Result Bool) (r : Unit → Result Bool) : Result Bool := do
  match op, ← l with
  | .conjunction, false => return false
  | .disjunction, true => return true
  | _, _ => r ()

def isWithin (item container : Value) : Result Bool :=
  match container, item with
  | .list items, v => .ok (items.any (·.same v))
  | .text s, .text t => .ok (Text.contains t.toList s.toList)
  | .text _, v => failed s!"Tried to check if {kindText v} is in a string, but it isn't a string"
  | .record fields, .text t => .ok (Dict.has fields t)
  | .record _, v => failed s!"Tried to check if {kindText v} is in a object, but it isn't a string"
  | _, _ => failed "The `in` operator only supports strings, arrays and objects."

def joinedText (origin : String) : Value → Result (List Char)
  | .text s => .ok s.toList
  | .number n => .ok (n.write .data)
  | _ => failed s!"Tried to concat a value that is not a string or a number from {origin}"

def joinedLabel (parts : List Term) : String :=
  String.intercalate " ~ " (parts.map fun p => match p with
    | .text s => "'" ++ s ++ "'"
    | .name path => path
    | _ => "unknown")

def meaningless {α : Type} (kind quoted : String) : Result α :=
  .error (.breakdown (some
    s!"internal error: entered unreachable code: unimplemented {kind} for {quoted}"))

def isFunction : Term → Bool
  | .function _ => true
  | _ => false

def Term.path? : Term → Option String
  | .name path => some path
  | _ => none

def Term.isJoined : Term → Bool
  | .joined _ => true
  | _ => false

def parameterResult (name : String) (given : String → Option (Result Value))
    (default : Expression → Result Value) (p : Parameter) : Result Value :=
  match given p.name, p.default with
  | some v, _ => v
  | none, some e => default e
  | none, none => failed s!"Macro `{name}` is missing the argument `{p.name}`"

def literalValue (e : Expression) : Result Value :=
  match e.term with
  | .text s => .ok (.text s)
  | .whole n => .ok (.number (.whole n))
  | .real x => .ok (.number (.real x))
  | .bool b => .ok (.bool b)
  | _ => .error .missingValue

section

variable (nested : Nested)

def macroText (c : Context) (namesp name : String) (given : String → Option (Result Value)) :
    Result (List Char) := do
  let m ← c.macro? namesp name
  let values ← c.engine.gather
    (m.parameters.map fun p => (p.name, parameterResult name given literalValue p))
  nested { c with scope := c.scope.push ⟨.macroBody, values⟩ } m.body

mutual

/-- The value of a term, and whether it is a text that would be escaped. -/
def Term.value (c : Context) (negated : Bool) : Term → Result Flowing
  | .text s => .ok (.text s, true)
  | .whole n => .ok (.number (.whole n), false)
  | .real x => .ok (.number (.real x), false)
  | .bool b => .ok (.bool b, false)
  | .name path => do return (← c.lookup path, path ≠ Scope.dumpName)
  | .arithmetic op l r => do
    let result : Result (Option Number) := do
      match ← l.number c, ← r.number c with
      | some m, some n => calculate op l r m n
      | _, _ => return none
    match ← result.mapError Fault.outermost with
    | some n => return (.number n, false)
    | none => return (.text "NaN", false)
  | .comparison op l r => do
    let b ← comparedTruth op negated
      (fun _ => do return (← l.value c, ← r.value c))
      (fun _ => do return (← l.number c, ← r.number c))
    return (.bool b, false)
  | .connective op l r => do
    let b ← connectedTruth op (l.truth c) (fun _ => r.truth c)
    return (.bool (b != negated), false)
  | .within not' item container => do
    let b ← isWithin (← item.value c.unescaped) (← container.value c.unescaped)
    return (.bool (b != not'), false)
  | .test path not' name args => do
    let t ← c.tester name
    let vs ← wrapped s!"Test call '{name}' failed" (values c.unescaped args)
    let b ← wrapped s!"Test call '{name}' failed" (t (c.lookup path).toOption vs)
    return (.bool (b != not'), false)
  | .function call => do return (← call.result c, true)
  | .macroCall ns call => do return (.ofChars (← call.macroResult c ns), false)
  | .list items => do return (.list (← values c items), false)
  | .joined parts => do return (.ofChars (← joinedValue c parts), parts.any isFunction)

def Term.truth (c : Context) (negated : Bool) : Term → Result Bool
  | .text s => .ok (!s.isEmpty != negated)
  | .whole n => .ok ((n ≠ 0) != negated)
  | .real x => .ok (!(x == 0.0) != negated)
  | .bool b => .ok (b != negated)
  | .name path => .ok ((((c.lookup path).toOption.getD (.bool false)) |> isTruthy) != negated)
  | .arithmetic op l r => do
    match ← l.number c, ← r.number c with
    | some m, some n =>
      match ← calculate op l r m n with
      | some k => return !(k.toReal == 0.0) != negated
      | none => return false != negated
    | _, _ => return false != negated
  | .comparison op l r =>
    comparedTruth op negated
      (fun _ => do return (← l.value c, ← r.value c))
      (fun _ => do return (← l.number c, ← r.number c))
  | .connective op l r => do
    return (← connectedTruth op (l.truth c) (fun _ => r.truth c)) != negated
  | .within not' item container => do
    let b ← isWithin (← item.value c.unescaped) (← container.value c.unescaped)
    return (b != not') != negated
  | .test path not' name args => do
    let t ← c.tester name
    let vs ← wrapped s!"Test call '{name}' failed" (values c.unescaped args)
    let b ← wrapped s!"Test call '{name}' failed" (t (c.lookup path).toOption vs)
    return (b != not') != negated
  | .function call => do
    match ← call.result c with
    | .bool b => return b != negated
    | _ =>
      failed (s!"Function `{call.name}` was used in a logic expression but is not returning " ++
        "a bool")
  | .macroCall ns call => do return !(← call.macroResult c ns).isEmpty != negated
  | .list items => meaningless "logic operation" (Expression.ofTerm (.list items)).notationText
  | .joined parts => do return !(← joinedValue c parts).isEmpty != negated

/-- The number of a term; there is none where arithmetic has no result. -/
def Term.number (c : Context) : Term → Result (Option Number)
  | .text s => failed s!"Tried to do math with a string: `{s}`"
  | .whole n => .ok (some (.whole n))
  | .real x => .ok (some (.real x))
  | .bool b => failed s!"Tried to do math with a boolean: `{boolText b}`"
  | .name path => do
    match ← c.lookup path with
    | .number n => return some n
    | _ => failed s!"Variable `{path}` was used in a math operation but is not a number"
  | .arithmetic op l r => do
    match ← l.number c, ← r.number c with
    | some m, some n => calculate op l r m n
    | _, _ => return none
  | .comparison op l r => meaningless "math expression" (Term.comparison op l r).notationText
  | .connective op l r => meaningless "math expression" (Term.connective op l r).notationText
  | .within b l r => meaningless "math expression" (Term.within b l r).notationText
  | .test _ _ name _ => failed s!"Tried to do math with a test: {name}"
  | .function call => do
    match ← call.result c with
    | .number n => return some n
    | _ =>
      failed (s!"Function `{call.name}` was used in a math operation but is not returning " ++
        "a number")
  | .macroCall ns call => meaningless "math expression" (Term.macroCall ns call).notationText
  | .list items => meaningless "math expression" (Term.list items).notationText
  | .joined parts => failed s!"Tried to do math with a string concatenation: {joinedLabel parts}"

def Expression.value (c : Context) : Expression → Result Value
  | .mk t negated filters =>
    match t.path? with
    | some path =>
      namedValue c path negated filters (fun _ => defaultValue c filters) (filtered c filters)
    | none => do
      return completed c negated filters (← filtered c filters (← t.value c negated))

def Expression.truth (c : Context) : Expression → Result Bool
  | .mk t negated filters =>
    match t.path? with
    | some path =>
      match namedValue c path negated filters (fun _ => defaultValue c filters)
          (filtered c filters) with
      | .ok v => .ok (isTruthy v)
      | .error (.chain _) => .ok false
      | .error e => .error e
    | none =>
      if t.isJoined then do
        match completed c negated filters (← filtered c filters (← t.value c negated)) with
        | .text s => return !s.isEmpty
        | _ => .error .missingValue
      else t.truth c negated

def Expression.number (c : Context) : Expression → Result (Option Number)
  | .mk t negated filters =>
    if filters.isEmpty then t.number c
    else
      let whole : Result Value := match t.path? with
        | some path =>
          namedValue c path negated filters (fun _ => defaultValue c filters) (filtered c filters)
        | none => do
          return completed c negated filters (← filtered c filters (← t.value c negated))
      do
        match ← whole with
        | .number n => return some n
        | _ => failed "Tried to do math with an expression not resulting in a number"

def defaultValue (c : Context) : List Call → Result Value
  | [] => .error .missingValue
  | call :: _ => call.defaultArgument c

def filtered (c : Context) : List Call → Flowing → Result Flowing
  | [], v => .ok v
  | call :: rest, v =>
    if isMarker call.name then filtered c rest v
    else do filtered c rest (← call.filterResult c v.1, true)

def Call.defaultArgument (c : Context) : Call → Result Value
  | .mk _ args =>
    match argumentValue c "value" args with
    | some v => v
    | none => failed "The `default` filter requires a `value` argument."

def Call.filterResult (c : Context) (v : Value) : Call → Result Value
  | .mk name args => do
    let f ← c.filter name
    let given ← wrapped s!"Filter call '{name}' failed"
      (c.engine.gather (argumentResults c.unescaped args))
    wrapped s!"Filter call '{name}' failed" (f v given)

def Call.result (c : Context) : Call → Result Value
  | .mk name args => do
    let f ← c.function name
    let given ← wrapped s!"Function call '{name}' failed"
      (c.engine.gather (argumentResults c.unescaped args))
    wrapped s!"Function call '{name}' failed" (f given)

def Call.macroResult (c : Context) (ns : String) : Call → Result (List Char)
  | .mk name args =>
    macroText nested c ns name fun p => argumentValue c.unescaped p args

def argumentValue (c : Context) (name : String) :
    List (String × Expression) → Option (Result Value)
  | [] => none
  | (k, e) :: rest => if k = name then some (e.value c) else argumentValue c name rest

def argumentResults (c : Context) : List (String × Expression) → List (String × Result Value)
  | [] => []
  | (k, e) :: rest => (k, e.value c) :: argumentResults c rest

def values (c : Context) : List Expression → Result (List Value)
  | [] => .ok []
  | e :: rest => do
    let v ← e.value c
    let more ← values c rest
    return v :: more

def joinedValue (c : Context) : List Term → Result (List Char)
  | [] => .ok []
  | t :: rest => do
    let s ← t.joinedPart c
    let more ← joinedValue c rest
    return s ++ more

def Term.joinedPart (c : Context) : Term → Result (List Char)
  | .text s => .ok s.toList
  | .whole n => .ok (Number.wholeText n)
  | .real x => .ok (Decimal.Layout.page.write x)
  | .name path => do joinedText s!"ident {path}" (← c.lookup path)
  | .function call => do joinedText s!"function call {call.name}" (← call.result c)
  | _ => .error .missingValue

end

def argumentValues (c : Context) (args : List (String × Expression)) : Result (Dict Value) :=
  c.engine.gather (argumentResults nested c args)

end

end ViewRendering.Template
