import ViewRendering.Text.Quoted
import ViewRendering.Value

/-!
The expressions of the template language. An expression is a term with filters behind
it, possibly negated; terms are literals, names, arithmetic, comparisons, tests and
calls. The structural notation of an expression is what some messages quote.
-/
namespace ViewRendering.Template

inductive Arithmetic where
  | add
  | subtract
  | multiply
  | divide
  | modulo
deriving DecidableEq, Repr

def Arithmetic.isTight : Arithmetic → Bool
  | .add => false
  | .subtract => false
  | .multiply => true
  | .divide => true
  | .modulo => true

inductive Comparison where
  | equal
  | different
  | less
  | lessOrEqual
  | greater
  | greaterOrEqual
deriving DecidableEq, Repr

inductive Connective where
  | conjunction
  | disjunction
deriving DecidableEq, Repr

mutual

inductive Term where
  | text (s : String)
  | whole (n : Int)
  | real (x : Float)
  | bool (b : Bool)
  /-- A path into the values in scope, as it is written. -/
  | name (path : String)
  | arithmetic (op : Arithmetic) (left right : Expression)
  | comparison (op : Comparison) (left right : Expression)
  | connective (op : Connective) (left right : Expression)
  | within (negated : Bool) (item container : Expression)
  | test (path : String) (negated : Bool) (name : String) (arguments : List Expression)
  | function (call : Call)
  | macroCall (namesp : String) (call : Call)
  | list (items : List Expression)
  /-- Texts joined by tildes. -/
  | joined (parts : List Term)

inductive Expression where
  | mk (term : Term) (negated : Bool) (filters : List Call)

inductive Call where
  | mk (name : String) (arguments : List (String × Expression))

end

namespace Expression

def term : Expression → Term
  | .mk t _ _ => t

def negated : Expression → Bool
  | .mk _ b _ => b

def filters : Expression → List Call
  | .mk _ _ fs => fs

def ofTerm (t : Term) : Expression := .mk t false []

end Expression

namespace Call

def name : Call → String
  | .mk n _ => n

def arguments : Call → List (String × Expression)
  | .mk _ as => as

end Call

def Arithmetic.label : Arithmetic → String
  | .add => "Add"
  | .subtract => "Sub"
  | .multiply => "Mul"
  | .divide => "Div"
  | .modulo => "Modulo"

def Comparison.label : Comparison → String
  | .equal => "Eq"
  | .different => "NotEq"
  | .less => "Lt"
  | .lessOrEqual => "Lte"
  | .greater => "Gt"
  | .greaterOrEqual => "Gte"

def Connective.label : Connective → String
  | .conjunction => "And"
  | .disjunction => "Or"

def boolText (b : Bool) : String := if b then "true" else "false"

def fieldsText (name : String) (fields : List (String × String)) : String :=
  name ++ " \x7b " ++ String.intercalate ", " (fields.map fun f => f.1 ++ ": " ++ f.2) ++ " \x7d"

def bracketed (items : List String) : String := "[" ++ String.intercalate ", " items ++ "]"

mutual

def Term.notationText : Term → String
  | .text s => "String(" ++ Text.quoted s ++ ")"
  | .whole n => "Int(" ++ String.ofList (Number.wholeText n) ++ ")"
  | .real x => "Float(" ++ String.ofList (Decimal.Layout.message.write x) ++ ")"
  | .bool b => "Bool(" ++ boolText b ++ ")"
  | .name path => "Ident(" ++ Text.quoted path ++ ")"
  | .arithmetic op l r =>
    "Math(" ++ fieldsText "MathExpr"
      [("lhs", l.notationText), ("rhs", r.notationText), ("operator", op.label)] ++ ")"
  | .comparison op l r =>
    "Logic(" ++ fieldsText "LogicExpr"
      [("lhs", l.notationText), ("rhs", r.notationText), ("operator", op.label)] ++ ")"
  | .connective op l r =>
    "Logic(" ++ fieldsText "LogicExpr"
      [("lhs", l.notationText), ("rhs", r.notationText), ("operator", op.label)] ++ ")"
  | .within negated l r =>
    "In(" ++ fieldsText "In"
      [("lhs", l.notationText), ("rhs", r.notationText), ("negated", boolText negated)] ++ ")"
  | .test path negated name args =>
    "Test(" ++ fieldsText "Test"
      [("ident", Text.quoted path), ("negated", boolText negated), ("name", Text.quoted name),
       ("args", bracketed (notationTexts args))] ++ ")"
  | .function c => "FunctionCall(" ++ c.notationText ++ ")"
  | .macroCall ns c =>
    "MacroCall(" ++ fieldsText "MacroCall"
      [("namespace", Text.quoted ns), ("name", Text.quoted c.name),
       ("args", argumentsText c)] ++ ")"
  | .list items => "Array(" ++ bracketed (notationTexts items) ++ ")"
  | .joined parts =>
    "StringConcat(" ++ fieldsText "StringConcat" [("values", bracketed (termTexts parts))] ++ ")"

def Expression.notationText : Expression → String
  | .mk t negated filters =>
    fieldsText "Expr"
      [("val", t.notationText), ("negated", boolText negated),
       ("filters", bracketed (callTexts filters))]

def Call.notationText : Call → String
  | .mk name args =>
    fieldsText "FunctionCall" [("name", Text.quoted name), ("args", namedTexts args)]

def argumentsText : Call → String
  | .mk _ args => namedTexts args

/-- Named arguments in braces; without any the braces are empty. -/
def namedTexts : List (String × Expression) → String
  | [] => "\x7b\x7d"
  | (k, e) :: rest => "\x7b" ++ Text.quoted k ++ ": " ++ e.notationText ++ moreNamed rest

def moreNamed : List (String × Expression) → String
  | [] => "\x7d"
  | (k, e) :: rest => ", " ++ Text.quoted k ++ ": " ++ e.notationText ++ moreNamed rest

def notationTexts : List Expression → List String
  | [] => []
  | e :: rest => e.notationText :: notationTexts rest

def termTexts : List Term → List String
  | [] => []
  | t :: rest => t.notationText :: termTexts rest

def callTexts : List Call → List String
  | [] => []
  | c :: rest => c.notationText :: callTexts rest

end

mutual

/-- The whole literals of a term that do not fit into 64 bits with a sign, in order. -/
def Term.oversized : Term → List Int
  | .whole n => if Number.isSigned64 n then [] else [n]
  | .arithmetic _ l r => l.oversized ++ r.oversized
  | .comparison _ l r => l.oversized ++ r.oversized
  | .connective _ l r => l.oversized ++ r.oversized
  | .within _ l r => l.oversized ++ r.oversized
  | .test _ _ _ args => oversizedIn args
  | .function c => c.oversized
  | .macroCall _ c => c.oversized
  | .list items => oversizedIn items
  | .joined parts => oversizedTerms parts
  | .text _ => []
  | .real _ => []
  | .bool _ => []
  | .name _ => []

def Expression.oversized : Expression → List Int
  | .mk t _ filters => t.oversized ++ oversizedCalls filters

def Call.oversized : Call → List Int
  | .mk _ args => oversizedArguments args

def oversizedArguments : List (String × Expression) → List Int
  | [] => []
  | (_, e) :: rest => e.oversized ++ oversizedArguments rest

def oversizedIn : List Expression → List Int
  | [] => []
  | e :: rest => e.oversized ++ oversizedIn rest

def oversizedTerms : List Term → List Int
  | [] => []
  | t :: rest => t.oversized ++ oversizedTerms rest

def oversizedCalls : List Call → List Int
  | [] => []
  | c :: rest => c.oversized ++ oversizedCalls rest

end

end ViewRendering.Template
