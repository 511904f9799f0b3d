import ViewRendering.Template.Lexeme

/-!
Reading expressions. Each rule of the grammar is a reader that is given the rules for
what may be nested in it, so that the rules are plain definitions; the nesting itself
is bounded by the length of the text. Multiplication binds more tightly than
addition, and conjunction than disjunction; operators of one rank group to the left.
-/
namespace ViewRendering.Template

open ViewRendering.Reader

/-- The rules for nested parts: arithmetic, conditions, and list literals with filters. -/
structure Rules where
  sum : Reader Term
  condition : Reader Expression
  listing : Reader Expression

namespace Reader

/-- An operand with further operands behind it, grouped by two ranks of operators. -/
def group {α ω : Type} (tight : ω → Bool) (join : ω → α → α → α) (first : α)
    (rest : List (ω × α)) : α :=
  let step (s : Option (α × ω) × α) (p : ω × α) : Option (α × ω) × α :=
    if tight p.1 then (s.1, join p.1 s.2 p.2)
    else (some (s.1.elim s.2 (fun l => join l.2 l.1 s.2), p.1), p.2)
  let (left, last) := rest.foldl step (none, first)
  left.elim last fun l => join l.2 l.1 last

def arithmeticOp : Reader Arithmetic :=
  firstOf [do exact "+"; return .add, do exact "-"; return .subtract,
    do exact "*"; return .multiply, do exact "/"; return .divide, do exact "%"; return .modulo]

def comparisonOp : Reader Comparison :=
  firstOf [do exact "=="; return .equal, do exact "!="; return .different,
    do exact ">="; return .greaterOrEqual, do exact ">"; return .greater,
    do exact "<="; return .lessOrEqual, do exact "<"; return .less]

/-- A blank has to follow the word of a connective or of a negation. -/
def word (w : String) : Reader Unit := do
  exact w
  someBlanks

def connectiveOp : Reader Connective :=
  firstOf [do word "or"; return .disjunction, do word "and"; return .conjunction]

variable (g : Rules)

def argumentValue : Reader Expression := either g.condition g.listing

def argument : Reader (String × Expression) := do
  let k ← name
  mark "="
  blanks
  let v ← argumentValue g
  return (k, v)

/-- Named arguments between parentheses; of two with one name the later counts. -/
def arguments : Reader (List (String × Expression)) := do
  mark "("
  let given ← maybe (do
    blanks
    let first ← argument g
    let rest ← many (do mark ","; blanks; argument g)
    let _ ← maybe (mark ",")
    return first :: rest)
  mark ")"
  return Dict.ofList (given.getD [])

def call : Reader Call := do
  let n ← name
  let args ← arguments g
  return .mk n args

def callOrName : Reader Call :=
  either (call g) (do let n ← name; return .mk n [])

def filters : Reader (List Call) := many (do mark "|"; blanks; callOrName g)

def macroCall : Reader Term := do
  let ns ← name
  mark "::"
  blanks
  let c ← call g
  return .macroCall ns c

def testCall : Reader (String × List Expression) := do
  let n ← name
  let args ← maybe (do
    mark "("
    blanks
    let first ← argumentValue g
    let rest ← many (do mark ","; blanks; argumentValue g)
    mark ")"
    return first :: rest)
  return (n, args.getD [])

def test : Reader Term := do
  let p ← path
  mark "is"
  let negated ← either (do mark "not"; blanks; let t ← testCall g; return (true, t))
    (do blanks; let t ← testCall g; return (false, t))
  return .test p negated.1 negated.2.1 negated.2.2

def operand : Reader Term :=
  firstOf [do exact "("; blanks; let t ← g.sum; mark ")"; return t,
    boolean, test g, macroCall g, do let c ← call g; return .function c,
    do let p ← path; return .name p, real, whole]

def sum : Reader Term := do
  let first ← operand g
  let rest ← many (do blanks; let op ← arithmeticOp; blanks; let t ← operand g; return (op, t))
  return group Arithmetic.isTight
    (fun op l r => .arithmetic op (.ofTerm l) (.ofTerm r)) first rest

def filteredSum : Reader Expression := do
  let t ← sum g
  let fs ← filters g
  return .mk t false fs

def joinedPart : Reader Term :=
  firstOf [do let c ← call g; return .function c, real, whole,
    do let s ← quotedText; return .text s, do let p ← path; return .name p]

def mergeTexts : List Term → List Term
  | [] => []
  | .text s :: rest =>
    match mergeTexts rest with
    | .text t :: more => .text (s ++ t) :: more
    | merged => if s.isEmpty then merged else .text s :: merged
  | t :: rest => t :: mergeTexts rest

def joinedTerm (parts : List Term) : Term :=
  match mergeTexts parts with
  | [] => .text ""
  | [.text s] => .text s
  | merged => .joined (merged.filter fun t => match t with
    | .text s => !s.isEmpty
    | _ => true)

def joined : Reader Term := do
  let first ← joinedPart g
  mark "~"
  blanks
  let second ← joinedPart g
  let rest ← many (do mark "~"; blanks; joinedPart g)
  return joinedTerm (first :: second :: rest)

def filteredText : Reader Expression := do
  let t ← either (joined g) (do let s ← quotedText; return .text s)
  let fs ← filters g
  return .mk t false fs

def comparedSum : Reader Expression := do
  let first ← filteredSum g
  let rest ← many (do blanks; let op ← arithmeticOp; blanks; let e ← filteredSum g; return (op, e))
  return group Arithmetic.isTight (fun op l r => .ofTerm (.arithmetic op l r)) first rest

def comparedValue : Reader Expression := either (filteredText g) (comparedSum g)

def comparison : Reader Expression := do
  let l ← comparedValue g
  let r ← maybe (do blanks; let op ← comparisonOp; blanks; let r ← comparedValue g; return (op, r))
  return r.elim l fun r => .ofTerm (.comparison r.1 l r.2)

def list : Reader Term := do
  exact "["
  let items ← many (do blanks; let e ← g.condition; mark ","; return e)
  let last ← maybe (do blanks; g.condition)
  mark "]"
  return .list (items ++ last.toList)

def listing : Reader Expression := do
  let t ← list g
  let fs ← filters g
  return .mk t false fs

def container : Reader Expression :=
  firstOf [filteredText g, listing g, do let p ← path; return .ofTerm (.name p)]

def membership : Reader Expression := do
  let item ← either (filteredText g) (filteredSum g)
  let negated ← maybe (do blanks; word "not")
  mark "in"
  blanks
  let c ← container g
  return .ofTerm (.within negated.isSome item c)

def conditionPart : Reader Expression :=
  either
    (do
      let negated ← maybe (word "not")
      blanks
      let e ← either (membership g) (comparison g)
      return .mk e.term negated.isSome e.filters)
    (do
      exact "("
      blanks
      let e ← g.condition
      mark ")"
      return e)

def condition : Reader Expression := do
  let first ← conditionPart g
  let rest ← many do
    blanks; let op ← connectiveOp; blanks; let e ← conditionPart g; return (op, e)
  return group (· == Connective.conjunction) (fun op l r => .ofTerm (.connective op l r)) first rest

end Reader

mutual

def sumAt : Nat → List Char → Option (Term × List Char)
  | 0, _ => none
  | n + 1, s => Reader.sum ⟨sumAt n, conditionAt n, listingAt n⟩ s

def conditionAt : Nat → List Char → Option (Expression × List Char)
  | 0, _ => none
  | n + 1, s => Reader.condition ⟨sumAt n, conditionAt n, listingAt n⟩ s

def listingAt : Nat → List Char → Option (Expression × List Char)
  | 0, _ => none
  | n + 1, s => Reader.listing ⟨sumAt n, conditionAt n, listingAt n⟩ s

end

/-- The rules for expressions nested up to the given depth. -/
def rulesAt (depth : Nat) : Rules := ⟨sumAt depth, conditionAt depth, listingAt depth⟩

namespace Reader

/-- A condition, or a list literal with filters: what output and assignments take. -/
def expression (depth : Nat) : Reader Expression := argumentValue (rulesAt depth)

end Reader

end ViewRendering.Template
