import ViewRendering.Text.Scan
import ViewRendering.Text.Space
import ViewRendering.Value

/-!
The expressions that name a partial: quoted texts, dotted paths into the locals, and
sums of these. A path has to end at a text or a number; the name is the texts put
together.
-/
namespace ViewRendering.Partial

inductive Term where
  | literal (s : List Char)
  | lookup (path : List (List Char))
deriving DecidableEq, Repr

inductive Expression where
  | term (t : Term)
  | sum (first second : Term) (rest : List Term)
deriving DecidableEq, Repr

inductive ExpressionFault where
  | unsupported (text : List Char)
  | undefined (path : List Char)
  | notText (path : List Char) (kind : String)
deriving DecidableEq, Repr

def ExpressionFault.message : ExpressionFault → String
  | .unsupported text => s!"unsupported partial expression '{String.ofList text}'"
  | .undefined path => s!"'{String.ofList path}' is not defined in the render locals"
  | .notText path kind => s!"'{String.ofList path}' is {kind}, expected a string"

namespace Expression

def terms : Expression → List Term
  | .term t => [t]
  | .sum a b rest => a :: b :: rest

def ofTerms? : List Term → Option Expression
  | [] => none
  | [t] => some (.term t)
  | a :: b :: rest => some (.sum a b rest)

theorem terms_of_ofTerms? {ts : List Term} {e : Expression} (h : ofTerms? ts = some e) :
    e.terms = ts := by
  match ts with
  | [] => simp [ofTerms?] at h
  | [t] => simp only [ofTerms?, Option.some.injEq] at h; subst h; rfl
  | a :: b :: rest => simp only [ofTerms?, Option.some.injEq] at h; subst h; rfl

end Expression

def pushFront (c : Char) : List (List Char) → List (List Char)
  | [] => [[c]]
  | p :: ps => (c :: p) :: ps

/-- The pieces between the plus signs outside quotes; nothing if a quote stays open. -/
def splitSum : Option Char → List Char → Option (List (List Char))
  | none, [] => some [[]]
  | some _, [] => none
  | some q, c :: s => (splitSum (if c = q then none else some q) s).map (pushFront c)
  | none, c :: s =>
    if c = '\'' ∨ c = '"' then (splitSum (some c) s).map (pushFront c)
    else if c = '+' then (splitSum none s).map ([] :: ·)
    else (splitSum none s).map (pushFront c)

def isNameStart (c : Char) : Bool := c.isAlpha || c == '_' || c == '$'

def isNamePart (c : Char) : Bool := c.isAlphanum || c == '_' || c == '$'

/-- Names begin with a letter, an underscore or a dollar sign. -/
def isName : List Char → Bool
  | [] => false
  | c :: s => isNameStart c && s.all isNamePart

/-- The text inside quotes `q`, if `s` is closed by the only other `q` in it. -/
def unquote (q : Char) (s : List Char) : Option (List Char) :=
  match s.reverse with
  | [] => none
  | c :: r => if c = q ∧ !r.contains q then some r.reverse else none

def Term.parse (s : List Char) : Option Term :=
  match s with
  | [] => none
  | c :: r =>
    if c = '\'' ∨ c = '"' then (unquote c r).map .literal
    else
      let path := Text.splitOn '.' s
      if path.all isName then some (.lookup path) else none

namespace Expression

def parse (s : List Char) : Except ExpressionFault Expression :=
  match (splitSum none s).bind fun ps =>
      (ps.mapM fun p => Term.parse (Text.trim p)).bind ofTerms? with
  | some e => .ok e
  | none => .error (.unsupported (Text.trim s))

end Expression

def fieldAt (v : Value) : List (List Char) → Option Value
  | [] => some v
  | name :: rest =>
    match v with
    | .record fields => (Dict.lookup fields (String.ofList name)).bind (fieldAt · rest)
    | _ => none

/-- The text a term stands for; a number is written as in data texts. -/
def Term.evaluate (locals : Dict Value) : Term → Except ExpressionFault (List Char)
  | .literal s => .ok s
  | .lookup path =>
    let dotted := Text.join ['.'] path
    match fieldAt (.record locals) path with
    | none => .error (.undefined dotted)
    | some (.text s) => .ok s.toList
    | some (.number n) => .ok (n.write .data)
    | some v => .error (.notText dotted v.kindName)

/-- The name an expression stands for; the first term without a text decides the fault. -/
def Expression.evaluate (locals : Dict Value) (e : Expression) :
    Except ExpressionFault (List Char) :=
  (e.terms.mapM (Term.evaluate locals)).map List.flatten

end ViewRendering.Partial
