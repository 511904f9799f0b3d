import ViewRendering.Template.Argument
import ViewRendering.Template.Calculation
import ViewRendering.Template.Output
import ViewRendering.Template.Scope
import ViewRendering.Text.Case
import ViewRendering.Text.Space

/-!
The filters that every template has: on texts, numbers, lists and records. Each takes
its value and named arguments, and complains about those it cannot use. Filters of the
engine that are not defined here come with `Engine`, which lists them.
-/
namespace ViewRendering.Template.Filters

def textFilter (name : String) (f : List Char → List Char) : Filter := fun v _ => do
  let s ← inputOf name .text v
  return .ofChars (f s.toList)

def ofReal (x : Float) : Value := if x.isFinite then .number (.real x) else .null

def capitalized : List Char → List Char
  | [] => []
  | c :: s => Text.upperOf c ++ Text.lower s

def isTitlePart (c : Char) : Bool := Text.isWord c || c == '\''

def isEdge (before after : Option Char) : Bool :=
  before.any Text.isWord != after.any Text.isWord

/-- The longest beginning of `run`, at most `n` characters, that ends at the edge of a word. -/
def wordLength (run : List Char) (after : Option Char) : Nat → Nat
  | 0 => 0
  | n + 1 =>
    let next := match run[n + 1]? with
      | some c => some c
      | none => after
    if isEdge run[n]? next then n + 1 else wordLength run after n

def titled : Nat → Option Char → List Char → List Char
  | 0, _, s => s
  | _ + 1, _, [] => []
  | n + 1, before, c :: s =>
    if isTitlePart c && isEdge before (some c) then
      let run := (c :: s).takeWhile isTitlePart
      let rest := (c :: s).dropWhile isTitlePart
      match wordLength run rest.head? run.length with
      | 0 => c :: titled n (some c) s
      | k + 1 =>
        Text.upperOf c ++ Text.lower ((c :: s).take (k + 1)).tail ++
          titled n run[k]? ((c :: s).drop (k + 1))
    else c :: titled n (some c) s

def withSlashes (s : List Char) : List Char :=
  let s := Text.replace ['\\'] ['\\', '\\'] s
  let s := Text.replace ['"'] ['\\', '"'] s
  Text.replace ['\''] ['\\', '\''] s

def withBreaks (s : List Char) : List Char :=
  Text.replace ['\n'] "<br>".toList (Text.replace ['\r', '\n'] "<br>".toList s)

/-- Spelled line ends and tabs in an argument are meant as such. -/
def unspelled (s : String) : List Char :=
  Text.replace "\\t".toList ['\t'] (Text.replace "\\n".toList ['\n'] s.toList)

def replace : Filter := fun v args => do
  let s ← inputOf "replace" .text v
  let old ← argumentNeeded "replace" "from" .text args
    "Filter `replace` expected an arg called `from`"
  let new ← argumentNeeded "replace" "to" .text args
    "Filter `replace` expected an arg called `to`"
  return .ofChars (Text.replace old.toList new.toList s.toList)

def split : Filter := fun v args => do
  let s ← inputOf "split" .text v
  let pat ← argumentNeeded "split" "pat" .text args "Filter `split` expected an arg called `pat`"
  return .list ((Text.split (unspelled pat) s.toList).map .ofChars)

def wordcount : Filter := fun v _ => do
  let s ← inputOf "wordcount" .text v
  return .ofNat (Text.words s.toList).length

def wholeIn? (base : Nat) (s : List Char) : Option Int :=
  let (negative, ds) := match s with
    | '-' :: r => (true, r)
    | '+' :: r => (false, r)
    | r => (false, r)
  let digit? (c : Char) : Option Nat :=
    let n := if c.isDigit then c.toNat - 48
      else if 'a' ≤ c ∧ c ≤ 'z' then c.toNat - 87
      else if 'A' ≤ c ∧ c ≤ 'Z' then c.toNat - 55
      else base
    if n < base then some n else none
  if ds.isEmpty then none
  else
    (ds.mapM digit?).bind fun ns =>
      let n : Int := ns.foldl (fun (n : Int) (d : Nat) => n * base + d) 0
      let n := if negative then -n else n
      if Number.isSigned64 n then some n else none

/-- A decimal number with an optional sign, point and exponent, or a word for no or for an
infinite number. -/
def real? (s : List Char) : Option Float :=
  let (negative, r) := match s with
    | '-' :: r => (true, r)
    | '+' :: r => (false, r)
    | r => (false, r)
  let signed (x : Float) : Float := if negative then -x else x
  let lowered := String.ofList (r.map Char.toLower)
  if lowered = "inf" ∨ lowered = "infinity" then some (signed (1.0 / 0.0))
  else if lowered = "nan" then some (0.0 / 0.0)
  else
    let ws := r.takeWhile Char.isDigit
    let (fs, r) := match r.dropWhile Char.isDigit with
      | '.' :: r => (r.takeWhile Char.isDigit, r.dropWhile Char.isDigit)
      | r => ([], r)
    let exponent? : Option Int := match r with
      | [] => some 0
      | c :: r => if c = 'e' ∨ c = 'E' then wholeIn? 10 r else none
    if ws.isEmpty && fs.isEmpty then none
    else
      exponent?.map fun (e : Int) =>
        let digits := (ws ++ fs).foldl (fun n c => n * 10 + (c.toNat - 48)) 0
        let e : Int := max (-5000) (min 5000 e) - (fs.length : Int)
        signed (match e with
          | .ofNat k => Float.ofScientific digits false k
          | .negSucc k => Float.ofScientific digits true (k + 1))

def int : Filter := fun v args => do
  let default ← argumentOr "int" "default" .signed64 args 0
  let base ← argumentOr "int" "base" .unsigned32 args 10
  match v with
  | .text s =>
    let s := Text.trim s.toList
    let mark : List Char := if base = 2 then ['0', 'b'] else if base = 8 then ['0', 'o']
      else if base = 16 then ['0', 'x'] else []
    let rec strip : Nat → List Char → List Char
      | 0, s => s
      | n + 1, s => match Text.after? mark s with
        | some r => strip n r
        | none => s
    let s := if mark.isEmpty then s else strip s.length s
    match wholeIn? base s with
    | some n => return .number (.whole n)
    | none =>
      if s.contains '.' then
        return .number (.whole ((real? s).elim default wholeOfReal))
      else return .number (.whole default)
  | .number n => return .number (.whole (wholeOfReal n.toReal))
  | _ => failed "Filter `int` received an unexpected type"

def float : Filter := fun v args => do
  let default ← argumentOr "float" "default" .real args 0.0
  match v with
  | .text s => return ofReal ((real? (Text.trim s.toList)).getD default)
  | .number n => return ofReal n.toReal
  | _ => failed "Filter `float` received an unexpected type"

def abs : Filter := fun v _ =>
  match v with
  | .number (.whole n) => .ok (.number (.whole (if n = -Number.signedEnd then n else n.natAbs)))
  | .number (.real x) => .ok (ofReal x.abs)
  | _ => failed "Filter `abs` was used on a value that isn't a number."

def pluralize : Filter := fun v args => do
  let x ← inputOf "pluralize" .real v
  let plural ← argumentOr "pluralize" "plural" .text args "s"
  let singular ← argumentOr "pluralize" "singular" .text args ""
  let isOne := (x.abs - 1.0).abs ≤ Float.ofScientific 2220446049250313 true 31
  return .text (if isOne then singular else plural)

def powerOfTen (e : Int) : Float :=
  match e with
  | .ofNat k => Float.ofScientific 1 false k
  | .negSucc k => 1.0 / Float.ofScientific 1 false (k + 1)

def round : Filter := fun v args => do
  let x ← inputOf "round" .real v
  let method ← argumentOr "round" "method" .text args "common"
  let precision ← argumentOr "round" "precision" .signed32 args 0
  let m := if precision = 0 then 1.0 else powerOfTen precision
  if method = "common" then return ofReal ((m * x).round / m)
  else if method = "ceil" then return ofReal ((m * x).ceil / m)
  else if method = "floor" then return ofReal ((m * x).floor / m)
  else
    failed ("Filter `round` received an incorrect value for arg `method`: got `" ++
      Text.quoted method ++ "`, only common, ceil and floor are allowed")

def first : Filter := fun v _ => do
  let items ← inputOf "first" .list v
  return items.head?.getD (.text "")

def last : Filter := fun v _ => do
  let items ← inputOf "last" .list v
  return items.getLast?.getD (.text "")

def nth : Filter := fun v args => do
  let items ← inputOf "nth" .list v
  if items.isEmpty then return .text ""
  let n ← argumentNeeded "nth" "n" .unsigned64 args
    "The `nth` filter has to have an `n` argument"
  return items[n]?.getD (.text "")

def join : Filter := fun v args => do
  let items ← inputOf "join" .list v
  let sep ← argumentOr "truncate" "sep" .text args ""
  return .ofChars (Text.join (unspelled sep) (items.map pageText))

def noField {α : Type} (field : String) : Result α :=
  failed s!"attribute '{field}' does not reference a field"

/-- The value at an attribute of an item; without an attribute the item itself. -/
def keyOf (field : String) (item : Value) : Result Value :=
  if field.isEmpty then .ok item
  else (valueAt? item field.toList).elim (noField field) .ok

/-- The items with their keys in the order of the keys; items with equal keys stay in place. -/
def sortedBy {κ : Type} (le : κ → κ → Bool) (pairs : List (κ × Value)) : List Value :=
  (pairs.mergeSort fun p q => le p.1 q.1).map (·.2)

/-- Sorts by keys of one kind; a missing key or one of another kind is a fault. -/
def sortBy {κ : Type} (field kind : String) (read? : Value → Option κ) (le : κ → κ → Bool)
    (items : List Value) : Result Value := do
  let pairs ← items.mapM fun item => do
    let key ← keyOf field item
    match read? key with
    | some k => Except.ok (k, item)
    | none => failed s!"expected {kind} got {Value.Json.toText key}"
  return .list (sortedBy le pairs)

def number? : Value → Option Float
  | .number n => some n.toReal
  | _ => none

def bool? : Value → Option Bool
  | .bool b => some b
  | _ => none

def listSize? : Value → Option Nat
  | .list items => some items.length
  | _ => none

def sort : Filter := fun v args => do
  let items ← inputOf "sort" .list v
  match items with
  | [] => return .list []
  | item :: _ =>
    let field ← argumentOr "sort" "attribute" .text args ""
    match ← keyOf field item with
    | .null => failed "Null is not a sortable value"
    | .record _ => failed "Object is not a sortable value"
    | .bool _ => sortBy field "bool" bool? (fun a b => !a || b) items
    | .number _ => sortBy field "number" number? (fun a b => a ≤ b) items
    | .text _ => sortBy field "string" Value.text? (fun a b => !(b < a)) items
    | .list _ => sortBy field "array" listSize? (fun a b => a ≤ b) items

/-- What makes two items the same for `unique`. -/
inductive Mark where
  | bool (b : Bool)
  | whole (n : Int)
  | text (s : List Char)
deriving DecidableEq

/-- The mark of a key, which has to be of the kind of the first key. -/
def markOf (caseMatters : Bool) (first key : Value) : Result Mark :=
  match first, key with
  | .bool _, .bool b => .ok (.bool b)
  | .number _, .number (.whole n) =>
    if Number.isSigned64 n then .ok (.whole n)
    else failed s!"expected number got {Value.Json.toText key}"
  | .number _, .number (.real _) => failed s!"expected number got {Value.Json.toText key}"
  | .text _, .text s => .ok (.text (if caseMatters then s.toList else Text.lower s.toList))
  | _, _ => failed "unique filter can't compare multiple types"

def firstOfEach (mark : Value → Result (Option Mark)) : List Mark → List Value → Result (List Value)
  | _, [] => .ok []
  | seen, item :: rest => do
    match ← mark item with
    | none => firstOfEach mark seen rest
    | some m =>
      if seen.contains m then firstOfEach mark seen rest
      else
        let more ← firstOfEach mark (m :: seen) rest
        return item :: more

def unique : Filter := fun v args => do
  let items ← inputOf "unique" .list v
  match items with
  | [] => return .list []
  | item :: _ =>
    let caseMatters ← argumentOr "unique" "case_sensitive" .bool args false
    let field ← argumentOr "unique" "attribute" .text args ""
    let first ← keyOf field item
    match first with
    | .null => failed "Null is not a unique value"
    | .number (.real _) => failed "Unique floats are not implemented"
    | .list _ => failed "Unique arrays are not implemented"
    | .record _ => failed "Unique objects are not implemented"
    | _ =>
      let mark (i : Value) : Result (Option Mark) :=
        if field.isEmpty then (markOf caseMatters first i).map some
        else
          match valueAt? i field.toList with
          | none => .ok none
          | some k => (markOf caseMatters first k).map some
      return .list (← firstOfEach mark [] items)

def reverse : Filter := fun v _ =>
  match v with
  | .list items => .ok (.list items.reverse)
  | .text s => .ok (.ofChars s.toList.reverse)
  | _ =>
    failed ("Filter `reverse` received an incorrect type for arg `value`: got `" ++
      Value.Json.toText v ++ "` but expected Array|String")

/-- A place in a list of the given length; negative ones count from its end. -/
def placeIn (length : Nat) (x : Float) : Nat :=
  let y := if x ≥ 0.0 then x else Float.ofNat length + x
  (wholeOfReal y).toNat

def slice : Filter := fun v args => do
  let items ← inputOf "slice" .list v
  if items.isEmpty then return .list []
  let size := items.length
  let start ← match args.lookup "start" with
    | some a => (givenArgument "slice" "start" .real a).map (placeIn size)
    | none => .ok 0
  let stop ← match args.lookup "end" with
    | some a => (givenArgument "slice" "end" .real a).map (placeIn size)
    | none => .ok size
  return .list ((items.take stop).drop start)

/-- Keeps the items whose attribute has the given value, or any value if none is given. -/
def filter : Filter := fun v args => do
  let items ← inputOf "filter" .list v
  if items.isEmpty then return .list []
  let field ← argumentNeeded "filter" "attribute" .text args
    "The `filter` filter has to have an `attribute` argument"
  let wanted := (args.lookup "value").getD .null
  return .list (items.filter fun i =>
    let k := (valueAt? i field.toList).getD .null
    match wanted, k with
    | .null, .null => false
    | .null, _ => true
    | w, k => k.same w)

def map : Filter := fun v args => do
  let items ← inputOf "map" .list v
  if items.isEmpty then return .list []
  let field ← argumentNeeded "map" "attribute" .text args
    "The `map` filter has to have an `attribute` argument"
  return .list (items.filterMap fun i =>
    match valueAt? i field.toList with
    | some .null => none
    | k => k)

def concat : Filter := fun v args => do
  let items ← inputOf "concat" .list v
  match args.lookup "with" with
  | none => failed "The `concat` filter has to have a `with` argument"
  | some (.list more) => return .list (items ++ more)
  | some w => return .list (items ++ [w])

def get : Filter := fun v args => do
  let key ← argumentNeeded "get" "key" .text args "The `get` filter has to have an `key` argument"
  match v with
  | .record fields =>
    match Dict.lookup fields key, args.lookup "default" with
    | some w, _ => return w
    | none, some d => return d
    | none, none => failed s!"Filter `get` tried to get key `{key}` but it wasn't found"
  | _ => failed "Filter `get` was used on a value that isn't an object"

def length : Filter := fun v _ =>
  match v with
  | .list items => .ok (.ofNat items.length)
  | .record fields => .ok (.ofNat fields.length)
  | .text s => .ok (.ofNat s.toList.length)
  | _ => failed
      "Filter `length` was used on a value that isn't an array, an object, or a string."

def jsonEncode : Filter := fun v args =>
  match args.lookup "pretty" with
  | some (.bool true) => .ok (.text (Value.Json.toPrettyText v))
  | _ => .ok (.text (Value.Json.toText v))

def asStr : Filter := fun v _ => .ok (.ofChars (pageText v))

def find? (name : String) : Option Filter :=
  match name with
  | "upper" => some (textFilter "upper" Text.upper)
  | "lower" => some (textFilter "lower" Text.lower)
  | "trim" => some (textFilter "trim" Text.trim)
  | "trim_start" => some (textFilter "trim_start" Text.trimStart)
  | "trim_end" => some (textFilter "trim_end" Text.trimEnd)
  | "capitalize" => some (textFilter "capitalize" capitalized)
  | "title" => some (textFilter "title" fun s => titled s.length none s)
  | "addslashes" => some (textFilter "addslashes" withSlashes)
  | "linebreaksbr" => some (textFilter "linebreaksbr" withBreaks)
  | "escape" => some (textFilter "escape_html" escapeHtml)
  | "replace" => some replace
  | "split" => some split
  | "wordcount" => some wordcount
  | "int" => some int
  | "float" => some float
  | "abs" => some abs
  | "pluralize" => some pluralize
  | "round" => some round
  | "first" => some first
  | "last" => some last
  | "nth" => some nth
  | "join" => some join
  | "sort" => some sort
  | "unique" => some unique
  | "reverse" => some reverse
  | "slice" => some slice
  | "filter" => some filter
  | "map" => some map
  | "concat" => some concat
  | "get" => some get
  | "length" => some length
  | "json_encode" => some jsonEncode
  | "as_str" => some asStr
  | _ => none

end ViewRendering.Template.Filters
