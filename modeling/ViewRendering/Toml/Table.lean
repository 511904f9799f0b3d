import ViewRendering.Value

/-!
Tables in the making. A key is defined once. A table can be opened once by a header, also
if it was implied before as part of a longer header; a table made by a dotted key can be
extended by dotted keys only, and a table written as a value not at all.
-/
namespace ViewRendering.Toml

inductive Origin where
  | opened
  | implied
  | dotted
deriving DecidableEq, Repr

inductive Entry where
  | value (v : Value)
  | table (origin : Origin) (entries : List (String × Entry))
  /-- Tables under one repeated header, in order. -/
  | tables (items : List (List (String × Entry)))

abbrev Table := Dict Entry

namespace Table

/-- The table with a value at the end of a dotted key. -/
def put (v : Value) : List String → Table → Option Table
  | [], _ => none
  | [k], t => if t.has k then none else some (t.insert k (.value v))
  | k :: path, t =>
    match t.lookup k with
    | none => (put v path []).map fun inner => t.insert k (.table .dotted inner)
    | some (.table .dotted inner) =>
      (put v path inner).map fun inner => t.insert k (.table .dotted inner)
    | some _ => none

/-- The table with the table of a header filled in, or one more table if the header repeats. -/
def fill (repeats : Bool) (content : Table → Option Table) : List String → Table → Option Table
  | [], _ => none
  | [k], t =>
    match repeats, t.lookup k with
    | false, none => (content []).map fun inner => t.insert k (.table .opened inner)
    | false, some (.table .implied inner) =>
      (content inner).map fun inner => t.insert k (.table .opened inner)
    | true, none => (content []).map fun inner => t.insert k (.tables [inner])
    | true, some (.tables items) =>
      (content []).map fun inner => t.insert k (.tables (items ++ [inner]))
    | _, _ => none
  | k :: path, t =>
    match t.lookup k with
    | none => (fill repeats content path []).map fun inner => t.insert k (.table .implied inner)
    | some (.table origin inner) =>
      (fill repeats content path inner).map fun inner => t.insert k (.table origin inner)
    | some (.tables items) =>
      (items.getLast?.bind (fill repeats content path)).map fun last =>
        t.insert k (.tables (items.dropLast ++ [last]))
    | some (.value _) => none

end Table

mutual

def Entry.toValue : Entry → Value
  | .value v => v
  | .table _ entries => .record (fieldValues entries)
  | .tables items => .list (itemValues items)

def fieldValues : List (String × Entry) → List (String × Value)
  | [] => []
  | (k, e) :: rest => (k, e.toValue) :: fieldValues rest

def itemValues : List (List (String × Entry)) → List Value
  | [] => []
  | t :: rest => .record (fieldValues t) :: itemValues rest

end

end ViewRendering.Toml
