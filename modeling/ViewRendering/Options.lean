import ViewRendering.Failure
import ViewRendering.Value

/-!
What a caller asks of a single render: the locals, and which layout wraps the view. In
a record of locals the name `layout` is not a local but the choice of the layout.
-/
namespace ViewRendering

inductive LayoutChoice where
  /-- The layout of the settings, if there is one. -/
  | usual
  | without
  | named (name : String)
deriving DecidableEq, Repr

namespace LayoutChoice

/-- A layout by its name; the empty name means none. -/
def ofName (name : String) : LayoutChoice := if name.isEmpty then .without else .named name

def resolve (c : LayoutChoice) (configured : Option String) : Option String :=
  match c with
  | .usual => configured
  | .without => none
  | .named name => some name

end LayoutChoice

structure Options where
  layout : LayoutChoice := .usual
  locals : Dict Value := []

namespace Options

def layoutKey : String := "layout"

def withLocal (o : Options) (key : String) (v : Value) : Options :=
  { o with locals := o.locals.insert key v }

def withLayout (o : Options) (name : String) : Options :=
  { o with layout := .ofName name }

def withoutLayout (o : Options) : Options := { o with layout := .without }

/-- The choice that a value stands for: a name, or a truth value; nothing at all means none. -/
def layoutOf (v : Option Value) : Except Failure LayoutChoice :=
  match v with
  | none => .ok .usual
  | some (.bool true) => .ok .usual
  | some (.bool false) => .ok .without
  | some .null => .ok .without
  | some (.text name) => .ok (.ofName name)
  | some other =>
    .error (.settings s!"layout option must be a string or boolean, got {other.kindName}")

def ofValue (v : Value) : Except Failure Options :=
  match v with
  | .null => .ok {}
  | .record fields =>
    match layoutOf (Dict.lookup fields layoutKey) with
    | .error f => .error f
    | .ok layout => .ok ⟨layout, Dict.erase fields layoutKey⟩
  | other => .error (.settings s!"render options must be a JSON object, got {other.kindName}")

end Options

end ViewRendering
