import ViewRendering.Settings

/-!
Settings as tables. Every setting may be left out, an unknown key is kept, and the
extension has two spellings of its key, of which one may be used. The layout is a name
or a truth value; a disabled layout is written as `false`.
-/
namespace ViewRendering.Settings

def fieldOr {α : Type} (t : Dict Value) (key : String) (read? : Value → Option α) (default : α) :
    Option α :=
  match t.lookup key with
  | none => some default
  | some v => read? v

def readFlag : Value → Option Bool
  | .bool b => some b
  | _ => none

/-- A layout by name; `true` means the usual one, `false` and the empty name none. -/
def readLayout : Value → Option (Option String)
  | .text name => some (if name.isEmpty then none else some name)
  | .bool true => some (some defaultLayout)
  | .bool false => some none
  | _ => none

def layoutValue (layout : Option String) : Value := layout.elim (.bool false) .text

/-- The two spellings of the key for the extension. -/
def extensionKey : String := "view_ext"

def extensionAlias : String := "viewExt"

/-- The extension under one of its keys, but not under both. -/
def readExtension (t : Dict Value) : Option String :=
  match t.lookup extensionKey, t.lookup extensionAlias with
  | none, none => some ""
  | some v, none => v.text?
  | none, some v => v.text?
  | some _, some _ => none

def knownKeys : List String :=
  ["root", "cache", "layout", extensionKey, extensionAlias, "open", "close"]

def unknown (t : Dict Value) : Dict Value := t.filter fun e => !knownKeys.contains e.1

def ofTable? (t : Dict Value) : Option Settings := do
  let root ← fieldOr t "root" Value.text? "views"
  let cache ← fieldOr t "cache" readFlag true
  let layout ← fieldOr t "layout" readLayout (some defaultLayout)
  let extension ← readExtension t
  let opening ← fieldOr t "open" Value.text? "<%"
  let closing ← fieldOr t "close" Value.text? "%>"
  return ⟨root, cache, layout, extension, opening, closing, unknown t⟩

def toTable (c : Settings) : Dict Value :=
  [("root", Value.text c.root), ("cache", .bool c.cache), ("layout", layoutValue c.layout),
    (extensionKey, .text c.extension), ("open", .text c.opening),
    ("close", .text c.closing)].foldl (fun t e => t.insert e.1 e.2) c.extra

end ViewRendering.Settings
