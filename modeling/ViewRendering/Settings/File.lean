import ViewRendering.Event
import ViewRendering.Files
import ViewRendering.Settings.Table
import ViewRendering.Toml.Document

/-!
Settings from a file. A root that is relative is meant relative to the directory of the
file.
-/
namespace ViewRendering.Settings

def ofDocument (s : List Char) : Except Failure Settings :=
  match (Toml.parse s).bind ofTable? with
  | some c => .ok c
  | none => .error (.settings "invalid configuration TOML")

def relativeTo (c : Settings) (path : String) : Settings :=
  if Path.isAbsolute c.root then c
  else
    match Path.parent? path with
    | some directory => { c with root := Path.join directory c.root }
    | none => c

def loadedEvent (c : Settings) (path : String) : Occurrence :=
  Journal.debug .settings (s!"Loaded render configuration from {path} (root={c.root}, " ++
    s!"cache={c.cache}, layout={c.layoutText})")

def load (files : Files) (path : String) : Except Failure Settings × Journal :=
  match files.read path with
  | .error e => (.error (.settings s!"cannot read configuration {path}: {e.message}"), [.read path])
  | .ok s =>
    match ofDocument s with
    | .error f => (.error f, [.read path])
    | .ok c =>
      let c := c.relativeTo path
      (.ok c, [.read path, c.loadedEvent path])

end ViewRendering.Settings
