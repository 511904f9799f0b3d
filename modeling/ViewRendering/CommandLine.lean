import ViewRendering.Command

/-!
The arguments of the program. Switches and options may stand before and behind the view;
the two switches for the log may also stand before the name of the command. Reading goes
from left to right, and an option waits for its value until the next argument is
understood. What remains is checked for contradictions and for the view.
-/
namespace ViewRendering.CommandLine

inductive Switch where
  | verbose
  | quiet
  | noLayout
  | noCache
  | headers
  | help
  | version
deriving DecidableEq, Repr

/-- What takes a value. -/
inductive Setting where
  | root
  | settingsFile
  | locals
  | layout
  | extension
  | contentType
deriving DecidableEq, Repr

def Switch.long : Switch → String
  | .verbose => "verbose"
  | .quiet => "quiet"
  | .noLayout => "no-layout"
  | .noCache => "no-cache"
  | .headers => "headers"
  | .help => "help"
  | .version => "version"

def Switch.label (s : Switch) : String := "--" ++ s.long

def Setting.long : Setting → String
  | .root => "root"
  | .settingsFile => "config"
  | .locals => "locals"
  | .layout => "layout"
  | .extension => "ext"
  | .contentType => "content-type"

def Setting.label (s : Setting) : String :=
  "--" ++ s.long ++ match s with
    | .root => " <DIR>"
    | .settingsFile => " <FILE>"
    | .locals => " <JSON>"
    | .layout => " <NAME>"
    | .extension => " <EXT>"
    | .contentType => " <TYPE>"

def Setting.isPath : Setting → Bool
  | .root => true
  | .settingsFile => true
  | _ => false

/-- Why no command is run; the requests for help and for the version are among it. -/
inductive Refusal where
  | help
  | version
  /-- Nothing at all was asked for, so the purpose of the program is told. -/
  | purpose
  | commandMissing
  | unknownCommand (name : String)
  | unknownArgument (argument : String)
  | unneededValue (value label : String)
  | repeated (label : String)
  | contradiction (first second : String)
  | valueMissing (label : String)
  | viewMissing
deriving DecidableEq, Repr

namespace Refusal

def message : Refusal → String
  | help => ""
  | version => ""
  | purpose => "Render delimiter-marked view templates with partials and layouts"
  | commandMissing => "error: 'viewpress' requires a subcommand but one was not provided"
  | unknownCommand name => s!"error: unrecognized subcommand '{name}'"
  | unknownArgument argument => s!"error: unexpected argument '{argument}' found"
  | unneededValue value label =>
    s!"error: unexpected value '{value}' for '{label}' found; no more were expected"
  | repeated label => s!"error: the argument '{label}' cannot be used multiple times"
  | contradiction first second => s!"error: the argument '{first}' cannot be used with '{second}'"
  | valueMissing label => s!"error: a value is required for '{label}' but none was supplied"
  | viewMissing => "error: the following required arguments were not provided:"

def exitCode : Refusal → Nat
  | help => 0
  | version => 0
  | _ => 2

end Refusal

inductive Given where
  | switch (s : Switch)
  | setting (s : Setting) (value : String)
deriving DecidableEq, Repr

def Given.label : Given → String
  | .switch s => s.label
  | .setting s _ => s.label

structure State where
  /-- What was given, in order. -/
  given : List Given := []
  view : Option String := none
  /-- An option that waits, with its value if that has come. -/
  waiting : Option (Setting × Option String) := none
  /-- Whether all further arguments are taken for names. -/
  namesOnly : Bool := false
deriving DecidableEq, Repr

namespace State

def has (s : State) (label : String) : Bool := s.given.any (·.label = label)

/-- One more thing, which must not have been given before. -/
def add (s : State) (g : Given) : Except Refusal State :=
  if s.has g.label then .error (.repeated g.label) else .ok { s with given := s.given ++ [g] }

def addSetting (s : State) (k : Setting) (value : String) : Except Refusal State := do
  let t ← s.add (.setting k value)
  if k.isPath && value.isEmpty then .error (.valueMissing k.label) else return t

def settle (s : State) : Except Refusal State :=
  match s.waiting with
  | none => .ok s
  | some (k, none) => .error (.valueMissing k.label)
  | some (k, some value) => { s with waiting := none }.addSetting k value

end State

inductive Shape where
  | divider
  | long (name : String) (value : Option String)
  | short (letters : List Char)
  | name

def shape (argument : String) : Shape :=
  match argument.toList with
  | ['-', '-'] => .divider
  | '-' :: '-' :: r =>
    match Text.splitOnce? '=' r with
    | some (k, v) => .long (String.ofList k) (some (String.ofList v))
    | none => .long (String.ofList r) none
  | ['-'] => .name
  | '-' :: r => .short r
  | _ => .name

def programSwitches : List Switch := [.verbose, .quiet, .help, .version]

def commandSwitches : List Switch := [.verbose, .quiet, .noLayout, .noCache, .headers, .help]

def commandSettings : List Setting :=
  [.root, .settingsFile, .locals, .layout, .extension, .contentType]

def letter? : Switch → Option Char
  | .verbose => some 'v'
  | .quiet => some 'q'
  | .help => some 'h'
  | .version => some 'V'
  | _ => none

/-- A switch takes effect: help and version end the reading. -/
def State.switchOn (st : State) (s : Switch) : Except Refusal State :=
  match s with
  | .help => .error .help
  | .version => .error .version
  | s => do
    let t ← st.settle
    t.add (.switch s)

def State.letters (allowed : List Switch) : List Char → State → Except Refusal State
  | [], st => .ok st
  | c :: rest, st =>
    match allowed.find? fun s => letter? s = some c with
    | none => .error (.unknownArgument (String.ofList ['-', c]))
    | some s => do letters allowed rest (← st.switchOn s)

def State.long (allowed : List Switch) (settings : List Setting) (st : State) (name : String)
    (value : Option String) : Except Refusal State :=
  match allowed.find? (·.long = name), settings.find? (·.long = name), value with
  | some s, _, some v => .error (.unneededValue v s.label)
  | some s, _, none => st.switchOn s
  | none, some k, some v => do
    let t ← st.settle
    t.addSetting k v
  | none, some k, none => do
    let t ← st.settle
    return { t with waiting := some (k, none) }
  | none, none, _ => .error (.unknownArgument ("--" ++ name))

/-- A name: the value of a waiting option, or the view. -/
def State.takeName (st : State) (name : String) : Except Refusal State :=
  match st.waiting, st.namesOnly with
  | some (k, none), false => .ok { st with waiting := some (k, some name) }
  | _, _ =>
    if st.view.isSome then .error (.unknownArgument name)
    else do
      let t ← st.settle
      return { t with view := some name }

def State.next (st : State) (argument : String) : Except Refusal State :=
  if st.namesOnly then st.takeName argument
  else
    match shape argument with
    | .divider => .ok { st with namesOnly := true }
    | .long name value => st.long commandSwitches commandSettings name value
    | .short letters => st.letters commandSwitches letters
    | .name => st.takeName argument

def contradictions : List (String × String) :=
  [(Switch.verbose.label, Switch.quiet.label), (Setting.layout.label, Switch.noLayout.label)]

def contradict (a b : String) : Bool :=
  contradictions.contains (a, b) || contradictions.contains (b, a)

/-- The first thing given that another one contradicts. -/
def State.consistent (st : State) : Except Refusal Unit :=
  let labels := st.given.map Given.label
  match labels.findSome? fun a => (labels.find? (contradict a)).map fun b => (a, b) with
  | some (a, b) => .error (.contradiction a b)
  | none => .ok ()

def State.valueOf? (st : State) (k : Setting) : Option String :=
  st.given.findSome? fun g => match g with
    | .setting j v => if j = k then some v else none
    | .switch _ => none

def State.isOn (st : State) (s : Switch) : Bool := st.given.contains (.switch s)

structure Invocation where
  command : Command
  level : Level
deriving DecidableEq, Repr

def logLevel (outer inner : State) : Level :=
  if outer.isOn .verbose || inner.isOn .verbose then .debug
  else if outer.isOn .quiet || inner.isOn .quiet then .error
  else .warn

def State.command (st : State) : Except Refusal Command := do
  st.consistent
  match st.view with
  | none => .error .viewMissing
  | some view =>
    return {
      view := view
      root := st.valueOf? .root
      settingsFile := st.valueOf? .settingsFile
      locals := st.valueOf? .locals
      layout := st.valueOf? .layout
      noLayout := st.isOn .noLayout
      extension := st.valueOf? .extension
      noCache := st.isOn .noCache
      contentType := st.valueOf? .contentType
      showHead := st.isOn .headers }

def readCommand (arguments : List String) : Except Refusal (State × Command) := do
  let st ← arguments.foldlM State.next {}
  let st ← st.settle
  return (st, ← st.command)

def commandName : String := "render"

def helpName : String := "help"

def helpAbout : List String → Refusal
  | [] => .help
  | name :: rest =>
    if name = commandName ∨ name = helpName then
      match rest with
      | [] => .help
      | other :: _ => .unknownCommand other
    else .unknownCommand name

def withoutCommand (st : State) : Refusal := if st.given.isEmpty then .purpose else .commandMissing

def readFrom (st : State) : List String → Except Refusal Invocation
  | [] => .error (withoutCommand st)
  | argument :: rest =>
    if st.namesOnly then
      if argument = commandName ∨ argument = helpName then .error (.unknownArgument argument)
      else .error (.unknownCommand argument)
    else if argument = commandName then do
      let (inner, command) ← readCommand rest
      st.consistent
      return ⟨command, logLevel st inner⟩
    else if argument = helpName then .error (helpAbout rest)
    else
      match shape argument with
      | .divider => readFrom { st with namesOnly := true } rest
      | .long name value => do readFrom (← st.long programSwitches [] name value) rest
      | .short letters => do readFrom (← st.letters programSwitches letters) rest
      | .name => .error (.unknownCommand argument)

def read (arguments : List String) : Except Refusal Invocation := readFrom {} arguments

end ViewRendering.CommandLine
