import ViewRendering.Service
import ViewRendering.Settings.File

/-!
The command that renders one view. Its settings come from a file or are the usual ones,
with single settings overridden; its locals are a data text. It prints the page, on
request below the head of the response, or else it prints nothing and leaves a notice.
-/
namespace ViewRendering

structure Command where
  view : String
  root : Option String := none
  settingsFile : Option String := none
  /-- A data text with the locals. -/
  locals : Option String := none
  layout : Option String := none
  noLayout : Bool := false
  extension : Option String := none
  noCache : Bool := false
  contentType : Option String := none
  /-- Whether the head of the response is printed above the page. -/
  showHead : Bool := false
deriving DecidableEq, Repr

namespace Command

inductive Refusal where
  | failure (f : Failure)
  /-- The locals are no data text. -/
  | locals (fault : String)
deriving DecidableEq, Repr

def Refusal.notice : Refusal → Notice
  | .failure f => f.notice
  | .locals fault => Notice.ofChain ["--locals must be a JSON object", fault]

def override (c : Command) (s : Settings) : Settings :=
  { s with
    root := c.root.getD s.root
    extension := c.extension.getD s.extension
    cache := s.cache && !c.noCache }

def settings (c : Command) (files : Files) : Except Failure Settings × Journal :=
  match c.settingsFile with
  | none => (.ok (c.override {}), [])
  | some path =>
    let (loaded, journal) := Settings.load files path
    (loaded.map c.override, journal)

/-- The layout that the command names, or none, in place of the one in the locals. -/
def withLayout (c : Command) (o : Options) : Options :=
  match c.layout with
  | some name => o.withLayout name
  | none => if c.noLayout then o.withoutLayout else o

def options (c : Command) : Except Refusal Options :=
  match c.locals with
  | none => .ok (c.withLayout {})
  | some text =>
    match Value.Json.parse text with
    | .error fault => .error (.locals fault)
    | .ok v =>
      match Options.ofValue v with
      | .error f => .error (.failure f)
      | .ok o => .ok (c.withLayout o)

def request : Http.Request := ⟨"GET", ⟨none, [], ['/'], none⟩, []⟩

def draft (c : Command) : Http.Draft :=
  Http.Head.build none
    (c.contentType.elim [] fun type => [(Emission.typeName, Text.Utf8.encode type.toList)])

def headerLine (h : Http.Header) : List Char := h.name.toList ++ ':' :: ' ' :: h.text ++ ['\n']

def renderingEvent (c : Command) (s : Settings) : Occurrence :=
  Journal.debug .command s!"Rendering '{c.view}' from {s.root}"

def respond (c : Command) (files : Files) (engine : Template.Engine) (s : Settings) (o : Options) :
    Except Failure Http.Response × Journal :=
  match Service.build s [] [] engine with
  | (.error f, journal) => (.error f, journal)
  | (.ok service, journal) =>
    let r := service.render files request c.draft c.view o
    (r.result, journal ++ r.journal)

structure Progress where
  output : List UInt8 := []
  journal : Journal := []

/-- Work of a command, which prints and reports, and which may be refused on the way. What was
printed before stays printed then. -/
abbrev Work (α : Type) := ExceptT Refusal (StateM Progress) α

namespace Work

def runFrom {α : Type} (w : Work α) (p : Progress) : Except Refusal α × Progress :=
  StateT.run (ExceptT.run w) p

def print (octets : List UInt8) : Work Unit :=
  modify fun p => { p with output := p.output ++ octets }

def report (journal : Journal) : Work Unit :=
  modify fun p => { p with journal := p.journal ++ journal }

/-- Goes on with the result of an activity, once all that it reports is in the journal. -/
def await {α : Type} (activity : Except Failure α × Journal) : Work α := do
  report activity.2
  match activity.1 with
  | .ok a => return a
  | .error f => throw (.failure f)

end Work

def statusLine : List Char := "HTTP/1.1 200 OK\n".toList

def printHead (head : Http.Head) : Work Unit := do
  Work.print (Text.Utf8.encode statusLine)
  head.headers.forM fun h => Work.print (Text.Utf8.encode (headerLine h))
  Work.print (Text.Utf8.encode ['\n'])

/-- The work of a command. Nothing is printed before there is a response. -/
def work (c : Command) (files : Files) (engine : Template.Engine) : Work Unit := do
  let s ← Work.await (c.settings files)
  let o ← c.options
  Work.report [c.renderingEvent s]
  let r ← Work.await (c.respond files engine s o)
  if c.showHead then printHead r.head
  Work.print r.body

def run (c : Command) (files : Files) (engine : Template.Engine := .plain) :
    Except Refusal (List UInt8) × Journal :=
  let (result, p) := (c.work files engine).runFrom {}
  (result.map fun _ => p.output, p.journal)

end Command

end ViewRendering
