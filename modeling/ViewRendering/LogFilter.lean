import ViewRendering.Event
import ViewRendering.Text.Case
import ViewRendering.Text.Scan
import ViewRendering.Text.Space

/-!
Which events are logged. A filter is a list of directives, each with a level and possibly
the beginning of the names it applies to. Of the directives that apply to an event the one
with the longest beginning decides, and of two with the same the later one.
-/
namespace ViewRendering

/-- Events whose target begins so are logged up to a rank; rank zero means never. -/
structure LogDirective where
  start : List Char
  rank : Nat
deriving DecidableEq, Repr

namespace LogDirective

def rank? (s : List Char) : Option Nat :=
  if Text.sameLetters s "off".toList then some 0
  else
    match [Level.error, .warn, .info, .debug, .trace].find? fun l =>
        Text.sameLetters s l.label.toList with
    | some l => some l.rank
    | none =>
      match s with
      | [c] => if '0' ≤ c ∧ c ≤ '5' then some (c.toNat - 48) else none
      | _ => none

def isTargetChar (c : Char) : Bool := Text.isWord c || c == ':' || c == '-'

/-- A level, or a target with a level behind an equals sign; a target alone has all levels. -/
def parse (s : List Char) : Option LogDirective :=
  let s := Text.trim s
  match Text.splitOnce? '=' s with
  | some (target, level) =>
    if target.isEmpty || !target.all isTargetChar then none
    else if level.isEmpty then some ⟨target, Level.trace.rank⟩
    else (rank? level).map fun r => ⟨target, r⟩
  | none =>
    if s.isEmpty then none
    else
      match rank? s with
      | some r => some ⟨[], r⟩
      | none => if s.all isTargetChar then some ⟨s, Level.trace.rank⟩ else none

def applies (d : LogDirective) (e : Event) : Bool := d.start.isPrefixOf e.area.target.toList

end LogDirective

abbrev LogFilter := List LogDirective

namespace LogFilter

def upTo (l : Level) : LogFilter := [⟨"viewpress".toList, l.rank⟩]

/-- Directives with commas between them; no directive at all means errors only. -/
def parse (s : String) : Option LogFilter :=
  if s.isEmpty then some [⟨[], Level.error.rank⟩]
  else (Text.splitOn ',' s.toList).mapM LogDirective.parse

def decisive (f : LogFilter) (e : Event) : Option LogDirective :=
  (f.filter (·.applies e)).foldl (fun best d =>
    match best with
    | none => some d
    | some b => if b.start.length ≤ d.start.length then some d else some b) none

def allows (f : LogFilter) (e : Event) : Bool :=
  (f.decisive e).any fun d => e.level.rank ≤ d.rank

end LogFilter

end ViewRendering
