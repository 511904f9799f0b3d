import ViewRendering.FileTree
import ViewRendering.Service

/-!
A service at work: renders and lookups, with changes of the view files in between. The
files belong to the state, so that a sequence of steps determines every answer.
-/
namespace ViewRendering

structure Session where
  service : Service
  tree : FileTree

namespace Session

/-- What is done with a service. A render takes place at a moment of its own. -/
inductive Step where
  | text (request : Http.Request) (view : String) (options : Options)
      (moment : Template.Moment := .plain)
  | render (request : Http.Request) (draft : Http.Draft) (view : String) (options : Options)
      (moment : Template.Moment := .plain)
  | resolve (view : String) (locals : Dict Value)
  | write (path : String) (content : List UInt8)
  | remove (path : String)
  | clear

inductive Answer where
  | text (r : Except Failure (List Char))
  | response (r : Except Failure Http.Response)
  /-- The name of the view that was looked up. -/
  | resolved (r : Except Failure String)
  | written
  | removed
  | cleared

def withCache (s : Session) (cache : Cache Template.Compiled) : Session :=
  { s with service := { s.service with cache := cache } }

def step (s : Session) : Step → Answer × Journal × Session
  | .text request view options moment =>
    let r := (s.service.atMoment moment).renderText s.tree.files request view options
    (.text r.result, r.journal, s.withCache r.cache)
  | .render request draft view options moment =>
    let r := (s.service.atMoment moment).render s.tree.files request draft view options
    (.response r.result, r.journal, s.withCache r.cache)
  | .resolve view locals =>
    let r := s.service.resolve s.tree.files view locals
    (.resolved (r.result.map (·.name)), r.journal, s.withCache r.cache)
  | .write path content =>
    (.written, [], { s with tree := s.tree.write path content })
  | .remove path => (.removed, [], { s with tree := s.tree.remove path })
  | .clear =>
    let (service, journal) := s.service.clearCache
    (.cleared, journal, { s with service := service })

end Session

end ViewRendering
