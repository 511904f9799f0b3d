import ViewRendering.Template.Functions
import ViewRendering.Template.Testers

/-!
What the engine of the template language brings along besides what is defined here, as a
parameter of every rendering. Its functions `now`, `get_random` and `get_env` answer by the
clock, by chance and by the surroundings of the program. Of its filters, those that cut a given
text off (`trim_start_matches`, `trim_end_matches`, `truncate`), those for other formats
(`indent`, `striptags`, `spaceless`, `urlencode`, `urlencode_strict`, `escape_xml`, `slugify`,
`filesizeformat`, `date`) and `group_by` are not defined here, and of its tests `matching` is
not. Nor is it settled in which order the engine looks at the arguments of a call: the table
that holds them has no order of its own.
-/
namespace ViewRendering.Template

/-- What differs from one rendering to the next. Within one rendering a function answers the same
arguments alike. -/
structure Moment where
  functions : Dict Function := []
  /-- The arguments of a call in the order in which the engine looks at them. -/
  order : List (String × Result Value) → List (String × Result Value)
  order_perm : ∀ results, (order results).Perm results

structure Engine extends Moment where
  filters : Dict Filter := []
  testers : Dict Tester := []

/-- Nothing beyond what is defined here; arguments are looked at one after another. -/
def Moment.plain : Moment where
  order := id
  order_perm := List.Perm.refl

def Engine.plain : Engine where
  toMoment := .plain

namespace Engine

def allValues : List (String × Result Value) → Result (Dict Value)
  | [] => .ok []
  | (k, r) :: rest => do
    let v ← r
    let more ← allValues rest
    return more.insert k v

/-- The values of the arguments of a call, or the fault that the engine comes to first. -/
def gather (g : Engine) (results : List (String × Result Value)) : Result (Dict Value) :=
  allValues (g.order results)

end Engine

end ViewRendering.Template
