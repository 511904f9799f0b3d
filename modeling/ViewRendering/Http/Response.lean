import ViewRendering.Http.Header

/-!
Responses, and the heads they are made from. A head with a fault in it stays faulty
until a response is made of it.
-/
namespace ViewRendering.Http

structure Head where
  status : Int := 200
  headers : Headers := []
deriving DecidableEq, Repr

/-- A head, or the first thing that is wrong with it. -/
abbrev Draft := Except Fault Head

namespace Head

def build (status? : Option Int) (headers : List (String × List UInt8)) : Draft := do
  let status := status?.getD 200
  if status < 100 ∨ 1000 ≤ status then .error .status
  let hs ← Headers.build headers
  return ⟨status, hs⟩

end Head

structure Response where
  head : Head
  body : List UInt8
deriving DecidableEq, Repr

end ViewRendering.Http
