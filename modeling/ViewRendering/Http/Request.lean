import ViewRendering.Http.Header
import ViewRendering.Http.Uri
import ViewRendering.Value

/-!
Requests, and what templates see of them: method, target, path, query, and the headers
by name. The values of a header that occurs more than once are joined in their order.
-/
namespace ViewRendering.Http

structure Request where
  method : String
  uri : Uri
  headers : Headers

namespace Request

/-- A request from its parts; of several faults the first in the order method, target, headers
counts. -/
def build (method uri : String) (headers : List (String × List UInt8)) : Except Fault Request := do
  if !isToken method.toList then .error .method
  let u ← Uri.parse uri.toList
  let hs ← Headers.build headers
  return ⟨method, u, hs⟩

def addValue (d : Dict Value) (h : Header) : Dict Value :=
  match Dict.lookup d h.name with
  | some (.text s) => Dict.insert d h.name (.text (s ++ ", " ++ String.ofList h.text))
  | _ => Dict.insert d h.name (.ofChars h.text)

def headerTexts (hs : Headers) : Dict Value := hs.foldl addValue []

def snapshot (r : Request) : Value :=
  .record (Dict.ofList
    [("method", .text r.method), ("uri", .ofChars r.uri.text), ("path", .ofChars r.uri.path),
     ("query", .ofChars (r.uri.query.getD [])), ("headers", .record (headerTexts r.headers))])

end Request

end ViewRendering.Http
