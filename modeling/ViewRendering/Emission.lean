import ViewRendering.ContentType
import ViewRendering.Decimal.Layout
import ViewRendering.Failure
import ViewRendering.Http.Response

/-!
Putting a page into a response. The media type declares UTF-8, the length is that of
the page in octets, and everything else of the head stays as it is. A head that is
faulty already makes no response, nor would a media type that no header field can hold.
-/
namespace ViewRendering.Emission

def typeName : String := "content-type"

def lengthName : String := "content-length"

def octets (s : List Char) : List UInt8 := Text.Utf8.encode s

def declaredType (draft : Http.Draft) : Option (List Char) :=
  match draft with
  | .error _ => none
  | .ok head => (head.headers.first? typeName).bind Http.Header.visibleText?

def typeField (type : List Char) : Except Http.Fault Http.Header :=
  Http.Header.make typeName (octets type)

def framed (head : Http.Head) (type : Http.Header) (length : Nat) : Http.Head :=
  { head with
    headers := (head.headers.set type).set ⟨lengthName, octets (Decimal.digitsOf length)⟩ }

def emit (draft : Http.Draft) (page : List Char) : Except Failure Http.Response × Journal :=
  let (type, journal) := ContentType.withCharset (declaredType draft)
  match typeField type with
  | .error fault => (.error (.response fault), journal)
  | .ok field =>
    let body := octets page
    let journal := journal ++
      [Journal.debug .response s!"Emitting response ({body.length} bytes)"]
    match draft with
    | .error fault => (.error (.response fault), journal)
    | .ok head => (.ok ⟨framed head field body.length, body⟩, journal)

end ViewRendering.Emission
