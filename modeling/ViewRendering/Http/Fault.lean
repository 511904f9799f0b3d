/-!
What can be wrong with the parts of a request or a response.
-/
namespace ViewRendering.Http

inductive Fault where
  | method
  | uriCharacter
  | uriEmpty
  | uriFormat
  | uriScheme
  | uriSchemeTooLong
  | uriAuthority
  | uriTooLong
  | headerName
  | headerValue
  | status
deriving DecidableEq, Repr

def Fault.message : Fault → String
  | .method => "invalid HTTP method"
  | .uriCharacter => "invalid uri character"
  | .uriEmpty => "empty string"
  | .uriFormat => "invalid format"
  | .uriScheme => "invalid scheme"
  | .uriSchemeTooLong => "scheme too long"
  | .uriAuthority => "invalid authority"
  | .uriTooLong => "uri too long"
  | .headerName => "invalid HTTP header name"
  | .headerValue => "failed to parse header value"
  | .status => "invalid status code"

end ViewRendering.Http
