import ODataEngine.Http.Message

/-!
# Cross-origin requests

Which web pages may use the service. Every method and header is allowed, and the address of a new
entity may be read.
-/

namespace ODataEngine.Http.Cors

/-- The header that allows an origin. -/
def allowOrigin : String := "access-control-allow-origin"

/-- The allowed origin, as a header: any if an asterisk is listed, else the one the request comes
from if that is listed. -/
def originHeader (origins : List String) (request : Request) : Headers :=
  if origins.contains "*" then [(allowOrigin, "*")]
  else
    match request.headers.get? "origin" with
    | some origin => if origins.contains origin then [(allowOrigin, origin)] else []
    | none => []

/-- The answer to a question for what is allowed. -/
def preflight (origins : List String) (request : Request) : Response :=
  { status := .ok
    headers := originHeader origins request ++
      [("access-control-allow-methods", "*"), ("access-control-allow-headers", "*")] }

/-- Adds to a response what web pages of other origins may see. -/
def expose (origins : List String) (request : Request) (response : Response) : Response :=
  { response with
    headers := response.headers ++ originHeader origins request ++
      [("access-control-expose-headers", "location")] }

end ODataEngine.Http.Cors
