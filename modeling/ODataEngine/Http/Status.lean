/-!
# Status codes

The status codes of responses, with their numbers and reason phrases.
-/

namespace ODataEngine

/-- The status of a response. -/
inductive Status where
  | ok
  | created
  | noContent
  | badRequest
  | notFound
  | conflict
  | internalServerError
deriving DecidableEq

namespace Status

/-- The number of a status. -/
def code : Status → Nat
  | ok => 200
  | created => 201
  | noContent => 204
  | badRequest => 400
  | notFound => 404
  | conflict => 409
  | internalServerError => 500

/-- The reason phrase of a status. -/
def reason : Status → String
  | ok => "OK"
  | created => "Created"
  | noContent => "No Content"
  | badRequest => "Bad Request"
  | notFound => "Not Found"
  | conflict => "Conflict"
  | internalServerError => "Internal Server Error"

/-- The failure is the server's own. -/
def isServerError (s : Status) : Bool := 500 ≤ s.code

end Status

end ODataEngine
