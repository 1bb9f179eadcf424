import ODataEngine.Http.Cors
import ODataEngine.Http.Problem
import ODataEngine.Json.Parser
import ODataEngine.Service.Answer
import ODataEngine.Text.Bytes

/-!
# Responses

A service over HTTP: bodies are read as JSON, outcomes become response messages, and failures
problem documents. With a list of origins, web pages of these may use the service.
-/

namespace ODataEngine.Http

/-! ## Bodies -/

/-- A blank of ASCII. -/
def isBlankByte (b : UInt8) : Bool := b == 0x20 || b == 0x09 || b == 0x0a || b == 0x0c || b == 0x0d

/-- What is wrong with a body that is no JSON. -/
def malformedBody : RequestError := .invalidBody "malformed JSON: not a JSON text in UTF-8"

/-- The value in a body; a body of blanks has none. -/
def readBody (bytes : List UInt8) : Except RequestError (Option Json) :=
  if bytes.all isBlankByte then .ok none
  else
    match (Text.decode? bytes).bind Json.parse with
    | some v => .ok (some v)
    | none => .error malformedBody

/-! ## Responses -/

/-- The media type of problem documents. -/
def problemType : String := "application/problem+json"

/-- The media type of other JSON documents. -/
def jsonType : String := "application/json;odata.metadata=minimal"

/-- The media type of texts. -/
def textType : String := "text/plain; charset=utf-8"

/-- The message of a problem. -/
def problemResponse (p : Problem) : Response :=
  { status := p.status, headers := [("content-type", problemType)], body := p.document.render }

/-- The media type and the body of a payload. -/
def payloadParts : Payload → Headers × String
  | .json v => ([("content-type", jsonType)], v.render)
  | .text s => ([("content-type", textType)], s)
  | .empty => ([], "")

/-- The header with the address of a new entity, unless it cannot stand in one. -/
def locationHeader (location : Option String) : Headers :=
  match location with
  | some l => if isHeaderValue l then [("location", l)] else []
  | none => []

/-- The message of a response. -/
def serviceResponse (r : ODataEngine.Response) : Response :=
  let (type, body) := payloadParts r.payload
  { status := r.status
    headers := type ++ [("odata-version", Metadata.version)] ++ locationHeader r.location
    body := body }

/-! ## Requests -/

/-- The outcome of a request message on a service. -/
def outcome (sv : Service) (fresh : String) (request : Request) : Outcome :=
  sv.attempt (readBody request.body) fun body =>
    sv.answer fresh
      { method := request.method, path := request.uri.path, query := request.uri.query.getD ""
        body := body }

/-- The message of an outcome; `trace` names the request in problem documents. -/
def outcomeResponse (request : Request) (trace : Option String) :
    Except RequestError ODataEngine.Response → Response
  | .ok r => serviceResponse r
  | .error e => problemResponse (Problem.ofError e request.uri.path trace)

/-- The response without its body, where the request asks for the head alone. -/
def headOnly (request : Request) (r : Response) : Response :=
  if request.method = "HEAD" then { r with body := "" } else r

/-- Responds to a request message: the response and the stores after it. -/
def respond (sv : Service) (origins : List String) (fresh : String) (trace : Option String)
    (request : Request) : Response × Stores :=
  if !origins.isEmpty && request.method == "OPTIONS" then
    -- such a request does not reach the service
    (Cors.preflight origins request, sv.stores)
  else
    let (result, stores) := outcome sv fresh request
    let response := headOnly request (outcomeResponse request trace result)
    (if origins.isEmpty then response else Cors.expose origins request response, stores)

end ODataEngine.Http
