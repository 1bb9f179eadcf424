import ODataEngine.Http.Status
import ODataEngine.Http.Uri
import ODataEngine.Text.Letters

/-!
# Messages

Requests and responses as they travel: with methods, headers and bodies of bytes and text.
-/

namespace ODataEngine.Http

/-- May stand in a method or in the name of a header. -/
def isTokenChar (c : Char) : Bool := c.isAlphanum || "!#$%&'*+-.^_`|~".toList.contains c

/-- The text is a token. -/
def isToken (s : String) : Bool := !s.toList.isEmpty && s.toList.all isTokenChar

/-- May stand in the value of a header: anything but control characters, of which the tab may. -/
def isHeaderChar (c : Char) : Bool := c == '\t' || (0x20 ≤ c.toNat && c != '\x7f')

/-- The text may be the value of a header. -/
def isHeaderValue (s : String) : Bool := s.toList.all isHeaderChar

/-- The headers of a message, in order. -/
abbrev Headers := List (String × String)

/-- The first value of a header; names are the same in any case. -/
def Headers.get? (h : Headers) (name : String) : Option String :=
  (h.find? fun (n, _) => Text.sameName n name).map (·.2)

/-- A request message. -/
structure Request where
  method : String
  uri : Uri
  headers : Headers := []
  body : List UInt8 := []

/-- The request with the given parts, if they may stand in one. -/
def Request.make? (method target : String) (headers : Headers) (body : List UInt8) :
    Option Request :=
  if isToken method && headers.all fun (name, value) => isToken name && isHeaderValue value then
    (Uri.parse target).map fun uri =>
      { method := method, uri := uri, headers := headers, body := body }
  else none

/-- A response message. -/
structure Response where
  status : Status
  headers : Headers := []
  body : String := ""

end ODataEngine.Http
