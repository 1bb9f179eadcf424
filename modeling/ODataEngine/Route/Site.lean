import ODataEngine.Edm.Literal
import ODataEngine.Schema.Basic
import ODataEngine.Text.Cut

/-!
# Where a service lives

The address under which a service is reached and the links it writes: to its metadata and to single
entities.
-/

namespace ODataEngine

/-- The address of a service: scheme and authority, and the path in front of every route, empty or
beginning with a slash. -/
structure Site where
  base : String
  path : String
deriving DecidableEq

namespace Site

/-- The site of a base address and a route path, however many slashes and blanks surround them. -/
def make (base path : String) : Site :=
  let segment := Text.dropAround '/' (Text.trim path.toList)
  { base := String.ofList (Text.dropEnd '/' base.toList)
    path := if segment.isEmpty then "" else String.ofList ('/' :: segment) }

/-- The address of the service document. -/
def root (s : Site) : String := s.base ++ s.path

/-- The address of the metadata document. -/
def metadataUrl (s : Site) : String := s.root ++ "/$metadata"

/-- The address of an entity: its collection with its key in parentheses. -/
def entityUrl (s : Site) (collection : String) (e : EntityType) (r : Record) : String :=
  s!"{s.root}/{collection}({e.keyType.keyLiteral (r.valueOf e.key)})"

end Site

end ODataEngine
