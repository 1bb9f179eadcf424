import ODataEngine.Query.LimitsDocument
import ODataEngine.Service.Basic
import ODataEngine.Settings.SchemaSection
import ODataEngine.Settings.SocketAddress

/-!
# Settings

All settings of a server: where it listens and is reached, what it logs, the caps on queries, and
the schema it serves.
-/

namespace ODataEngine

/-- How log lines are written. -/
inductive LogFormat where
  | text
  | json
deriving DecidableEq

/-- The word for a log format. -/
def LogFormat.word : LogFormat → String
  | text => "text"
  | json => "json"

/-- The words for log formats. -/
def LogFormat.words : List (String × LogFormat) := [("text", .text), ("json", .json)]

/-- Where the server listens, under which address it is reached, and which web pages may use it. -/
structure ServerSection where
  listen : SocketAddress := { host := .v4 [127, 0, 0, 1], port := 8087 }
  base : String := "http://localhost:8087"
  path : String := "/odata"
  origins : List String := []

/-- What is logged, and how. -/
structure LoggingSection where
  level : String := "info"
  format : LogFormat := .text

/-- The settings of a server. -/
structure Settings where
  server : ServerSection := {}
  logging : LoggingSection := {}
  limits : QueryLimits := {}
  schema : SchemaSection := {}

/-! ## Documents -/

namespace ServerSection

/-- Reads the address to listen on. -/
def listen? (v : Setting) : Option SocketAddress := (Shape.text? v).bind SocketAddress.parse

/-- Reads a server section. -/
def ofSetting? (v : Setting) : Option ServerSection := do
  let r ← Shape.members? .lenient ["bind_addr", "base_url", "route_prefix", "cors_origins"] v
  let usual : ServerSection := {}
  let listen ← Shape.optional r "bind_addr" usual.listen listen?
  let base ← Shape.optional r "base_url" usual.base Shape.text?
  let path ← Shape.optional r "route_prefix" usual.path Shape.text?
  let origins ← Shape.optional r "cors_origins" usual.origins (Shape.list? Shape.text?)
  return { listen, base, path, origins }

/-- The document of a server section. -/
def document (s : ServerSection) : Json :=
  .object
    [("bind_addr", .string s.listen.text), ("base_url", .string s.base),
      ("route_prefix", .string s.path), ("cors_origins", .ofStrings s.origins)]

end ServerSection

namespace LoggingSection

/-- Reads a logging section. -/
def ofSetting? (v : Setting) : Option LoggingSection := do
  let r ← Shape.members? .lenient ["level", "format"] v
  let usual : LoggingSection := {}
  let level ← Shape.optional r "level" usual.level Shape.text?
  let format ← Shape.optional r "format" usual.format (Shape.choice? .lenient LogFormat.words)
  return { level, format }

/-- The document of a logging section. -/
def document (l : LoggingSection) : Json :=
  .object [("level", .string l.level), ("format", .string l.format.word)]

end LoggingSection

namespace Settings

/-- Reads settings. Sections of other names are for others. -/
def ofMembers? (r : List (String × Setting)) : Option Settings := do
  let server ← Shape.optional r "server" {} ServerSection.ofSetting?
  let logging ← Shape.optional r "logging" {} LoggingSection.ofSetting?
  let limits ← Shape.optional r "query" {} (QueryLimits.ofSetting? .lenient)
  let schema ← Shape.optional r "schema" {} (SchemaSection.ofSetting? .lenient)
  return { server, logging, limits, schema }

/-- The document of some settings. -/
def document (s : Settings) : Record :=
  [("server", s.server.document), ("logging", s.logging.document), ("query", s.limits.document),
    ("schema", s.schema.document)]

/-! ## Overrides -/

/-- The settings with another port to listen on. -/
def withPort (s : Settings) (port : Nat) : Settings :=
  { s with server := { s.server with listen := { s.server.listen with port := port } } }

/-- The log level that a count of verbosity asks for. -/
def levelOf? : Nat → Option String
  | 0 => none
  | 1 => some "info"
  | 2 => some "debug"
  | _ => some "trace"

/-- The settings with the log level of a count of verbosity. -/
def withVerbosity (s : Settings) (count : Nat) : Settings :=
  match levelOf? count with
  | some level => { s with logging := { s.logging with level := level } }
  | none => s

/-- The settings with what the command line overrides. -/
def override (s : Settings) (port : Option Nat) (verbosity : Nat) : Settings :=
  let s :=
    match port with
    | some port => s.withPort port
    | none => s
  s.withVerbosity verbosity

/-! ## The service -/

/-- The site of the service. -/
def site (s : Settings) : Site := Site.make s.server.base s.server.path

/-- The service that the settings describe. It has no operations. -/
def service (s : Settings) : Except CauseChain Service := do
  let (schema, stores) ← s.schema.build
  return {
    schema, stores
    site := s.site
    limits := s.limits
    handlers := fun name _ => .error [s!"no operation is handled by '{name}'"] }

end Settings

end ODataEngine
