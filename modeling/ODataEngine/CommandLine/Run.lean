import ODataEngine.CommandLine.Help
import ODataEngine.Settings.Layers
import ODataEngine.Yaml.Printer

/-!
# Calls of the program

What a call of the program prints and how it ends, given the files it can read and the variables of
its environment. Serving itself is left to the caller.
-/

namespace ODataEngine.CommandLine

/-- The end of a call: its exit code, what it prints, and the causes of a failure. -/
structure Ending where
  exit : Nat := 0
  output : String := ""
  failure : CauseChain := []

/-- The outcome of a call: it ends, or goes on to serve. -/
inductive Outcome where
  | ended (e : Ending)
  | serve (s : Settings) (service : Service)

/-- The call ends with a failure. -/
def failed (chain : CauseChain) : Outcome := .ended { exit := 1, failure := chain }

/-- The call was not understood. -/
def misused : Outcome := .ended { exit := 2 }

/-- The call ends well and prints a text. -/
def printed (text : String) : Outcome := .ended { output := text }

/-- The settings of a call. -/
def settingsOf (fileText : String → Option String) (environment : List (String × String))
    (a : Arguments) : Except SettingsError Settings := do
  let file ←
    match a.file with
    | none => .ok none
    | some path =>
      match fileText path with
      | some text => .ok (some text)
      | none => .error (.noFile path)
  let s ← Settings.load file environment
  return s.override a.port a.verbosity

/-- The settings as they are printed. -/
def settingsText (s : Settings) : String := Yaml.render (.object s.document) ++ "\n"

/-- The report on settings that a service can be built from. -/
def checkText (s : Schema) : String :=
  s!"Configuration is valid ({s.entities.length} entities, {s.collections.length} collections)\n"

/-- Does what the arguments ask for, under the settings they lead to. -/
def perform (a : Arguments) (s : Settings) : Outcome :=
  -- settings are printed even where no service can be built from them
  if a.printSettings then printed (settingsText s)
  else
    match s.service with
    | .error chain => failed chain
    | .ok service =>
      match a.command with
      | some .check => printed (checkText service.schema)
      | _ => .serve s service

/-- The outcome of a call with the given arguments. -/
def call (fileText : String → Option String) (environment : List (String × String))
    (args : List String) : Outcome :=
  match parse args with
  | none => misused
  | some (.help topic) => printed (helpText topic)
  | some .version => printed versionText
  | some (.proceed a) =>
    match settingsOf fileText environment a with
    | .error e => failed [e.message]
    | .ok s => perform a s

/-- The report on a failure: its wording, and the causes behind it. -/
def reportText (chain : CauseChain) : String :=
  match chain with
  | [] => ""
  | [message] => s!"Error: {message}\n"
  | [message, cause] => s!"Error: {message}\n\nCaused by:\n    {cause}\n"
  | message :: causes =>
    let numbered := causes.zipIdx.map fun (cause, i) => s!"    {i}: {cause}"
    linesText ([s!"Error: {message}", "", "Caused by:"] ++ numbered)

end ODataEngine.CommandLine
