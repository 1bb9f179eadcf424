import ODataEngine.CommandLine.Run

/-!
# The program

Reads the arguments, the settings file and the environment, and prints what the call comes to.
-/

namespace ODataEngine.Program

/-- The text of a file, if there is such a file. -/
def readFile (path : String) : IO (Option String) := do
  try return some (← IO.FS.readFile path)
  catch _ => return none

/-- The variables of the environment. -/
def environment : IO (List (String × String)) := do
  let text := (← readFile "/proc/self/environ").getD ""
  return (Text.splitAt '\x00' text.toList).filterMap fun entry =>
    (Text.cutAtFirst '=' entry).map fun (name, value) =>
      (String.ofList name, String.ofList value)

/-- The settings file that the arguments name, with its text. -/
def fileOf (args : List String) : IO (Option (String × String)) := do
  match CommandLine.parse args with
  | some (.proceed a) =>
    match a.file with
    | some path => return (← readFile path).map fun text => (path, text)
    | none => return none
  | _ => return none

/-- Runs the program. -/
def run (args : List String) : IO UInt32 := do
  let file ← fileOf args
  let known (path : String) : Option String :=
    match file with
    | some (name, text) => if name = path then some text else none
    | none => none
  match CommandLine.call known (← environment) args with
  | .ended e =>
    IO.print e.output
    IO.eprint (CommandLine.reportText e.failure)
    if e.exit = 2 then IO.eprint CommandLine.programHelp
    return e.exit.toUInt32
  | .serve s _ =>
    IO.eprint (CommandLine.reportText [s!"no transport to listen on {s.server.listen.text}"])
    return 1

end ODataEngine.Program

/-- Runs the program with its arguments. -/
def main (args : List String) : IO UInt32 := ODataEngine.Program.run args
