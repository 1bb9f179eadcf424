import ODataEngine.CommandLine.Arguments

/-!
# Help

The texts that explain how the program is called.
-/

namespace ODataEngine.CommandLine

/-- The name of the program. -/
def programName : String := "odata-server"

/-- The name and version of the program. -/
def versionText : String := s!"{programName} 0.2.8\n"

/-- The lines of a text, each with its end. -/
def linesText (lines : List String) : String := "".intercalate (lines.map fun l => l ++ "\n")

/-- How the program is called. -/
def programHelp : String := linesText
  ["OData Server - typed collections over an OData-style REST protocol",
    "",
    "Usage: odata-server [OPTIONS] [COMMAND]",
    "",
    "Commands:",
    "  run    Start the server",
    "  check  Validate configuration and schema, then exit",
    "  help   Print this message or the help of the given subcommand(s)",
    "",
    "Options:",
    "  -c, --config <CONFIG>  Path to configuration file",
    "  -p, --port <PORT>      Port override for HTTP server (overrides config)",
    "      --print-config     Print effective configuration (YAML) and exit",
    "  -v, --verbose...       Log verbosity level (-v info, -vv debug, -vvv trace)",
    "  -h, --help             Print help",
    "  -V, --version          Print version"]

/-- How a command without options of its own is called. -/
def commandHelp (about name : String) : String := linesText
  [about, "", s!"Usage: odata-server {name}", "", "Options:", "  -h, --help  Print help"]

/-- The text about a topic. -/
def helpText : Topic → String
  | .program => programHelp
  | .run => commandHelp "Start the server" "run"
  | .check => commandHelp "Validate configuration and schema, then exit" "check"
  | .help => linesText
    ["Print this message or the help of the given subcommand(s)",
      "",
      "Usage: odata-server help [COMMAND]...",
      "",
      "Arguments:",
      "  [COMMAND]...  Print help for the subcommand(s)"]

end ODataEngine.CommandLine
