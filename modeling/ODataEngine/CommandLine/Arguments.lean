import ODataEngine.Text.Cut

/-!
# Arguments

Reads the arguments of the command line in their order. The value of an option that stands in an
argument of its own is read when the next option begins or all arguments are done, so that a
request for help that comes first is answered.
-/

namespace ODataEngine.CommandLine

/-- What the program does after it has read its settings. -/
inductive Command where
  | run
  | check
deriving DecidableEq

/-- What help is about. -/
inductive Topic where
  | program
  | run
  | check
  | help
deriving DecidableEq

/-- The arguments of a call. -/
structure Arguments where
  file : Option String := none
  port : Option Nat := none
  printSettings : Bool := false
  verbosity : Nat := 0
  command : Option Command := none
deriving DecidableEq

/-- What a call asks for. -/
inductive Call where
  | proceed (a : Arguments)
  | help (topic : Topic)
  | version
deriving DecidableEq

/-! ## Options -/

/-- An option that takes a value. -/
inductive ValueOption where
  | config
  | port
deriving DecidableEq

/-- An option that takes none. -/
inductive FlagOption where
  | printSettings
  | verbose
  | help
  | version
deriving DecidableEq

/-- An option. -/
inductive AnyOption where
  | value (o : ValueOption)
  | flag (o : FlagOption)
deriving DecidableEq

/-- The options by their long names. -/
def longOptions : List (String × AnyOption) :=
  [("config", .value .config), ("port", .value .port), ("print-config", .flag .printSettings),
    ("verbose", .flag .verbose), ("help", .flag .help), ("version", .flag .version)]

/-- The options by their letters. -/
def shortOptions : List (Char × AnyOption) :=
  [('c', .value .config), ('p', .value .port), ('v', .flag .verbose), ('h', .flag .help),
    ('V', .flag .version)]

/-- The port that a text spells: an integer of 16 bits, with or without a sign. -/
def readPort? (text : String) : Option Nat :=
  let (negative, digits) :=
    match text.toList with
    | '-' :: rest => (true, rest)
    | '+' :: rest => (false, rest)
    | s => (false, s)
  if digits.isEmpty || !digits.all Char.isDigit then none
  else
    let n := digits.foldl (fun n c => n * 10 + (c.toNat - '0'.toNat)) 0
    if n = 0 || (!negative && n < Nat.pow 2 16) then some n else none

/-- Sets an option to a value. No option may be given twice, and no path may be empty. -/
def setValue (a : Arguments) (o : ValueOption) (text : String) : Option Arguments :=
  match o with
  | .config => if a.file.isSome || text.isEmpty then none else some { a with file := some text }
  | .port =>
    if a.port.isSome then none else (readPort? text).map fun port => { a with port := some port }

/-! ## Reading -/

/-- The arguments read so far. The option before may still wait for its value, or have one that is
not read yet. -/
structure Progress where
  arguments : Arguments := {}
  waiting : Option ValueOption := none
  unread : Option (ValueOption × String) := none

/-- Reads the value that is not read yet; an option that still waits for one has none. -/
def Progress.settle (p : Progress) : Option Progress :=
  match p.waiting, p.unread with
  | some _, _ => none
  | none, some (o, text) => (setValue p.arguments o text).map fun a => { arguments := a }
  | none, none => some p

/-- How reading goes on after an argument. -/
inductive Step where
  | next (p : Progress)
  | stop (c : Call)

/-- Takes a flag into account. -/
def takeFlag (p : Progress) (o : FlagOption) : Option Step := do
  let p ← p.settle
  match o with
  | .help => return .stop (.help .program)
  | .version => return .stop .version
  | .verbose =>
    let most := 255
    return .next { arguments := { p.arguments with
      verbosity := min most (p.arguments.verbosity + 1) } }
  | .printSettings =>
    if p.arguments.printSettings then none
    else return .next { arguments := { p.arguments with printSettings := true } }

/-- Takes an option with its value into account, or lets it wait for one. -/
def takeOption (p : Progress) (o : ValueOption) (text : Option String) : Option Step := do
  let p ← p.settle
  match text with
  | some text => return .next { arguments := ← setValue p.arguments o text }
  | none => return .next { p with waiting := some o }

/-- Reads a long option, after its two hyphens. -/
def readLong (p : Progress) (s : List Char) : Option Step :=
  let (name, value) :=
    match Text.cutAtFirst '=' s with
    | some (name, value) => (name, some (String.ofList value))
    | none => (s, none)
  match longOptions.lookup (String.ofList name), value with
  | some (.value o), value => takeOption p o value
  | some (.flag o), none => takeFlag p o
  | _, _ => none

/-- Reads the letters after a hyphen. The first option with a value takes the rest as that, without
an equals sign before it. -/
def readLetters (p : Progress) : List Char → Option Step
  | [] => some (.next p)
  | c :: rest =>
    match shortOptions.lookup c with
    | some (.flag o) =>
      match takeFlag p o with
      | some (.next p) => readLetters p rest
      | other => other
    | some (.value o) =>
      match rest with
      | [] => takeOption p o none
      | '=' :: value => takeOption p o (some (String.ofList value))
      | value => takeOption p o (some (String.ofList value))
    | none => none

/-- Only help may be asked for behind a command. -/
def readBehind (topic : Topic) : List String → Option (Option Call)
  | [] => some none
  | ["--"] => some none
  | arg :: _ =>
    match arg.toList with
    | '-' :: 'h' :: _ => some (some (.help topic))
    | s => if s = "--help".toList then some (some (.help topic)) else none

/-- The topic that the arguments of a request for help name. -/
def topicOf : List String → Option Topic
  | [] => some .program
  | ["run"] => some .run
  | ["check"] => some .check
  | ["help"] => some .help
  | _ => none

/-- The outcome of reading all arguments. -/
def finish (p : Progress) (command : Option Command) : Option Call := do
  let p ← p.settle
  return .proceed { p.arguments with command := command }

/-- Reads what follows a command. -/
def readCommand (p : Progress) (command : Command) (topic : Topic) (rest : List String) :
    Option Call := do
  match ← readBehind topic rest with
  | some call => return call
  | none => finish p (some command)

/-- Reads an argument that is no option: a command, and all that follows it. -/
def readWord (p : Progress) (word : String) (rest : List String) : Option Call :=
  match word with
  | "run" => readCommand p .run .run rest
  | "check" => readCommand p .check .check rest
  | "help" => (topicOf rest).map .help
  | _ => none

/-- Reads the remaining arguments. -/
def readAll (p : Progress) : List String → Option Call
  | [] => finish p none
  | arg :: rest =>
    let goOn (step : Option Step) : Option Call :=
      match step with
      | some (.next p) => readAll p rest
      | some (.stop call) => some call
      | none => none
    match arg.toList with
    | ['-', '-'] => if rest.isEmpty then finish p none else none
    | '-' :: '-' :: s => goOn (readLong p s)
    | '-' :: c :: s => goOn (readLetters p (c :: s))
    | _ =>
      -- a word is the value that an option waits for, or else a command
      match p.waiting with
      | some o => goOn (some (.next { arguments := p.arguments, unread := some (o, arg) }))
      | none => readWord p arg rest

/-- What the arguments of a call ask for, nothing if they are faulty. -/
def parse (args : List String) : Option Call := readAll {} args

end ODataEngine.CommandLine
