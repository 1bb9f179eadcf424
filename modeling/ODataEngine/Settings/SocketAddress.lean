import ODataEngine.Text.Cut
import ODataEngine.Text.Percent

/-!
# Socket addresses

An address of the internet protocol, of version 4 or 6, with a port. Addresses of version 6 stand in
brackets, and the longest run of zero groups is left out when they are written.
-/

namespace ODataEngine

/-- An internet address: four octets, or eight groups of sixteen bits with a scope. -/
inductive Host where
  | v4 (octets : List Nat)
  | v6 (groups : List Nat) (scope : Nat)
deriving DecidableEq

/-- An internet address with a port. -/
structure SocketAddress where
  host : Host
  port : Nat
deriving DecidableEq

namespace SocketAddress

/-! ## Numbers -/

/-- The value of some digits. -/
def valueOf (base : Nat) (digits : List Nat) : Nat := digits.foldl (fun n d => n * base + d) 0

/-- The digits at the start of a text and what follows them. -/
def digitsOf (base : Nat) : List Char → List Nat × List Char
  | [] => ([], [])
  | c :: rest =>
    match Text.hexDigit? c with
    | some d =>
      if d < base then
        let (ds, rest) := digitsOf base rest
        (d :: ds, rest)
      else ([], c :: rest)
    | none => ([], c :: rest)

/-- Reads a decimal number below a bound. -/
def readBelow? (bound : Nat) (s : List Char) : Option (Nat × List Char) :=
  let (ds, rest) := digitsOf 10 s
  if ds.isEmpty || bound ≤ valueOf 10 ds then none else some (valueOf 10 ds, rest)

/-- Reads an octet: up to three digits without a leading zero. -/
def readOctet? (s : List Char) : Option (Nat × List Char) :=
  let (ds, _) := digitsOf 10 s
  if 3 < ds.length || (1 < ds.length && ds.head? = some 0) then none else readBelow? 256 s

/-- Reads a group: up to four hexadecimal digits. -/
def readGroup? (s : List Char) : Option (Nat × List Char) :=
  let (ds, rest) := digitsOf 16 s
  if ds.isEmpty || 4 < ds.length then none else some (valueOf 16 ds, rest)

/-- Takes off a character. -/
def expect? (c : Char) (s : List Char) : Option (List Char) := Text.afterStart? [c] s

/-! ## Addresses -/

/-- Reads four octets between points. -/
def readV4? (s : List Char) : Option (List Nat × List Char) := do
  let (a, s) ← readOctet? s
  let (b, s) ← readOctet? (← expect? '.' s)
  let (c, s) ← readOctet? (← expect? '.' s)
  let (d, s) ← readOctet? (← expect? '.' s)
  return ([a, b, c, d], s)

/-- Reads up to so many groups between colons, the first of them not after a colon if `first`. The
last two may be written as four octets; the flag tells whether they are. -/
def readGroups (first : Bool) : Nat → List Char → List Nat × Bool × List Char
  | 0, s => ([], false, s)
  | limit + 1, s =>
    match if first then some s else expect? ':' s with
    | none => ([], false, s)
    | some body =>
      -- four octets take the room of two groups
      match if 0 < limit then readV4? body else none with
      | some ([a, b, c, d], rest) => ([a * 256 + b, c * 256 + d], true, rest)
      | _ =>
        match readGroup? body with
        | none => ([], false, s)
        | some (g, rest) =>
          let (gs, v4, rest) := readGroups false limit rest
          (g :: gs, v4, rest)

/-- Reads eight groups, of which a run of zeros may be left out between two colons. -/
def readV6? (s : List Char) : Option (List Nat × List Char) :=
  let (head, v4, rest) := readGroups true 8 s
  if head.length = 8 then some (head, rest)
  else if v4 then none
  else
    match Text.afterStart? "::".toList rest with
    | none => none
    | some rest =>
      -- the gap stands for one group at least
      let (tail, _, rest) := readGroups true (7 - head.length) rest
      some (head ++ List.replicate (8 - head.length - tail.length) 0 ++ tail, rest)

/-- Reads the scope of an address, zero if there is none. -/
def readScope (s : List Char) : Nat × List Char :=
  match (expect? '%' s).bind (readBelow? (Nat.pow 2 32)) with
  | some found => found
  | none => (0, s)

/-- Reads a port after a colon, which must end the text. -/
def readPort? (s : List Char) : Option Nat :=
  match (expect? ':' s).bind (readBelow? (Nat.pow 2 16)) with
  | some (port, []) => some port
  | _ => none

/-- Reads a socket address. -/
def parse (text : String) : Option SocketAddress :=
  match text.toList with
  | '[' :: s => do
    let (groups, s) ← readV6? s
    let (scope, s) := readScope s
    let port ← readPort? (← expect? ']' s)
    return { host := .v6 groups scope, port := port }
  | s => do
    let (octets, s) ← readV4? s
    let port ← readPort? s
    return { host := .v4 octets, port := port }

/-! ## Texts -/

/-- The octets of an address between points. -/
def octetsText (octets : List Nat) : String := ".".intercalate (octets.map toString)

/-- A group in hexadecimal digits. -/
def groupText (n : Nat) : String := String.ofList (Nat.toDigits 16 n)

/-- How many zeros a list begins with. -/
def leadingZeros (groups : List Nat) : Nat := (groups.takeWhile (· == 0)).length

/-- The longest run of zeros, as its start and length; the first of the longest ones. -/
def longestZeros : Nat → List Nat → Nat × Nat
  | _, [] => (0, 0)
  | start, g :: rest =>
    let here := leadingZeros (g :: rest)
    let later := longestZeros (start + 1) rest
    if here = 0 || here < later.2 then later else (start, here)

/-- Groups between colons. -/
def groupsText (groups : List Nat) : String := ":".intercalate (groups.map groupText)

/-- The text of eight groups: the longest run of at least two zeros is left out. An address of
version 4 inside one of version 6 is written with points. -/
def v6Text (groups : List Nat) : String :=
  match groups with
  | [0, 0, 0, 0, 0, 0xffff, g, h] =>
    "::ffff:" ++ octetsText [g / 256, g % 256, h / 256, h % 256]
  | groups =>
    let (start, length) := longestZeros 0 groups
    if length < 2 then groupsText groups
    else groupsText (groups.take start) ++ "::" ++ groupsText (groups.drop (start + length))

/-- The text of a socket address. -/
def text (a : SocketAddress) : String :=
  match a.host with
  | .v4 octets => s!"{octetsText octets}:{a.port}"
  | .v6 groups scope =>
    let zone := if scope = 0 then "" else s!"%{scope}"
    s!"[{v6Text groups}{zone}]:{a.port}"

end SocketAddress

end ODataEngine
