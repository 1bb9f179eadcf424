import ODataEngine.Text.Cut

/-!
# Request targets

The path and query of a request target: in origin form, which begins with a slash, in absolute form
with scheme and authority, or the asterisk. Fragments are dropped. Only the characters of a URI may
stand in a target, and such others as are commonly sent unescaped.
-/

namespace ODataEngine

/-- A request target. An authority alone has an empty path. -/
structure Uri where
  path : String
  query : Option String := none
deriving DecidableEq

namespace Uri

/-! ## Characters -/

/-- May stand in a path. -/
def isPathChar (c : Char) : Bool :=
  0x7f ≤ c.toNat || c.isAlphanum || "!\"$%&'()*+,-./:;=@[\\]^_\x7b|\x7d~".toList.contains c

/-- May stand in a query. -/
def isQueryChar (c : Char) : Bool :=
  0x21 ≤ c.toNat && c != '"' && c != '#' && c != '<' && c != '>'

/-- May stand in a scheme. -/
def isSchemeChar (c : Char) : Bool := c.isAlphanum || c == '+' || c == '-' || c == '.'

/-- May stand in an authority. -/
def isAuthorityChar (c : Char) : Bool := c.isAlphanum || "!$%&'()*+,-.:;=@[]_~".toList.contains c

/-! ## Authorities -/

/-- What has been read of an authority since the last at sign: the colons outside of brackets, the
brackets, and whether there was a percent sign. -/
structure AuthorityScan where
  colons : Nat := 0
  opened : Bool := false
  closed : Bool := false
  percent : Bool := false

/-- Reads one character of an authority. Percent signs may stand before an at sign or between
brackets only. -/
def AuthorityScan.step (a : AuthorityScan) (c : Char) : Option AuthorityScan :=
  if !isAuthorityChar c then none
  else
    match c with
    | ':' => if a.colons < 8 then some { a with colons := a.colons + 1 } else none
    | '[' => if a.percent || a.opened then none else some { a with opened := true }
    | ']' =>
      if a.opened && !a.closed then some { a with closed := true, colons := 0, percent := false }
      else none
    | '@' => some { a with colons := 0, percent := false }
    | '%' => some { a with percent := true }
    | _ => some a

/-- The text is an authority: at most one colon stands before a port, brackets are closed, and
something follows the user. -/
def isAuthority (s : List Char) : Bool :=
  match s.foldlM AuthorityScan.step {} with
  | some a => a.opened == a.closed && a.colons ≤ 1 && !a.percent && s.getLast? != some '@'
  | none => false

/-! ## Targets -/

/-- The path and query that a text spells. -/
def ofPath? (s : List Char) : Option Uri :=
  let s := s.takeWhile (· != '#')
  let (path, query) :=
    match Text.cutAtFirst '?' s with
    | some (path, query) => (path, some query)
    | none => (s, none)
  if path.all isPathChar && (query.getD []).all isQueryChar then
    some {
      path := if path.isEmpty then "/" else String.ofList path
      query := query.map String.ofList }
  else none

/-- The greatest length of a scheme. -/
def maxScheme : Nat := 64

/-- The text after the scheme of an absolute target. -/
def afterScheme? (s : List Char) : Option (List Char) :=
  let scheme := s.takeWhile isSchemeChar
  if maxScheme < scheme.length then none
  else Text.afterStart? "://".toList (s.drop scheme.length)

/-- The greatest size of a target in bytes. -/
def maxSize : Nat := 65534

/-- Reads a request target. -/
def parse (text : String) : Option Uri :=
  let s := text.toList
  if s.isEmpty || maxSize < text.utf8ByteSize then none
  else if s = ['*'] then some { path := "*" }
  else if s.head? = some '/' then ofPath? s
  else
    match afterScheme? s with
    | some rest =>
      let authority := rest.takeWhile fun c => c != '/' && c != '?' && c != '#'
      if authority.isEmpty || !isAuthority authority then none
      else ofPath? (rest.drop authority.length)
    | none => if isAuthority s then some { path := "" } else none

end Uri

end ODataEngine
