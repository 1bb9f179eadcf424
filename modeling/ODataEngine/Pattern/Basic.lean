import ODataEngine.Pattern.CharSet

/-!
# Patterns

What a pattern is made of. Sequences and choices hold lists of parts, so that a pattern can be kept
in a normal form in which neither stands inside its like. How long matches can be, and whether they
stand at an end of the text, can be told from the pattern alone.
-/

namespace ODataEngine

/-- A condition on a place. -/
inductive Pattern.Assertion where
  | textStart
  | textEnd
  | lineStart
  | lineEnd
  | lineStartCrlf
  | lineEndCrlf
  | wordBoundary
  | noWordBoundary
  | wordStart
  | wordEnd
  | wordStartHalf
  | wordEndHalf
deriving DecidableEq

/-- A pattern. `times p least most lazy` repeats `p` at least and at most so often; a lazy repetition
prefers fewer rounds, which makes no difference to whether there is a match. `group` is a numbered
group, which matches what its pattern matches. -/
inductive Pattern where
  | empty
  | literal (text : List Char)
  | one (set : Pattern.CharSet)
  | assertion (a : Pattern.Assertion)
  | times (p : Pattern) (least : Nat) (most : Option Nat) (lazy : Bool)
  | group (number : Nat) (p : Pattern)
  | sequence (parts : List Pattern)
  | choice (branches : List Pattern)

namespace Pattern

/-! ## Equality -/

mutual

/-- The two patterns are written the same way. -/
def same : Pattern → Pattern → Bool
  | empty, empty => true
  | literal s, literal t => s == t
  | one s, one t => s == t
  | assertion a, assertion b => a == b
  | times p least most lazy, times q least' most' lazy' =>
    least == least' && most == most' && lazy == lazy' && same p q
  | group n p, group m q => n == m && same p q
  | sequence ps, sequence qs => sameAll ps qs
  | choice ps, choice qs => sameAll ps qs
  | _, _ => false

/-- The two lists of patterns are written the same way. -/
def sameAll : List Pattern → List Pattern → Bool
  | [], [] => true
  | p :: ps, q :: qs => same p q && sameAll ps qs
  | _, _ => false

end

/-! ## Lengths of matches -/

mutual

/-- No match takes a character. -/
def takesNothing : Pattern → Bool
  | empty => true
  | literal text => text.isEmpty
  | one _ => false
  | assertion _ => true
  | times p _ most _ => most.isSome && takesNothing p
  | group _ p => takesNothing p
  | sequence ps => allTakeNothing ps
  | choice ps => allTakeNothing ps

/-- No match of any of the patterns takes a character. -/
def allTakeNothing : List Pattern → Bool
  | [] => true
  | p :: ps => takesNothing p && allTakeNothing ps

end

/-! ## Anchors -/

mutual

/-- Every match begins with the assertion, as far as the outline of the pattern tells. -/
def beginsWith (a : Assertion) : Pattern → Bool
  | assertion b => a == b
  | times p least _ _ => 0 < least && beginsWith a p
  | group _ p => beginsWith a p
  | sequence ps => anyBeginsWith a ps
  | choice ps => allBeginWith a ps
  | _ => false

/-- One of the patterns begins with the assertion, and those before it take nothing. -/
def anyBeginsWith (a : Assertion) : List Pattern → Bool
  | [] => false
  | p :: ps => beginsWith a p || (takesNothing p && anyBeginsWith a ps)

/-- All of the patterns begin with the assertion. -/
def allBeginWith (a : Assertion) : List Pattern → Bool
  | [] => true
  | p :: ps => beginsWith a p && allBeginWith a ps

end

mutual

/-- Every match ends with the assertion, as far as the outline of the pattern tells. -/
def endsWith (a : Assertion) : Pattern → Bool
  | assertion b => a == b
  | times p least _ _ => 0 < least && endsWith a p
  | group _ p => endsWith a p
  | sequence ps => anyEndsWith a ps
  | choice ps => allEndWith a ps
  | _ => false

/-- One of the patterns ends with the assertion, and those after it take nothing. -/
def anyEndsWith (a : Assertion) : List Pattern → Bool
  | [] => false
  | p :: ps => anyEndsWith a ps || (endsWith a p && allTakeNothing ps)

/-- All of the patterns end with the assertion. -/
def allEndWith (a : Assertion) : List Pattern → Bool
  | [] => true
  | p :: ps => endsWith a p && allEndWith a ps

end

end Pattern

end ODataEngine
