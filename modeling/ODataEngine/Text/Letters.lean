/-!
# Letters and case

The comparison of names that ignores case. Only the letters `A` to `Z` and `a` to `z` have a case
here: `É` and `é` are different names.
-/

namespace ODataEngine.Text

/-- The text with `A` to `Z` replaced by `a` to `z`. -/
def lower (s : List Char) : List Char := s.map Char.toLower

/-- The string with `A` to `Z` replaced by `a` to `z`. -/
def lowered (s : String) : String := String.ofList (lower s.toList)

/-- The two names agree when the case of `A` to `Z` is ignored. -/
def sameName (a b : String) : Bool := lower a.toList == lower b.toList

theorem sameName_iff {a b : String} : sameName a b = true ↔ lower a.toList = lower b.toList := by
  simp [sameName]

theorem sameName_refl (a : String) : sameName a a = true := by simp [sameName]

theorem sameName_comm (a b : String) : sameName a b = sameName b a := by
  exact BEq.comm

theorem sameName_trans {a b c : String} (hab : sameName a b = true) (hbc : sameName b c = true) :
    sameName a c = true := by
  rw [sameName_iff] at *
  exact hab.trans hbc

/-- One of `a` to `z` or `A` to `Z`. -/
def isLetter (c : Char) : Bool := c.isAlpha

/-- May begin an identifier: a letter or the underscore. -/
def isIdentifierStart (c : Char) : Bool := c.isAlpha || c == '_'

/-- May stand inside an identifier: a letter, a digit or the underscore. -/
def isIdentifierRest (c : Char) : Bool := c.isAlphanum || c == '_'

end ODataEngine.Text
