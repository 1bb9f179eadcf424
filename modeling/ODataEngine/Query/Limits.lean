import ODataEngine.Error

/-!
# Limits

Caps on what a query may ask for, checked while its options are read.
-/

namespace ODataEngine

/-- The caps on queries. Texts are measured in bytes of their UTF-8 form. `strictExpand` refuses
names in `$expand` that are no navigation properties, which are skipped otherwise. -/
structure QueryLimits where
  maxFilterLength : Nat := 2000
  maxOrderByFields : Nat := 5
  maxSelectFields : Nat := 100
  maxTop : Option Nat := none
  strictExpand : Bool := false
deriving DecidableEq

namespace QueryLimits

/-- Refuses a `$top` above the cap, if there is one. -/
def checkTop (l : QueryLimits) (top : Nat) : Except RequestError Unit :=
  match l.maxTop with
  | some most =>
    if most < top then .error (.invalidPaging "$top" (toString top) s!"exceeds maximum of {most}")
    else .ok ()
  | none => .ok ()

/-- Refuses a `$filter` text that is too long. -/
def checkFilter (l : QueryLimits) (text : String) : Except RequestError Unit :=
  if l.maxFilterLength < text.utf8ByteSize then
    .error (.invalidFilter text
      s!"filter expression exceeds maximum length of {l.maxFilterLength} characters")
  else .ok ()

/-- Refuses too many order keys. -/
def checkOrderBy (l : QueryLimits) (text : String) (count : Nat) : Except RequestError Unit :=
  if l.maxOrderByFields < count then
    .error (.invalidOrderBy text s!"too many orderby fields (max: {l.maxOrderByFields})")
  else .ok ()

/-- Refuses too many selected fields. -/
def checkSelect (l : QueryLimits) (text : String) (count : Nat) : Except RequestError Unit :=
  if l.maxSelectFields < count then
    .error (.invalidSelect text s!"too many select fields (max: {l.maxSelectFields})")
  else .ok ()

end QueryLimits

end ODataEngine
