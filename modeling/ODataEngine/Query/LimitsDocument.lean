import ODataEngine.Query.Limits
import ODataEngine.Settings.Shape

/-!
# Limits as a document

The caps on queries as they stand in JSON and among the settings.
-/

namespace ODataEngine.QueryLimits

/-- The names of the caps in a document. -/
def memberNames : List String :=
  ["max_filter_length", "max_orderby_fields", "max_select_fields", "max_top", "strict_expand"]

/-- The document of some caps; a cap on `$top` is left out where there is none. -/
def document (l : QueryLimits) : Json :=
  let top :=
    match l.maxTop with
    | some n => [("max_top", Json.ofNat n)]
    | none => []
  .object ([("max_filter_length", .ofNat l.maxFilterLength),
    ("max_orderby_fields", .ofNat l.maxOrderByFields),
    ("max_select_fields", .ofNat l.maxSelectFields)] ++ top ++
    [("strict_expand", .bool l.strictExpand)])

/-- Reads caps; those left out keep their defaults. -/
def ofSetting? (rigor : Rigor) (v : Setting) : Option QueryLimits := do
  let r ← Shape.members? rigor memberNames v
  let usual : QueryLimits := {}
  return {
    maxFilterLength := ← Shape.optional r "max_filter_length" usual.maxFilterLength Shape.count?
    maxOrderByFields := ← Shape.optional r "max_orderby_fields" usual.maxOrderByFields Shape.count?
    maxSelectFields := ← Shape.optional r "max_select_fields" usual.maxSelectFields Shape.count?
    maxTop := ← Shape.optional r "max_top" none (Shape.nullable Shape.count?)
    strictExpand := ← Shape.optional r "strict_expand" usual.strictExpand Shape.flag? }

/-- Reads caps out of JSON. -/
def ofJson? (v : Json) : Option QueryLimits := ofSetting? .strict (.ofJson v)

end ODataEngine.QueryLimits
