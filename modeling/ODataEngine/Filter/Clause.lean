import ODataEngine.Json.Order
import ODataEngine.Json.Printer
import ODataEngine.Pattern.Reader
import ODataEngine.Edm.Basic

/-!
# Clauses

One test of one field. A clause compares the value with another one, looks it up in a list or
matches a pattern; a record that lacks the field is tested as if it held null.
-/

namespace ODataEngine

namespace Filter

/-- The comparisons with a single value. -/
inductive Comparison where
  | eq
  | ne
  | gt
  | gte
  | lt
  | lte
deriving DecidableEq

/-- Compares by order, not by equality. -/
def Comparison.isOrdering : Comparison → Bool
  | .eq | .ne => false
  | _ => true

/-- The operators of clauses. -/
inductive Operator where
  | compare (c : Comparison)
  | isIn
  | notIn
  | regex
deriving DecidableEq

namespace Operator

/-- The key of the operator in a filter document. -/
def key : Operator → String
  | compare .eq => "$eq"
  | compare .ne => "$ne"
  | compare .gt => "$gt"
  | compare .gte => "$gte"
  | compare .lt => "$lt"
  | compare .lte => "$lte"
  | isIn => "$in"
  | notIn => "$nin"
  | regex => "$regex"

/-- All operators. -/
def all : List Operator :=
  [compare .eq, compare .ne, compare .gt, compare .gte, compare .lt, compare .lte, isIn, notIn,
    regex]

/-- The operator of a key. -/
def ofKey? (k : String) : Option Operator := all.find? (·.key == k)

/-- One of the four comparisons by order. -/
def isRange : Operator → Bool
  | compare c => c.isOrdering
  | _ => false

theorem ofKey?_key (op : Operator) : ofKey? op.key = some op := by
  cases op with
  | compare c => cases c <;> rfl
  | _ => rfl

end Operator

end Filter

open ODataEngine.Filter

/-- Why a filter cannot be used. -/
inductive FilterError where
  | unsupportedOperator (key : String)
  | invalidOperand (op : Operator) (got : String)
  | invalidPattern (pattern : String)
  | documentNotObject (got : String)
  | groupNotArray (key got : String)
  | unknownField (field : String)
  | typeMismatch (field : String) (expected : EdmType) (got : String)
deriving DecidableEq

namespace FilterError

/-- The wording of a filter error. -/
def message : FilterError → String
  | unsupportedOperator key => s!"unsupported filter operator '{key}'"
  | invalidOperand op got =>
    let expected := if op = .regex then "a string pattern" else "an array"
    s!"invalid operand for {op.key}: expected {expected}, got {got}"
  | invalidPattern pattern => s!"invalid $regex pattern '{pattern}'"
  | documentNotObject got =>
    s!"invalid filter expression: predicate must be an object, got {got}"
  | groupNotArray key got => s!"invalid filter expression: {key} expects an array, got {got}"
  | unknownField field => s!"unknown field: {field}"
  | typeMismatch field expected got =>
    s!"type mismatch for field {field}: expected {expected.qualifiedName}, got {got}"

end FilterError

namespace Filter

/-- A test of a value. -/
inductive Clause where
  | compare (c : Comparison) (value : Json)
  | isIn (items : List Json)
  | notIn (items : List Json)
  | regex (r : Regex)

namespace Clause

/-- The clause that an operator makes with an operand. Membership needs an array, a pattern a text
that can be read as one. -/
def make (op : Operator) (operand : Json) : Except FilterError Clause :=
  match op with
  | .compare c => .ok (.compare c operand)
  | .isIn =>
    match operand with
    | .array items => .ok (.isIn items)
    | other => .error (.invalidOperand .isIn other.kindName)
  | .notIn =>
    match operand with
    | .array items => .ok (.notIn items)
    | other => .error (.invalidOperand .notIn other.kindName)
  | .regex =>
    match operand with
    | .string source =>
      match Regex.ofSource? source with
      | some r => .ok (.regex r)
      | none => .error (.invalidPattern source)
    | other => .error (.invalidOperand .regex other.kindName)

/-- The operator of a clause. -/
def operator : Clause → Operator
  | compare c _ => .compare c
  | isIn _ => .isIn
  | notIn _ => .notIn
  | regex _ => .regex

/-- The operand as a filter document holds it. -/
def operand : Clause → Json
  | compare _ value => value
  | isIn items | notIn items => .array items
  | regex r => .string r.source

/-- The values that the clause compares a field with. -/
def values : Clause → List Json
  | compare _ value => [value]
  | isIn items | notIn items => items
  | regex _ => []

/-- The value equals one of the list. -/
def holdsOne (items : List Json) (actual : Json) : Bool := items.any actual.equals

/-- The comparison holds. Values without an order satisfy no comparison by order. -/
def compares (c : Comparison) (actual expected : Json) : Bool :=
  match c with
  | .eq => actual.equals expected
  | .ne => !actual.equals expected
  | .gt => actual.order? expected == some .gt
  | .gte => (actual.order? expected).any (· != .lt)
  | .lt => actual.order? expected == some .lt
  | .lte => (actual.order? expected).any (· != .gt)

/-- The value passes the test. A pattern is matched against a text itself and against the JSON text
of any other value but null. -/
def holds (clause : Clause) (actual : Json) : Bool :=
  match clause with
  | compare c expected => compares c actual expected
  | isIn items => holdsOne items actual
  | notIn items => !holdsOne items actual
  | regex r =>
    match actual with
    | .null => false
    | .string s => r.matchesIn s.toList
    | other => r.matchesIn other.text

theorem make_operator_operand (c : Clause) : make c.operator c.operand = .ok c := by
  cases c with
  | compare => rfl
  | isIn => rfl
  | notIn => rfl
  | regex r => simp [operator, operand, make, Regex.ofSource?_source]

end Clause

end Filter

end ODataEngine
