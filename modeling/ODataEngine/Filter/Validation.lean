import ODataEngine.Filter.Predicate

/-!
# Predicates against declared types

A predicate fits a typing of fields if every field it names has a type, every value it compares
with is admitted by that type, and no boolean is compared by order.
-/

namespace ODataEngine

open ODataEngine.Filter

namespace Predicate

/-- The first fault of a clause on a field of the given type. -/
def checkClause (name : String) (t : EdmType) (clause : Clause) : Except FilterError Unit :=
  if clause.operator.isRange && t == .boolean then
    .error (.typeMismatch name t ("ordering operator " ++ clause.operator.key))
  else
    match clause.values.find? (!t.accepts ·) with
    | some bad => .error (.typeMismatch name t bad.kindName)
    | none => .ok ()

/-- The first fault of the clauses on a field of the given type. -/
def checkClauses (name : String) (t : EdmType) : List Clause → Except FilterError Unit
  | [] => .ok ()
  | clause :: rest =>
    match checkClause name t clause with
    | .error e => .error e
    | .ok () => checkClauses name t rest

/-- The first fault of the clauses of some fields. -/
def checkFields (typeOf : String → Option EdmType) :
    List (String × List Clause) → Except FilterError Unit
  | [] => .ok ()
  | (name, clauses) :: rest =>
    match typeOf name with
    | none => .error (.unknownField name)
    | some t =>
      match checkClauses name t clauses with
      | .error e => .error e
      | .ok () => checkFields typeOf rest

mutual

/-- The first fault of a predicate: in its own clauses, then in its groups. -/
def validate (typeOf : String → Option EdmType) : Predicate → Except FilterError Unit
  | mk fields groups =>
    match checkFields typeOf fields with
    | .error e => .error e
    | .ok () => validateGroups typeOf groups

/-- The first fault of the predicates in some groups. -/
def validateGroups (typeOf : String → Option EdmType) : List Group → Except FilterError Unit
  | [] => .ok ()
  | g :: rest =>
    match validateGroup typeOf g with
    | .error e => .error e
    | .ok () => validateGroups typeOf rest

/-- The first fault of the predicates in a group. -/
def validateGroup (typeOf : String → Option EdmType) : Group → Except FilterError Unit
  | .and items => validateAll typeOf items
  | .or items => validateAll typeOf items
  | .not item => validate typeOf item
  | .nor items => validateAll typeOf items

/-- The first fault of some predicates. -/
def validateAll (typeOf : String → Option EdmType) : List Predicate → Except FilterError Unit
  | [] => .ok ()
  | p :: rest =>
    match validate typeOf p with
    | .error e => .error e
    | .ok () => validateAll typeOf rest

end

end Predicate

end ODataEngine
