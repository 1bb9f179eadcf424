import ODataEngine.Filter.Clause

/-!
# Predicates

Tests of whole records: clauses on fields, all of which must hold, and groups of further
predicates. The clauses of a field stand together under the name of the field.
-/

namespace ODataEngine

open ODataEngine.Filter

mutual

/-- A test of a record: the clauses of each field, and groups. -/
inductive Predicate where
  | mk (fields : List (String × List Clause)) (groups : List Group)

/-- Predicates under a connective. -/
inductive Group where
  | and (items : List Predicate)
  | or (items : List Predicate)
  | not (item : Predicate)
  | nor (items : List Predicate)

end

namespace Predicate

/-- The clauses of each field, in the order of the fields' first clauses. -/
def fields : Predicate → List (String × List Clause)
  | mk fields _ => fields

/-- The groups, in order. -/
def groups : Predicate → List Group
  | mk _ groups => groups

/-- The predicate of every record. -/
def all : Predicate := mk [] []

/-- Adds a clause to those of a field. -/
def addClause (name : String) (clause : Clause) :
    List (String × List Clause) → List (String × List Clause)
  | [] => [(name, [clause])]
  | (n, clauses) :: rest =>
    if n = name then (n, clauses ++ [clause]) :: rest
    else (n, clauses) :: addClause name clause rest

/-- The predicate with one more clause on a field. -/
def require (p : Predicate) (name : String) (clause : Clause) : Predicate :=
  mk (addClause name clause p.fields) p.groups

/-- One clause on one field. -/
def field (name : String) (clause : Clause) : Predicate := all.require name clause

/-- The field equals the value. -/
def fieldEquals (name : String) (value : Json) : Predicate := field name (.compare .eq value)

/-- Both predicates, the clauses of the second joined to those of the first. -/
def conj (p q : Predicate) : Predicate :=
  let joined := q.fields.foldl (fun p (name, clauses) => clauses.foldl (·.require name ·) p) p
  mk joined.fields (joined.groups ++ q.groups)

/-- One predicate or the other. -/
def disj (p q : Predicate) : Predicate := mk [] [.or [p, q]]

/-- Not the predicate. -/
def negate (p : Predicate) : Predicate := mk [] [.not p]

/-- None of the predicates. -/
def noneOf (ps : List Predicate) : Predicate := mk [] [.nor ps]

/-- Nothing is asked: no group, and no clause on any field. -/
def isEmpty (p : Predicate) : Bool := p.groups.isEmpty && p.fields.all (·.2.isEmpty)

/-- Every clause of every field holds. -/
def fieldsHold (fields : List (String × List Clause)) (r : Record) : Bool :=
  fields.all fun (name, clauses) => clauses.all (·.holds (r.valueOf name))

mutual

/-- The record passes the test. -/
def holds : Predicate → Record → Bool
  | mk fields groups, r => fieldsHold fields r && groupsHold groups r

/-- The group of predicates holds of the record. -/
def groupHolds : Group → Record → Bool
  | .and items, r => allHold items r
  | .or items, r => someHolds items r
  | .not item, r => !item.holds r
  | .nor items, r => !someHolds items r

/-- Every group holds of the record. -/
def groupsHold : List Group → Record → Bool
  | [], _ => true
  | g :: rest, r => groupHolds g r && groupsHold rest r

/-- Every predicate holds of the record. -/
def allHold : List Predicate → Record → Bool
  | [], _ => true
  | p :: rest, r => p.holds r && allHold rest r

/-- Some predicate holds of the record. -/
def someHolds : List Predicate → Record → Bool
  | [], _ => false
  | p :: rest, r => p.holds r || someHolds rest r

end

@[simp] theorem holds_all (r : Record) : all.holds r = true := by
  simp [all, holds, fieldsHold, groupsHold]

end Predicate

/-- The predicates of a group. -/
def Group.items : Group → List Predicate
  | .and items | .or items | .nor items => items
  | .not item => [item]

/-- The key of a group in a filter document. -/
def Group.key : Group → String
  | .and _ => "$and"
  | .or _ => "$or"
  | .not _ => "$not"
  | .nor _ => "$nor"

end ODataEngine
