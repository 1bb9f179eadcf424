import ODataEngine.Schema.Basic
import ODataEngine.Store.Basic

/-!
# Related records

Following a link from one record to the records of a store. The link adds a condition to the query;
a record without a value to follow has no related records, and the store is not asked.
-/

namespace ODataEngine

namespace Link

/-- The condition on related records, none if the record has nothing to follow. -/
def condition? (l : Link) (base : Record) : Option Predicate :=
  match l.rule, base.get? l.near with
  | .foreignKey, some v => if v.isNull then none else some (.field l.remote (.compare .eq v))
  | .keyList, some (.array keys) =>
    if keys.isEmpty then none else some (.field l.remote (.isIn keys))
  | _, _ => none

/-- The related records that a query asks for. -/
def resolve (l : Link) (base : Record) (s : Store) (q : Query) : Except StoreError (List Record) :=
  match l.condition? base with
  | none => .ok []
  | some p => s.find { q with filter := p.conj q.filter }

end Link

/-- The rows that are shown: only the first where a property leads to one entity. -/
def Multiplicity.cut {α : Type} : Multiplicity → List α → List α
  | .one, rows => rows.take 1
  | .many, rows => rows

/-- The records that a navigation property leads to. -/
def Navigation.follow (n : Navigation) (base : Record) (s : Store) (q : Query) :
    Except StoreError (List Record) :=
  (n.link.resolve base s q).map n.multiplicity.cut

end ODataEngine
