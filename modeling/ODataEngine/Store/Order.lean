import ODataEngine.Json.Order
import ODataEngine.Query.Basic

/-!
# The order of rows

Values of different kinds come in the order null, booleans, numbers, texts, arrays, objects; values
of one kind in their own order, and those without one tie. Rows are ordered by the keys of a query,
one after the other, and rows that tie on all of them keep their places.

Sorting relies on an order that is transitive on the rows. Where it is not, nothing is said of the
order that rows come out in, and sorting may be given up. `OrderKey.sort` makes one order even then;
that it is given up is left to the store, which may refuse the call.
-/

namespace ODataEngine

namespace Json

/-- The place of a kind of value among the kinds. -/
def kindRank : Json → Nat
  | .null => 0
  | .bool _ => 1
  | .number _ => 2
  | .string _ => 3
  | .array _ => 4
  | .object _ => 5

/-- The order of any two values. -/
def sortOrder (a b : Json) : Ordering :=
  (compare a.kindRank b.kindRank).then ((a.order? b).getD .eq)

end Json

namespace OrderKey

/-- The order of two records by one key. -/
def order (k : OrderKey) (a b : Record) : Ordering :=
  let o := (a.valueOf k.field).sortOrder (b.valueOf k.field)
  match k.direction with
  | .asc => o
  | .desc => o.swap

/-- The order of two records by some keys, the first one that tells them apart. -/
def orderBy (keys : List OrderKey) (a b : Record) : Ordering :=
  match keys with
  | [] => .eq
  | k :: rest => (k.order a b).then (orderBy rest a b)

end OrderKey

/-! ## A stable sort -/

/-- Puts a row into rows that stand in reverse order, behind those that it must precede. -/
def insertReversed {α : Type} (precedes : α → α → Bool) (x : α) : List α → List α
  | [] => [x]
  | y :: rest => if precedes x y then y :: insertReversed precedes x rest else x :: y :: rest

/-- The rows in order; of two rows neither of which precedes the other the earlier one stays
first. -/
def stableSort {α : Type} (precedes : α → α → Bool) (rows : List α) : List α :=
  (rows.foldl (fun sorted x => insertReversed precedes x sorted) []).reverse

theorem insertReversed_perm {α : Type} (precedes : α → α → Bool) (x : α) (rows : List α) :
    (insertReversed precedes x rows).Perm (x :: rows) := by
  induction rows with
  | nil => exact .refl _
  | cons y rest ih =>
    unfold insertReversed
    split
    · exact (ih.cons y).trans (.swap x y rest)
    · exact .refl _

theorem stableSort_perm {α : Type} (precedes : α → α → Bool) (rows : List α) :
    (stableSort precedes rows).Perm rows := by
  have fold : ∀ (rows sorted : List α),
      (rows.foldl (fun sorted x => insertReversed precedes x sorted) sorted).Perm
        (rows ++ sorted) := by
    intro rows
    induction rows with
    | nil => exact fun _ => .refl _
    | cons x rest ih =>
      intro sorted
      refine (ih _).trans ?_
      exact ((insertReversed_perm precedes x sorted).append_left rest).trans List.perm_middle
  simpa [stableSort] using (List.reverse_perm _).trans (fold rows [])

/-- The rows in the order of some keys. -/
def OrderKey.sort (keys : List OrderKey) (rows : List Record) : List Record :=
  if keys.isEmpty then rows else stableSort (fun a b => orderBy keys a b == .lt) rows

/-- The order of some keys is transitive on the rows, so that sorting is sure to put them in it. -/
def OrderKey.TransitiveOn (keys : List OrderKey) (rows : List Record) : Prop :=
  ∀ a ∈ rows, ∀ b ∈ rows, ∀ c ∈ rows,
    (orderBy keys a b).isLE → (orderBy keys b c).isLE → (orderBy keys a c).isLE

end ODataEngine
