import ODataEngine.Filter.Predicate
import ODataEngine.Text.Letters

/-!
# Queries

What one request asks of a collection: which members to show, which records, in which order, which
page of them, and which related records to add. The `$expand` text stays unread here; each level of
a response takes off its own level of the text.
-/

namespace ODataEngine

/-! ## Order -/

/-- The direction of an order key. -/
inductive Direction where
  | asc
  | desc
deriving DecidableEq

namespace Direction

/-- The word for a direction. -/
def word : Direction → String
  | asc => "asc"
  | desc => "desc"

/-- The direction that a word names, in any case. -/
def ofWord? (s : String) : Option Direction := [asc, desc].find? fun d => Text.sameName s d.word

end Direction

/-- One field to order by. -/
structure OrderKey where
  field : String
  direction : Direction
deriving DecidableEq

namespace OrderKey

/-- Adds a key to an order unless its field is ordered by already. -/
def addTo (order : List OrderKey) (key : OrderKey) : List OrderKey :=
  if order.any (·.field == key.field) then order else order ++ [key]

/-- An order in words. -/
def describe (order : List OrderKey) : String :=
  if order.isEmpty then "(none)"
  else ", ".intercalate (order.map fun k => s!"{k.field} {k.direction.word}")

end OrderKey

/-! ## Queries -/

/-- A query. An empty `select` shows every member; without `top` there is no last row. -/
structure Query where
  select : List String := []
  filter : Predicate := .all
  order : List OrderKey := []
  top : Option Nat := none
  skip : Option Nat := none
  expand : String := ""

namespace Query

/-- The name is selected, in any case. -/
def selects (q : Query) (name : String) : Bool := q.select.any (Text.sameName · name)

/-- The rows of the page: the first `skip` are left out, then at most `top` are kept. -/
def page {α : Type} (q : Query) (rows : List α) : List α :=
  let rows := rows.drop (q.skip.getD 0)
  match q.top with
  | some top => rows.take top
  | none => rows

/-- The query without paging. -/
def unpaged (q : Query) : Query := { q with top := none, skip := none }

@[simp] theorem page_unpaged {α : Type} (q : Query) (rows : List α) :
    q.unpaged.page rows = rows := by
  simp [page, unpaged]

theorem page_sublist {α : Type} (q : Query) (rows : List α) : (q.page rows).Sublist rows := by
  unfold page
  split
  · exact (List.take_sublist _ _).trans (List.drop_sublist _ _)
  · exact List.drop_sublist _ _

end Query

/-- The members of a record whose names are listed, in any case, in the record's own order and
spelling. An empty list keeps them all. -/
def Record.project (r : Record) (names : List String) : Record :=
  if names.isEmpty then r else r.filter fun (name, _) => names.any (Text.sameName · name)

end ODataEngine
