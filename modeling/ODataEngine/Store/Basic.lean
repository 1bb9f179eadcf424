import ODataEngine.Edm.Literal
import ODataEngine.Error
import ODataEngine.Store.Order

/-!
# Stores

The records of a collection in the order of their insertion, found by key. A key is compared by
value, so `1` and `1.0` are the same key. A store may refuse calls for reasons of its own; a call
that fails changes nothing. A call that is given up, as finding may be when its order is not
transitive on the records, counts as refused.
-/

namespace ODataEngine

/-- A call on a store, with its arguments. -/
inductive StoreCall where
  | find (q : Query)
  | count (p : Predicate)
  | get (key : Json) (select : List String)
  | add (record : Record)
  | update (key : Json) (patch : Record)
  | remove (key : Json)

/-- A store: the name and type of its key, its records, and the calls it refuses. -/
structure Store where
  key : String
  keyType : EdmType
  records : List Record := []
  refuses : StoreCall → Option StoreError := fun _ => none

namespace Store

/-! ## Keys -/

/-- The key of a record, null if it has none. -/
def keyOf (s : Store) (r : Record) : Json := r.valueOf s.key

/-- The record has the given key. -/
def hasKey (s : Store) (key : Json) (r : Record) : Bool := (s.keyOf r).sameKey key

/-- The first record with a key. -/
def lookup? (s : Store) (key : Json) : Option Record := s.records.find? (s.hasKey key)

/-- The integer of 64 bits that a key holds. -/
def integerKey? : Json → Option Int
  | .number n => n.int64?
  | _ => none

/-- The greatest integer among the keys, zero if there is none. -/
def greatestKey (s : Store) : Int :=
  ((s.records.filterMap fun r => integerKey? (s.keyOf r)).max?).getD 0

/-- A key for a record that has none: the next integer, or the given fresh identifier. -/
def nextKey (s : Store) (fresh : String) : Except StoreError Json :=
  if s.keyType.isInteger then
    if s.greatestKey + 1 ≤ s.keyType.integerRange.2 then .ok (.ofInt (s.greatestKey + 1))
    else
      .error (.invalid
        s!"no {s.keyType.qualifiedName} key left after {s.greatestKey} for '{s.key}'")
  else if s.keyType = .guid then .ok (.string fresh)
  else .error (.invalid
    s!"missing key '{s.key}' and {s.keyType.qualifiedName} keys are not generated")

/-! ## Calls -/

/-- The call is refused, or goes on with its result. -/
def guarded {α : Type} (s : Store) (call : StoreCall) (result : Except StoreError α) :
    Except StoreError α :=
  match s.refuses call with
  | some e => .error e
  | none => result

/-- The records that a query asks for: filtered, ordered, paged and cut to the selected members. -/
def rows (s : Store) (q : Query) : List Record :=
  (q.page (OrderKey.sort q.order (s.records.filter q.filter.holds))).map (·.project q.select)

/-- Finds the records that a query asks for. -/
def find (s : Store) (q : Query) : Except StoreError (List Record) :=
  s.guarded (.find q) (.ok (s.rows q))

/-- Counts the records that pass a test. -/
def count (s : Store) (p : Predicate) : Except StoreError Nat :=
  s.guarded (.count p) (.ok (s.records.filter p.holds).length)

/-- The record with a key, cut to the selected members. -/
def get (s : Store) (key : Json) (select : List String) : Except StoreError (Option Record) :=
  s.guarded (.get key select) (.ok ((s.lookup? key).map (·.project select)))

/-- The failure of a call on a key that no record has. -/
def missing (key : Json) : StoreError := .notFound key.render

/-- Adds a record at the end, with a key of its own if it has none. -/
def add (s : Store) (fresh : String) (r : Record) : Except StoreError (Record × Store) :=
  s.guarded (.add r) do
    -- a null key counts as none
    let key ← if (s.keyOf r).isNull then s.nextKey fresh else .ok (s.keyOf r)
    if (s.lookup? key).isSome then .error (.conflict key.render)
    else
      let r := r.insert s.key key
      .ok (r, { s with records := s.records ++ [r] })

/-- Changes the first record that passes a test. -/
def changeFirst (test : Record → Bool) (change : Record → Record) : List Record → List Record
  | [] => []
  | r :: rest => if test r then change r :: rest else r :: changeFirst test change rest

/-- Sets members of the record with a key; the key itself cannot be changed. -/
def update (s : Store) (key : Json) (patch : Record) : Except StoreError (Record × Store) :=
  s.guarded (.update key patch) <|
    match s.lookup? key with
    | none => .error (missing key)
    | some r =>
      -- the patch may hold the key itself, written in any way
      if (patch.get? s.key).any fun new => !new.sameKey key then
        .error (.invalid s!"key '{s.key}' cannot be changed")
      else
        .ok (r.insertAll patch,
          { s with records := changeFirst (s.hasKey key) (·.insertAll patch) s.records })

/-- Removes the record with a key. -/
def remove (s : Store) (key : Json) : Except StoreError Store :=
  s.guarded (.remove key) <|
    match s.lookup? key with
    | none => .error (missing key)
    | some _ => .ok { s with records := s.records.eraseP (s.hasKey key) }

/-! ## What is left of the records -/

@[simp] theorem guarded_of_not_refused {α : Type} {s : Store} {call : StoreCall}
    (h : s.refuses call = none) (result : Except StoreError α) :
    s.guarded call result = result := by
  simp [guarded, h]

end Store

/-! ## Stores by collection -/

/-- The stores of a service, each under the name of its collection. -/
abbrev Stores := List (String × Store)

namespace Stores

/-- The store of a collection. -/
def store? (stores : Stores) (collection : String) : Option Store := stores.lookup collection

/-- Puts a store in the place of the one of a collection. -/
def put (stores : Stores) (collection : String) (s : Store) : Stores :=
  match stores with
  | [] => []
  | (name, old) :: rest =>
    if name = collection then (name, s) :: rest else (name, old) :: put rest collection s

end Stores

end ODataEngine
