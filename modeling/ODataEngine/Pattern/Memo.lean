import Std.Data.HashMap

/-!
# Memos of limited size

What was built before is looked up in a memo with a fixed number of places. The key of an entry
determines its place, and an entry displaces the one that has its place, so that a memo forgets.
-/

namespace ODataEngine.Pattern

/-- A memo: the entry at each place, a key with a value. -/
structure Memo where
  capacity : Nat
  entries : Std.HashMap Nat (List Nat × Nat) := {}

namespace Memo

/-- The place of a key: its numbers are mixed one after another into a word of 64 bits. -/
def place (m : Memo) (key : List Nat) : Nat :=
  let word : UInt64 :=
    key.foldl (fun h n => (h ^^^ UInt64.ofNat n) * 1099511628211) 14695981039346656037
  word.toNat % m.capacity

/-- The value of a key, unless it was forgotten. -/
def find? (m : Memo) (key : List Nat) : Option Nat :=
  match m.entries[m.place key]? with
  | some (k, value) => if k = key then some value else none
  | none => none

/-- The memo with the value of a key. -/
def insert (m : Memo) (key : List Nat) (value : Nat) : Memo :=
  { m with entries := m.entries.insert (m.place key) (key, value) }

end Memo

end ODataEngine.Pattern
