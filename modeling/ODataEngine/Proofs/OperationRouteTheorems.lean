import ODataEngine.Proofs.AddressTheorems
import ODataEngine.Proofs.EntityRouteTheorems
import ODataEngine.Proofs.RegistryTheorems

/-!
# Routes to operations

An operation stands behind its collection, or behind the key of an entity if it is bound to these,
under its name, with or without `()`. Two other readings come first: the namespace and a point are
taken off any name that begins with them, and a navigation property is looked for before an
operation. `Route.invokes_iff_not_isHidden` says that nothing else stands in the way of an
operation: its path invokes it unless one of the two applies. The path with the namespace before the
name and `()` behind it always does.
-/

namespace ODataEngine

namespace Route

/-! ## Paths of operations -/

/-- What stands under the route path where something bound to a collection or to its entities is
called by a last segment, with the address that this leads to. -/
inductive LeadsTo (c : Collection) (segment : List Char) : Binding → List Char → Address → Prop
  | collection :
    LeadsTo c segment .collection (c.name.toList ++ '/' :: segment) { collection := some c }
  | entity {text : List Char} {v : Json} (htext : SpellsKey c.entity text v) :
    LeadsTo c segment .entity (c.name.toList ++ '(' :: (text ++ ')' :: '/' :: segment))
      { collection := some c, key := some v
        keyLiteral := some (c.entity.keyType.keyLiteral v) }

/-- The name of an operation as it is called, alone or with `()` behind it. -/
def calledName (name : String) (parentheses : Bool) : List Char :=
  name.toList ++ if parentheses then ['(', ')'] else []

/-- The name of an operation is read as another in a path: it begins with the namespace and a point,
or it is, behind a key and without `()`, that of a navigation property. -/
def IsHidden (s : Schema) (c : Collection) (op : Operation) (parentheses : Bool) : Prop :=
  s.nameSpace.toList ++ ['.'] <+: op.name.toList ∨
    op.binding = .entity ∧ parentheses = false ∧ (c.entity.navigation? op.name).isSome = true

instance (s : Schema) (c : Collection) (op : Operation) (parentheses : Bool) :
    Decidable (IsHidden s c op parentheses) := inferInstanceAs (Decidable (_ ∨ _))

/-! ## Names of operations -/

section

variable {name : String} (hclean : Draft.IsClean name)

include hclean

/-- The parentheses behind a name are taken off, and nothing else. -/
theorem beforeEnd?_calledName (parentheses : Bool) :
    (Text.beforeEnd? ['(', ')'] (calledName name parentheses)).getD (calledName name parentheses)
      = name.toList := by
  cases parentheses with
  | true =>
    rw [calledName, if_pos rfl, Text.beforeEnd?_append]
    rfl
  | false =>
    rw [calledName, if_neg Bool.false_ne_true, List.append_nil]
    cases hend : Text.beforeEnd? ['(', ')'] name.toList with
    | none => rfl
    | some before =>
      have hmem : ')' ∈ name.toList := by
        rw [Text.eq_append_of_beforeEnd? hend]
        simp
      exact absurd rfl (hclean.ne_of_mem (d := ')') (by decide) hmem)

/-- A name is found as it is called, unless the namespace is taken off it. -/
theorem operationName_calledName_iff (nameSpace : String) (parentheses : Bool) :
    operationName nameSpace (calledName name parentheses) = name.toList ↔
      ¬ nameSpace.toList ++ ['.'] <+: name.toList := by
  rw [operationName, beforeEnd?_calledName hclean]
  cases hstart : Text.afterStart? (nameSpace.toList ++ ['.']) name.toList with
  | none =>
    refine iff_of_true rfl ?_
    intro hprefix
    obtain ⟨rest, hrest⟩ := hprefix
    rw [Text.afterStart?_eq_some_iff.2 hrest.symm] at hstart
    cases hstart
  | some rest =>
    rw [Text.afterStart?_eq_some_iff] at hstart
    refine iff_of_false ?_ (not_not_intro ⟨rest, hstart.symm⟩)
    -- what is left is shorter than the name
    intro hsame
    have hlength := congrArg List.length hstart
    rw [List.length_append, List.length_append, ← show rest = name.toList from hsame] at hlength
    simp at hlength

theorem getLast_calledName (parentheses : Bool) :
    ('/' :: calledName name parentheses).getLast? ≠ some '/' := by
  rw [List.getLast?_cons_of_ne_nil (by simp [calledName, hclean.1])]
  cases parentheses with
  | true => simp [calledName]
  | false =>
    intro hlast
    rw [calledName, if_neg Bool.false_ne_true, List.append_nil] at hlast
    exact hclean.ne_of_mem (by decide) (List.mem_of_getLast? hlast) rfl

end

/-- A name is found behind the namespace, whatever it is. -/
theorem operationName_qualified (nameSpace name : String) :
    operationName nameSpace (nameSpace.toList ++ '.' :: calledName name true) = name.toList := by
  have hsplit : nameSpace.toList ++ '.' :: calledName name true
      = nameSpace.toList ++ ['.'] ++ name.toList ++ ['(', ')'] := by
    simp [calledName]
  have hstart : Text.afterStart? (nameSpace.toList ++ ['.'])
      (nameSpace.toList ++ ['.'] ++ name.toList) = some name.toList :=
    Text.afterStart?_eq_some_iff.2 rfl
  rw [operationName, hsplit, Text.beforeEnd?_append, Option.getD_some, hstart, Option.getD_some]

/-- No operation is called like the count of a collection. -/
theorem calledName_ne_count {name : String} (h : Draft.isName name = true) (parentheses : Bool) :
    calledName name parentheses ≠ "$count".toList := by
  intro hsame
  apply Draft.head_of_isName h
  have hhead := congrArg List.head? hsame
  rw [calledName, List.head?_append_of_ne_nil _ (Draft.isClean_of_isName h).1] at hhead
  exact hhead

/-- No navigation property has parentheses in its name. -/
theorem navigation?_eq_none {e : EntityType} (h : e.Sound) {segment : List Char}
    (hsegment : '(' ∈ segment) : e.navigation? (String.ofList segment) = none := by
  cases hfound : e.navigation? (String.ofList segment) with
  | none => rfl
  | some n =>
    obtain ⟨hn, hname⟩ := EntityType.mem_of_navigation? hfound
    rw [Text.sameName_comm] at hname
    have hclean := (Draft.isClean_of_isName (h.navigationNames n hn)).of_sameName hname
    exact absurd rfl (hclean.ne_of_mem (d := '(') (by decide) (String.toList_ofList ▸ hsegment))

/-- The operation of a segment is the one of its name and binding. -/
theorem boundOperation_eq_invoke_iff {s : Schema} (hfinds : s.FindsEach) {c : Collection}
    (hc : c ∈ s.collections) {op : Operation} (hop : op ∈ c.operations) (segment : List Char) :
    boundOperation s c op.binding op.kind.method segment = some (.invoke op) ↔
      operationName s.nameSpace segment = op.name.toList := by
  constructor
  · intro h
    unfold boundOperation at h
    split at h
    · next op' hop' =>
      obtain ⟨-, hsame⟩ := eq_of_only h
      obtain rfl := Endpoint.invoke.inj hsame
      rw [((hfinds.operation? c hc _ _ _).1 hop').2.1, String.toList_ofList]
    · cases h
  · intro h
    have hfound : c.operation? op.name op.binding = some op :=
      (hfinds.operation? c hc _ _ _).2 ⟨hop, rfl, rfl⟩
    rw [boundOperation, h, String.ofList_toList, hfound]
    exact if_pos rfl

/-! ## To an operation -/

/-- A path to what is called at a collection or an entity leads to an operation there, unless the
last segment has a meaning of its own. -/
theorem resolve_of_leadsTo {s : Schema} (hsound : s.Sound) {c : Collection}
    (hc : c ∈ s.collections) {segment rest : List Char} {binding : Binding} {address : Address}
    (h : LeadsTo c segment binding rest address) (hlast : ('/' :: segment).getLast? ≠ some '/')
    (hcount : segment ≠ "$count".toList)
    (hnavigation : binding = .entity → c.entity.navigation? (String.ofList segment) = none)
    (site : Site) (method : String) {path : String}
    (hpath : Text.percentDecode? path = some (site.path.toList ++ '/' :: rest)) :
    resolve s site method path
      = { address := address, endpoint := .ok (boundOperation s c binding method segment) } := by
  cases h with
  | collection =>
    have hname := (hsound.collections c hc).1
    have hclean := Draft.isClean_of_isName hname
    have hends : endsName '/' = true := rfl
    have hfound := findSome?_afterCollection hsound hc hends segment
    have hrest : afterRoute? site.path.toList
        (Text.dropAround '/' (site.path.toList ++ '/' :: (c.name.toList ++ '/' :: segment)))
        = some (c.name.toList ++ '/' :: segment) := by
      apply afterRoute?_append
      · simp
      · exact head_ne_slash hclean _
      · rw [List.getLast?_append_of_ne_nil _ (List.cons_ne_nil _ _)]
        exact hlast
    rw [resolve, hpath]
    simp only [hrest]
    rw [resolveRest, if_neg (by simp), if_neg (append_ne_metadata hname _), hfound]
    show Resolution.mk { collection := some c }
      (.ok (collectionEndpoint s c method ('/' :: segment))) = _
    rw [collectionEndpoint, if_neg hcount]
  | entity htext =>
    rw [resolve_of_spellsKey hsound hc htext hlast site method hpath, resolveAfterKey,
      hnavigation rfl]

/-- Behind a key, the name of a navigation property invokes no operation. -/
theorem ne_invoke_of_navigation? {s : Schema} {c : Collection} {name : String} {n : Navigation}
    (hn : c.entity.navigation? name = some n) (address : Address) (method : String)
    (op : Operation) :
    (resolveAfterKey s c address method ('/' :: name.toList)).endpoint
      ≠ .ok (some (.invoke op)) := by
  simp only [resolveAfterKey, String.ofList_toList, hn]
  intro h
  by_cases hmethod : method = "GET"
  · rw [if_pos hmethod, navigationEndpoint] at h
    cases hmany : n.multiplicity with
    | one =>
      rw [hmany] at h
      cases h
    | many =>
      rw [hmany] at h
      cases h
  · rw [if_neg hmethod] at h
    cases h

section

variable {s : Schema} (hsound : s.Sound) {c : Collection} (hc : c ∈ s.collections) {op : Operation}
  {rest : List Char} {address : Address} (site : Site) {path : String}
  (hpath : Text.percentDecode? path = some (site.path.toList ++ '/' :: rest))

include hsound hc hpath

/-- A path with the name of an operation leads to what is found under that name, where no navigation
property has it. -/
theorem resolve_calledName (hname : Draft.isName op.name = true) {parentheses : Bool}
    (h : LeadsTo c (calledName op.name parentheses) op.binding rest address)
    (hnavigation : ¬ (op.binding = .entity ∧ parentheses = false ∧
      (c.entity.navigation? op.name).isSome = true)) :
    resolve s site op.kind.method path
      = { address := address
          endpoint := .ok (boundOperation s c op.binding op.kind.method
            (calledName op.name parentheses)) } := by
  apply resolve_of_leadsTo hsound hc h
  · exact getLast_calledName (Draft.isClean_of_isName hname) parentheses
  · exact calledName_ne_count hname parentheses
  · intro hbinding
    cases parentheses with
    | true =>
      have hentity := hsound.entities c.entity (hsound.collections c hc).2
      exact navigation?_eq_none hentity (by simp [calledName])
    | false =>
      rw [calledName, if_neg Bool.false_ne_true, List.append_nil, String.ofList_toList]
      by_contra hsome
      exact hnavigation ⟨hbinding, rfl, Option.isSome_iff_ne_none.2 hsome⟩
  · exact hpath

/-- A path with the name of a navigation property behind a key leads to no operation. -/
theorem ne_invoke_of_leadsTo (hname : Draft.isName op.name = true)
    (h : LeadsTo c (calledName op.name false) op.binding rest address)
    (hbinding : op.binding = .entity) (hsome : (c.entity.navigation? op.name).isSome = true) :
    (resolve s site op.kind.method path).endpoint ≠ .ok (some (.invoke op)) := by
  obtain ⟨n, hn⟩ := Option.isSome_iff_exists.1 hsome
  have hlast := getLast_calledName (Draft.isClean_of_isName hname) false
  rw [calledName, if_neg Bool.false_ne_true, List.append_nil] at h hlast
  rw [hbinding] at h
  cases h with
  | entity htext =>
    rw [resolve_of_spellsKey hsound hc htext hlast site op.kind.method hpath]
    exact ne_invoke_of_navigation? hn _ _ op

/-- With the namespace before its name and `()` behind it, an operation is looked for under its
name, whatever that is. -/
theorem resolve_qualified
    (h : LeadsTo c (s.nameSpace.toList ++ '.' :: calledName op.name true) op.binding rest address) :
    resolve s site op.kind.method path
      = { address := address
          endpoint := .ok (boundOperation s c op.binding op.kind.method
            (s.nameSpace.toList ++ '.' :: calledName op.name true)) } := by
  have hsplit : s.nameSpace.toList ++ '.' :: calledName op.name true
      = s.nameSpace.toList ++ '.' :: op.name.toList ++ ['('] ++ [')'] := by
    simp [calledName]
  apply resolve_of_leadsTo hsound hc h
  · rw [hsplit, ← List.cons_append, List.getLast?_concat]
    decide
  · intro hsame
    have hpoint : '.' ∈ "$count".toList := by
      rw [← hsame]
      simp
    revert hpoint
    decide
  · intro _
    have hentity := hsound.entities c.entity (hsound.collections c hc).2
    exact navigation?_eq_none hentity (by simp [calledName])
  · exact hpath

end

/-- A registered operation under its documented path. With the method of its kind, a path that
spells the route path, the collection, a key of it where the operation is bound to entities, and the
name of the operation, with or without `()`, invokes that operation exactly if its name is not read
as another; the address then holds the collection and the key with its literal. With the namespace
before the name and `()` behind it the operation is invoked whatever it is named. -/
theorem invokes_iff_not_isHidden {d : Draft} {s : Schema} (hbuild : d.build = .ok s) (site : Site)
    {c : Collection} (hc : c ∈ s.collections) {op : Operation} (hop : op ∈ c.operations) :
    (∀ parentheses rest address,
      LeadsTo c (calledName op.name parentheses) op.binding rest address → ∀ path,
        Text.percentDecode? path = some (site.path.toList ++ '/' :: rest) →
          ((resolve s site op.kind.method path).endpoint = .ok (some (.invoke op)) ↔
            ¬ IsHidden s c op parentheses) ∧
          (¬ IsHidden s c op parentheses → resolve s site op.kind.method path
            = { address := address, endpoint := .ok (some (.invoke op)) })) ∧
      ∀ rest address,
        LeadsTo c (s.nameSpace.toList ++ '.' :: calledName op.name true) op.binding rest address →
          ∀ path, Text.percentDecode? path = some (site.path.toList ++ '/' :: rest) →
            resolve s site op.kind.method path
              = { address := address, endpoint := .ok (some (.invoke op)) } := by
  obtain ⟨hconsistent, rfl⟩ := Draft.build_eq_ok_iff.1 hbuild
  have hsound := Schema.sound_of_build hbuild
  have hname := hconsistent.isName_operation hc hop
  have hfound := boundOperation_eq_invoke_iff hconsistent.findsEach hc hop
  refine ⟨fun parentheses rest address h path hpath => ?_, fun rest address h path hpath => ?_⟩
  · by_cases hnavigation : op.binding = .entity ∧ parentheses = false ∧
        (c.entity.navigation? op.name).isSome = true
    · have hhidden : IsHidden d.linked c op parentheses := .inr hnavigation
      obtain ⟨hbinding, rfl, hsome⟩ := hnavigation
      have hother := ne_invoke_of_leadsTo hsound hc site hpath hname h hbinding hsome
      exact ⟨iff_of_false hother (not_not_intro hhidden), fun h => absurd hhidden h⟩
    · have hinvoked : boundOperation d.linked c op.binding op.kind.method
          (calledName op.name parentheses) = some (.invoke op) ↔
            ¬ IsHidden d.linked c op parentheses := by
        rw [hfound, operationName_calledName_iff (Draft.isClean_of_isName hname), IsHidden,
          or_iff_left hnavigation]
      rw [resolve_calledName hsound hc site hpath hname h hnavigation]
      refine ⟨?_, fun h => ?_⟩
      · rw [Except.ok.injEq, hinvoked]
      · rw [hinvoked.2 h]
  · rw [resolve_qualified hsound hc site hpath h, (hfound _).2 (operationName_qualified _ _)]

end Route

namespace Library

open Route

/-- A book is lent at its address, found by the name of its key, and also with the namespace before
the name. -/
theorem lend_invoked :
    let site : Site := { base := "http://localhost", path := "/odata" }
    let invoked : Resolution := {
      address := {
        collection := some { books with operations := [lend] }
        key := some (.ofInt 7), keyLiteral := some "7" }
      endpoint := .ok (some (.invoke lend)) }
    ¬ IsHidden lendingSchema { books with operations := [lend] } lend false ∧
      resolve lendingSchema site "POST" "/odata/Books(id=%207)/Lend" = invoked ∧
      resolve lendingSchema site "POST" "/odata/Books(7)/Library.Lend()" = invoked := by
  intro site invoked
  have hbooks : { books with operations := [lend] } ∈ lendingSchema.collections := by decide
  obtain ⟨hplain, hqualified⟩ :=
    invokes_iff_not_isHidden build_lendingDraft site hbooks List.mem_cons_self
  have hshown : ¬ IsHidden lendingSchema { books with operations := [lend] } lend false := by decide
  have hnamed : SpellsKey books.entity "id= 7".toList (.ofInt 7) := ⟨by decide, rfl⟩
  have hbare : SpellsKey books.entity "7".toList (.ofInt 7) := ⟨by decide, rfl⟩
  refine ⟨hshown, ?_, ?_⟩
  · exact (hplain false _ _ (.entity hnamed) _ (by decide +kernel)).2 hshown
  · exact hqualified _ _ (.entity hbare) _ (by decide +kernel)

/-! ## A library with hidden operations -/

/-- Ordering the author of a book, under the name of a navigation property. -/
def author : Operation :=
  { name := "Author", kind := .action, binding := .entity, handler := "author" }

/-- The newest books, under a name that begins like one with the namespace before it. -/
def newest : Operation :=
  { name := "Library.Newest", kind := .function, binding := .collection, handler := "newest" }

/-- The books with both operations. -/
def busyBooks : Collection := { books with operations := [author, newest] }

/-- The library with these books. -/
def hidingDraft : Draft := { draft with operations := [("Books", author), ("Books", newest)] }

/-- The schema of the library with these books. -/
def hidingSchema : Schema := { schema with collections := [authors, busyBooks, shelves] }

/-- Both operations are registered, and the paths that spell their names lead nowhere. The first is
invoked with `()` behind its name. -/
theorem hidden_not_invoked :
    let site : Site := { base := "http://localhost", path := "/odata" }
    hidingDraft.build = .ok hidingSchema ∧ busyBooks ∈ hidingSchema.collections ∧
      (∃ address, LeadsTo busyBooks (calledName author.name false) author.binding
        "Books(1)/Author".toList address) ∧
      (resolve hidingSchema site "POST" "/odata/Books(1)/Author").endpoint = .ok none ∧
      (resolve hidingSchema site "POST" "/odata/Books(1)/Author()").endpoint
        = .ok (some (.invoke author)) ∧
      (∃ address, LeadsTo busyBooks (calledName newest.name false) newest.binding
        "Books/Library.Newest".toList address) ∧
      (resolve hidingSchema site "GET" "/odata/Books/Library.Newest").endpoint = .ok none := by
  intro site
  have hkey : SpellsKey busyBooks.entity "1".toList (.ofInt 1) := ⟨by decide, rfl⟩
  exact ⟨rfl, by decide, ⟨_, .entity hkey⟩, by decide +kernel, by decide +kernel,
    ⟨_, .collection⟩, by decide +kernel⟩

end Library

end ODataEngine
