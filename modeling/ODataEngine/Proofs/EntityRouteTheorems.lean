import ODataEngine.Proofs.KeyTheorems
import ODataEngine.Proofs.StoreTheorems
import ODataEngine.Service.Basic

/-!
# Routes to entities

The address of an entity is the route path, the name of its collection and the literal of its key
between parentheses. `resolve_keyLiteral` says that it leads back to that entity, from any path that
spells it: the part after the route path begins with the name of one collection only, and the key in
it is read back as it was written.
-/

namespace ODataEngine.Route

/-! ## Under the route path -/

theorem dropStart_of_head {rest : List Char} (h : rest.head? ≠ some '/') :
    Text.dropStart '/' rest = rest := by
  cases rest with
  | nil => rfl
  | cons c rest =>
    have hc : (c == '/') = false := by simpa using h
    rw [Text.dropStart, List.dropWhile_cons_of_neg (by simp [hc])]

/-- Slashes around the route path and between it and the rest do not count. -/
theorem afterRoute?_append {rest : List Char} (hne : rest ≠ []) (hhead : rest.head? ≠ some '/')
    (hlast : rest.getLast? ≠ some '/') (routePath : List Char) :
    afterRoute? routePath (Text.dropAround '/' (routePath ++ '/' :: rest)) = some rest := by
  have hheadSlash : ∀ c, rest.head? = some c → (c == '/') = false := by
    rintro c hc
    exact beq_eq_false_iff_ne.2 fun he => hhead (he ▸ hc)
  have hlastSlash : ∀ c, rest.getLast? = some c → (c == '/') = false := by
    rintro c hc
    exact beq_eq_false_iff_ne.2 fun he => hlast (he ▸ hc)
  obtain ⟨b, b', hb, hb', hpath⟩ := Text.exists_eq_stripEnds (· == '/') routePath
  have hroute : ∀ c, (Text.dropAround '/' routePath).head? = some c → (c == '/') = false :=
    fun c hc => @Text.head_stripEnds (· == '/') routePath c hc
  rw [← Text.dropAround_eq_stripEnds] at hpath
  unfold afterRoute?
  generalize Text.dropAround '/' routePath = route at hpath hroute ⊢
  rw [hpath]
  by_cases hempty : route = []
  · -- all of the route path is slashes
    have hslashes : ∀ c ∈ b ++ b' ++ ['/'], (c == '/') = true := by
      simp only [List.forall_mem_append, List.forall_mem_singleton]
      exact ⟨⟨hb, hb'⟩, rfl⟩
    have hsplit : b ++ route ++ b' ++ '/' :: rest = b ++ b' ++ ['/'] ++ rest ++ [] := by
      simp [hempty]
    rw [hsplit, Text.dropAround_eq_stripEnds, Text.stripEnds_append hslashes (by simp),
      Text.stripEnds_eq_self hheadSlash hlastSlash, hempty]
    rfl
  · have hsplit : b ++ route ++ b' ++ '/' :: rest
        = b ++ (route ++ (b' ++ ['/']) ++ rest) ++ [] := by
      simp
    have hstart : Text.afterStart? route (route ++ (b' ++ ['/']) ++ rest)
        = some (b' ++ '/' :: rest) := by
      rw [Text.afterStart?_eq_some_iff]
      simp
    rw [hsplit, Text.dropAround_eq_stripEnds, Text.stripEnds_append hb (by simp),
      Text.stripEnds_between hempty hne hroute hlastSlash]
    simp only [List.isEmpty_iff, hempty, if_false, hstart]
    cases b' with
    | nil => exact congrArg some (dropStart_of_head hhead)
    | cons c b' =>
      obtain ⟨hc, htail⟩ := List.forall_mem_cons.1 hb'
      obtain rfl : c = '/' := by simpa using hc
      show some (Text.dropStart '/' (b' ++ '/' :: rest)) = some rest
      rw [Text.dropStart, List.dropWhile_append_of_pos htail, List.dropWhile_cons_of_pos (by rfl)]
      exact congrArg some (dropStart_of_head hhead)

/-! ## Into a collection -/

/-- May not stand in the name of a collection, but behind it. -/
def endsName (c : Char) : Bool := c == '/' || c == '('

theorem takeWhile_name {name : String} (h : Draft.IsClean name) (rest : List Char)
    (hrest : ∀ c, rest.head? = some c → endsName c = true) :
    (name.toList ++ rest).takeWhile (!endsName ·) = name.toList := by
  have hname : ∀ c ∈ name.toList, (!endsName c) = true := by
    intro c hc
    have hslash := h.ne_of_mem (d := '/') (by decide) hc
    have hopening := h.ne_of_mem (d := '(') (by decide) hc
    simp [endsName, hslash, hopening]
  rw [List.takeWhile_append_of_pos hname]
  cases rest with
  | nil => simp
  | cons c rest =>
    have hc := hrest c rfl
    rw [List.takeWhile_cons_of_neg (by simp [hc]), List.append_nil]

/-- A path that goes into a collection holds the name of it up to the first slash or parenthesis. -/
theorem name_of_afterCollection? {rest : List Char} {c : Collection}
    (hclean : Draft.IsClean c.name) {found : Collection × List Char}
    (h : afterCollection? rest c = some found) :
    rest.takeWhile (!endsName ·) = c.name.toList := by
  unfold afterCollection? at h
  split at h
  · next hafter =>
    rw [Text.afterStart?_eq_some_iff.1 hafter]
    exact takeWhile_name hclean [] (by simp)
  · next sep tail hafter =>
    split at h
    · next hsep =>
      rw [Text.afterStart?_eq_some_iff.1 hafter]
      apply takeWhile_name hclean
      rintro c hc
      obtain rfl : sep = c := by simpa using hc
      simpa [endsName] using hsep
    · cases h
  · cases h

/-- A path goes into one collection at most, also where the name of one begins that of another. -/
theorem eq_of_afterCollection? {s : Schema} (hsound : s.Sound) {path : List Char}
    {c c' : Collection} (hc : c ∈ s.collections) (hc' : c' ∈ s.collections)
    {found found' : Collection × List Char} (h : afterCollection? path c = some found)
    (h' : afterCollection? path c' = some found') : c = c' := by
  have hclean : ∀ c ∈ s.collections, Draft.IsClean c.name :=
    fun c hc => Draft.isClean_of_isName (hsound.collections c hc).1
  have hname := name_of_afterCollection? (hclean c hc) h
  rw [name_of_afterCollection? (hclean c' hc') h'] at hname
  exact hsound.eq_of_name_eq hc hc' (String.toList_inj.1 hname).symm

/-- The first collection that a path goes into is any that it goes into. -/
theorem findSome?_afterCollection_iff {s : Schema} (hsound : s.Sound) {path : List Char}
    {found : Collection × List Char} :
    s.collections.findSome? (afterCollection? path) = some found ↔
      ∃ c ∈ s.collections, afterCollection? path c = some found := by
  constructor
  · exact List.exists_of_findSome?_eq_some
  · intro h
    obtain ⟨c, hc, hafter⟩ := h
    cases hfirst : s.collections.findSome? (afterCollection? path) with
    | none =>
      rw [List.findSome?_eq_none_iff.1 hfirst c hc] at hafter
      cases hafter
    | some first =>
      obtain ⟨c', hc', hafter'⟩ := List.exists_of_findSome?_eq_some hfirst
      rw [← hafter', eq_of_afterCollection? hsound hc' hc hafter' hafter, hafter]

/-- A path that begins with the name of a collection, and with a slash or a parenthesis behind it,
goes into that collection and no other. -/
theorem findSome?_afterCollection {s : Schema} (hsound : s.Sound) {c : Collection}
    (hc : c ∈ s.collections) {sep : Char} (hsep : endsName sep = true) (rest : List Char) :
    s.collections.findSome? (afterCollection? (c.name.toList ++ sep :: rest))
      = some (c, sep :: rest) := by
  rw [findSome?_afterCollection_iff hsound]
  refine ⟨c, hc, ?_⟩
  have hstart : Text.afterStart? c.name.toList (c.name.toList ++ sep :: rest)
      = some (sep :: rest) := Text.afterStart?_eq_some_iff.2 rfl
  rw [afterCollection?, hstart]
  exact if_pos hsep

/-! ## To an entity -/

/-- No name begins with a slash. -/
theorem head_ne_slash {name : String} (h : Draft.IsClean name) (rest : List Char) :
    (name.toList ++ rest).head? ≠ some '/' := by
  obtain ⟨first, more, hcons⟩ := List.exists_cons_of_ne_nil h.1
  have hslash := h.ne_of_mem (d := '/') (by decide) (hcons ▸ List.mem_cons_self)
  rw [hcons]
  simpa using hslash

/-- What stands under the route path, if that is a collection with a key between parentheses. -/
theorem afterRoute?_entityPath {name : String} (hclean : Draft.IsClean name)
    {after : List Char} (hafter : after.getLast? ≠ some '/') (routePath text : List Char) :
    afterRoute? routePath
        (Text.dropAround '/' (routePath ++ '/' :: (name.toList ++ '(' :: (text ++ ')' :: after))))
      = some (name.toList ++ '(' :: (text ++ ')' :: after)) := by
  apply afterRoute?_append
  · simp
  · exact head_ne_slash hclean _
  · have hsplit : name.toList ++ '(' :: (text ++ ')' :: after)
        = name.toList ++ '(' :: text ++ [')'] ++ after := by
      simp
    rw [hsplit, List.getLast?_append, List.getLast?_concat]
    cases hend : after.getLast? with
    | none => simp
    | some d => rwa [hend] at hafter

/-- The names of collections do not begin like the path of the metadata. -/
theorem append_ne_metadata {name : String} (hname : Draft.isName name = true) (rest : List Char) :
    name.toList ++ rest ≠ "$metadata".toList := by
  have hclean := Draft.isClean_of_isName hname
  obtain ⟨first, more, hcons⟩ := List.exists_cons_of_ne_nil hclean.1
  have hdollar := Draft.head_of_isName hname
  intro he
  rw [hcons] at he hdollar
  have hfirst : first = '$' := (List.cons.inj he).1
  exact hdollar (by rw [hfirst]; rfl)

theorem resolveRest_entityPath {s : Schema} (hsound : s.Sound) {c : Collection}
    (hc : c ∈ s.collections) (method : String) (body : List Char) :
    resolveRest s method (c.name.toList ++ '(' :: body) = resolveEntity s c method body := by
  have hmetadata := append_ne_metadata (hsound.collections c hc).1 ('(' :: body)
  rw [resolveRest, if_neg (by simp), if_neg hmetadata, findSome?_afterCollection hsound hc rfl]
  rfl

/-- A path that spells a key leads behind the key. -/
theorem resolve_of_spellsKey {s : Schema} (hsound : s.Sound) {c : Collection}
    (hc : c ∈ s.collections) {text : List Char} {v : Json} (htext : SpellsKey c.entity text v)
    {after : List Char} (hafter : after.getLast? ≠ some '/') (site : Site) (method : String)
    {path : String} (hpath : Text.percentDecode? path
      = some (site.path.toList ++ '/' :: (c.name.toList ++ '(' :: (text ++ ')' :: after)))) :
    resolve s site method path
      = resolveAfterKey s c
          { collection := some c, key := some v
            keyLiteral := some (c.entity.keyType.keyLiteral v) } method after := by
  have hclean := Draft.isClean_of_isName (hsound.collections c hc).1
  have hrest := afterRoute?_entityPath hclean hafter site.path.toList text
  rw [resolve, hpath]
  simp only [hrest, resolveRest_entityPath hsound hc]
  rw [resolveEntity, htext.splitKey]
  simp only [htext.read]

/-- A path that writes a key in some way leads behind the key. -/
theorem resolve_of_isLiteral {s : Schema} (hsound : s.Sound) {c : Collection}
    (hc : c ∈ s.collections) {literal inner text : List Char} (hliteral : IsLiteral literal inner)
    {v : Json} (hv : c.entity.keyType.coerce (String.ofList inner) = .ok v)
    (htext : WritesKey c.entity literal text) {after : List Char}
    (hafter : after.getLast? ≠ some '/') (site : Site) (method : String) {path : String}
    (hpath : Text.percentDecode? path
      = some (site.path.toList ++ '/' :: (c.name.toList ++ '(' :: (text ++ ')' :: after)))) :
    resolve s site method path
      = resolveAfterKey s c
          { collection := some c, key := some v
            keyLiteral := some (c.entity.keyType.keyLiteral v) } method after := by
  have hkey := Draft.isClean_key (hsound.entities c.entity (hsound.collections c hc).2)
  exact resolve_of_spellsKey hsound hc (htext.spellsKey hkey hliteral hv) hafter site method hpath

/-- A path that writes the literal of a key leads behind the key. -/
theorem resolve_of_writesKey {s : Schema} (hsound : s.Sound) {c : Collection}
    (hc : c ∈ s.collections) (ht : c.entity.keyType.isFloating = false) {raw : String} {v : Json}
    (hv : c.entity.keyType.coerce raw = .ok v) {text : List Char}
    (htext : WritesKey c.entity (c.entity.keyType.keyLiteral v).toList text) {after : List Char}
    (hafter : after.getLast? ≠ some '/') (site : Site) (method : String) {path : String}
    (hpath : Text.percentDecode? path
      = some (site.path.toList ++ '/' :: (c.name.toList ++ '(' :: (text ++ ')' :: after)))) :
    resolve s site method path
      = resolveAfterKey s c
          { collection := some c, key := some v
            keyLiteral := some (c.entity.keyType.keyLiteral v) } method after :=
  resolve_of_isLiteral hsound hc (isLiteral_keyLiteral ht hv) (EdmType.coerce_keyText ht hv) htext
    hafter site method hpath

theorem entityEndpoint_of_not_mem {method : String}
    (h : method ∉ ["GET", "PUT", "PATCH", "DELETE"]) : entityEndpoint method = none := by
  simp only [List.mem_cons, List.not_mem_nil, or_false, not_or] at h
  obtain ⟨hget, hput, hpatch, hdelete⟩ := h
  simp only [entityEndpoint]

/-- The name of a navigation property in any case does not end with a slash. -/
theorem getLast_navigation {e : EntityType} (h : e.Sound) {n : Navigation}
    (hn : n ∈ e.navigations) {name : String} (hname : Text.sameName n.name name = true) :
    ('/' :: name.toList).getLast? ≠ some '/' := by
  rw [Text.sameName_comm] at hname
  have hclean := (Draft.isClean_of_isName (h.navigationNames n hn)).of_sameName hname
  obtain ⟨c, rest, hcons⟩ := List.exists_cons_of_ne_nil hclean.1
  intro hlast
  rw [hcons, List.getLast?_cons_cons, ← hcons] at hlast
  exact hclean.ne_of_mem (by decide) (List.mem_of_getLast? hlast) rfl

/-- Behind a key, the name of a navigation property in any case is bound to it. -/
theorem resolveAfterKey_navigation {c : Collection} (h : c.entity.Sound) {n : Navigation}
    (hn : n ∈ c.entity.navigations) {name : String} (hname : Text.sameName n.name name = true)
    (s : Schema) (address : Address) :
    resolveAfterKey s c address "GET" ('/' :: name.toList)
      = { address := { address with navigation := some n }
          endpoint := .ok (some (navigationEndpoint n)) } := by
  rw [resolveAfterKey, String.ofList_toList, h.navigation?_eq_some hn hname]
  rfl

/-- The literal of a key leads back to the entity. Under a built schema, a path that spells the
route path, a collection and the literal of a key between parentheses, bare or behind the name of
the key, is resolved to that collection, with its own store, to that key and to that literal; the
method decides what is asked for there. Behind the key, the name of a navigation property in any
case is bound to that property. So two keys of a collection never have the same literal. -/
theorem resolve_keyLiteral {d : Draft} {s : Schema} (hbuild : d.build = .ok s) (site : Site)
    {c : Collection} (hc : c ∈ s.collections) (ht : c.entity.keyType.isFloating = false)
    {raw : String} {v : Json} (hv : c.entity.keyType.coerce raw = .ok v) :
    let literal := c.entity.keyType.keyLiteral v
    let address : Address := { collection := some c, key := some v, keyLiteral := some literal }
    (∀ text, WritesKey c.entity literal.toList text → ∀ path,
      (Text.percentDecode? path
          = some (site.path.toList ++ '/' :: (c.name.toList ++ '(' :: (text ++ [')']))) →
        resolve s site "GET" path = { address := address, endpoint := .ok (some .get) } ∧
        resolve s site "PUT" path = { address := address, endpoint := .ok (some .replace) } ∧
        resolve s site "PATCH" path = { address := address, endpoint := .ok (some .patch) } ∧
        resolve s site "DELETE" path = { address := address, endpoint := .ok (some .delete) } ∧
        ∀ method, method ∉ ["GET", "PUT", "PATCH", "DELETE"] →
          resolve s site method path = { address := address, endpoint := .ok none }) ∧
      ∀ n ∈ c.entity.navigations, ∀ name, Text.sameName n.name name = true →
        Text.percentDecode? path = some (site.path.toList ++
            '/' :: (c.name.toList ++ '(' :: (text ++ ')' :: '/' :: name.toList))) →
          resolve s site "GET" path = {
            address := { address with navigation := some n }
            endpoint := .ok (some (match n.multiplicity with
              | .one => .navigationGet
              | .many => .navigationList)) }) ∧
      (∀ sv : Service, ∀ records, sv.stores = s.fill records →
        sv.storeOf c = .ok (.new c.entity (records c.name))) ∧
      ∀ raw' v', c.entity.keyType.coerce raw' = .ok v' →
        c.entity.keyType.keyLiteral v' = literal → v' = v := by
  have hsound := Schema.sound_of_build hbuild
  have hentity := hsound.entities c.entity (hsound.collections c hc).2
  intro literal address
  refine ⟨fun text htext path => ⟨fun hpath => ?_, fun n hn name hname hpath => ?_⟩, ?_, ?_⟩
  · have hall : ∀ method, resolve s site method path
        = { address := address, endpoint := .ok (entityEndpoint method) } :=
      fun method => resolve_of_writesKey hsound hc ht hv htext (by simp) site method hpath
    refine ⟨hall "GET", hall "PUT", hall "PATCH", hall "DELETE", fun method h => ?_⟩
    rw [hall method, entityEndpoint_of_not_mem h]
  · have hlast := getLast_navigation hentity hn hname
    rw [resolve_of_writesKey hsound hc ht hv htext hlast site "GET" hpath,
      resolveAfterKey_navigation hentity hn hname]
    rfl
  · intro sv records hstores
    rw [Service.storeOf, hstores, hsound.store?_fill records hc]
  · exact fun raw' v' hv' h => eq_of_keyLiteral_eq ht hv' hv h

/-- A label made of delimiters leads to its shelf, and on to the books there, also behind the name
of the key in another case and with blanks. -/
theorem resolve_keyLiteral_library :
    let site : Site := { base := "http://localhost", path := "/odata" }
    let address : Address := {
      collection := some Library.shelves, key := some (.string "O'Neil (a/b), c=d)")
      keyLiteral := some "'O''Neil (a/b), c=d)'" }
    resolve Library.schema site "PATCH" "/odata/Shelves('O''Neil%20(a/b),%20c=d)')"
        = { address := address, endpoint := .ok (some .patch) } ∧
      resolve Library.schema site "GET"
          "/odata/Shelves(%20lABEL%20=%20'O''Neil%20(a/b),%20c%3Dd)'%20)/bOOKS"
        = { address := { address with
              navigation := some ⟨"Books", "Books", "Book", .many, ⟨.keyList, "BookIds", "Id"⟩⟩ }
            endpoint := .ok (some .navigationList) } := by
  intro site address
  have hmem : Library.shelves ∈ Library.schema.collections := by decide
  have hlabel : Library.shelves.entity.keyType.coerce "O'Neil (a/b), c=d)"
      = .ok (.string "O'Neil (a/b), c=d)") := rfl
  have hpaths := (resolve_keyLiteral Library.build_draft site hmem rfl hlabel).1
  refine ⟨?_, ?_⟩
  · exact ((hpaths _ .bare _).1 (by decide +kernel)).2.2.1
  · have hnamed : WritesKey Library.shelves.entity "'O''Neil (a/b), c=d)'".toList
        " lABEL = 'O''Neil (a/b), c=d)' ".toList :=
      @WritesKey.named _ _ "lABEL" [' '] [' '] [' '] [' '] rfl rfl rfl rfl rfl
    exact (hpaths _ hnamed _).2 _ List.mem_cons_self "bOOKS" rfl (by decide +kernel)

end ODataEngine.Route
