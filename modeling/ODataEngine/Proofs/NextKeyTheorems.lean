import ODataEngine.Proofs.BodyTheorems
import ODataEngine.Proofs.KeyMapTheorems
import ODataEngine.Proofs.RunTheorems
import ODataEngine.Proofs.SortOrderTheorems

/-!
# Keys that stores make

A store with integer keys gives a record without a key the integer after the greatest one that it
holds. It looks at the integers of 64 bits with sign only and checks the result against the upper
bound of the key type. The keys that bodies give are not checked at all, so there are two ways for
the new key to go wrong: it lies below the type where all keys do, and next to 2⁶³ it is not new,
since greater integers are compared as doubles (`JsonNumber.order_int_eq_iff`).
`Service.addsKeyless_afterAll` says what comes of such an addition after any run of requests.
-/

namespace ODataEngine

/-! ## Integers that are one double -/

/-- Doubles lie 1024 apart below 2⁶³ and 2048 apart above it; half way between two of them an
integer goes to the even one. -/
theorem Binary64.signedRank_near_two_pow_63 :
    (ofInt (2 ^ 63 - 513)).signedRank < (ofInt (2 ^ 63)).signedRank ∧
      (ofInt (2 ^ 63 - 512)).signedRank = (ofInt (2 ^ 63)).signedRank ∧
      (ofInt (2 ^ 63 + 1024)).signedRank = (ofInt (2 ^ 63)).signedRank ∧
      (ofInt (2 ^ 63)).signedRank < (ofInt (2 ^ 63 + 1025)).signedRank := by
  decide +kernel

/-- An integer of 64 bits ties with one that has a sign only if they are equal, or if both have the
double 2⁶³. -/
theorem JsonNumber.order_int_eq_iff {n k : ℤ} (hn : (int n).Fits) (hk : -2 ^ 63 ≤ k)
    (hk' : k < 2 ^ 63) : (int n).order (int k) = .eq ↔
      n = k ∨ (2 ^ 63 - 512 ≤ k ∧ 2 ^ 63 ≤ n ∧ n ≤ 2 ^ 63 + 1024) := by
  obtain ⟨hlow, hhigh⟩ := hn
  have hk64 : (int k).int64? = some k := if_pos hk'
  by_cases hn' : n < 2 ^ 63
  · have hn64 : (int n).int64? = some n := if_pos hn'
    rw [order_of_int64 hn64 hk64, Std.LawfulEqCmp.compare_eq_iff_eq]
    omega
  · -- the greater integer is compared as a double
    have hn64 : (int n).int64? = none := if_neg hn'
    have hdoubles : (int n).order (int k) = (Binary64.ofInt n).order (Binary64.ofInt k) := by
      rw [order, hn64]
      rfl
    rw [hdoubles, Binary64.order_eq_eq_iff]
    obtain ⟨hbelow, hfirst, hlast, habove⟩ := Binary64.signedRank_near_two_pow_63
    have hmono {x y : ℤ} (hxy : x ≤ y) (hx : -2 ^ 64 ≤ x) (hy : y ≤ 2 ^ 64) :=
      Binary64.signedRank_ofInt_mono hxy hx hy
    -- the double 2⁶³ lies between the two, so both have it if they tie
    have hleft := @hmono (2 ^ 63) n (by omega) (by omega) (by omega)
    have hright := @hmono k (2 ^ 63) (by omega) (by omega) (by omega)
    constructor
    · intro hrank
      refine .inr ⟨?_, by omega, ?_⟩
      · by_contra hfar
        have hk513 := @hmono k (2 ^ 63 - 513) (by omega) (by omega) (by omega)
        omega
      · by_contra hfar
        have hn1025 := @hmono (2 ^ 63 + 1025) n (by omega) (by omega) (by omega)
        omega
    · rintro (rfl | ⟨hnear, -, hsmall⟩)
      · rfl
      · have hn1024 := @hmono n (2 ^ 63 + 1024) (by omega) (by omega) (by omega)
        have hk512 := @hmono (2 ^ 63 - 512) k (by omega) (by omega) (by omega)
        omega

/-! ## Keys of the kind that bodies give -/

theorem EdmType.integerRange_around (t : EdmType) :
    t.integerRange.1 ≤ 0 ∧ t.integerRange.2 < 2 ^ 63 := by
  cases t <;> decide

/-- The value is no number, or an integer of 64 bits, with sign or without. -/
def Json.FitsInteger (v : Json) : Prop := ∀ n, v = .number n → n.isInteger = true ∧ n.Fits

theorem Json.FitsInteger.exists_ofInt {v : Json} (h : v.FitsInteger) {m : JsonNumber}
    (hv : v = .number m) : ∃ n, v = .ofInt n ∧ (JsonNumber.int n).Fits := by
  obtain ⟨hinteger, hfits⟩ := h m hv
  cases m with
  | int n => exact ⟨n, hv, hfits⟩
  | float x => cases hinteger

theorem Json.fitsInteger_ofInt {n : ℤ} (hlow : -2 ^ 63 ≤ n) (hhigh : n < 2 ^ 64) :
    (Json.ofInt n).FitsInteger := by
  rintro m ⟨⟩
  exact ⟨rfl, hlow, hhigh⟩

namespace Store

/-- The integer is a key among the records. -/
def HasInteger (e : EntityType) (records : List Record) (n : ℤ) : Prop :=
  ∃ r ∈ records, r.valueOf e.key = .ofInt n

/-- The greatest integer of 64 bits with sign among the keys, zero if there is none. -/
structure HasGreatest (e : EntityType) (records : List Record) (g : ℤ) : Prop where
  le : ∀ n, HasInteger e records n → n < 2 ^ 63 → n ≤ g
  attained : (HasInteger e records g ∧ g < 2 ^ 63) ∨
    (g = 0 ∧ ∀ n, HasInteger e records n → 2 ^ 63 ≤ n)

/-- The keys of the records are integers of 64 bits, or no numbers. -/
def FitKeys (e : EntityType) (records : List Record) : Prop :=
  ∀ r ∈ records, (r.valueOf e.key).FitsInteger

/-- The integer has the double 2⁶³, and so has a key that is no integer of 64 bits with sign. -/
structure Clashes (e : EntityType) (records : List Record) (k : ℤ) : Prop where
  near : 2 ^ 63 - 512 ≤ k
  beyond : ∃ n, HasInteger e records n ∧ 2 ^ 63 ≤ n ∧ n ≤ 2 ^ 63 + 1024

/-- The failure where the key type has no integer above the greatest key. -/
def noKeyLeft (e : EntityType) (g : ℤ) : StoreError :=
  .invalid s!"no {e.keyType.qualifiedName} key left after {g} for '{e.key}'"

/-- What comes of adding a record without a key to records whose greatest integer key is `g`. -/
inductive AddsKeyless (e : EntityType) (records : List Record) (fresh : String) (r : Record)
    (g : ℤ) : Prop
  /-- No key is left, and nothing changes. -/
  | full (hmax : e.keyType.integerRange.2 ≤ g)
      (h : (new e records).perform fresh (.add r) = (.error (noKeyLeft e g), new e records))
  /-- The next key is ordered as equal to another, and nothing changes. -/
  | taken (hmax : g < e.keyType.integerRange.2) (hclashes : Clashes e records (g + 1))
      (h : (new e records).perform fresh (.add r) =
        (.error (.conflict (Json.ofInt (g + 1)).render), new e records))
  /-- The record stands at the end under the next key, which is no key of another. It is below the
  type only where the greatest key is. -/
  | added (hmax : g < e.keyType.integerRange.2) (hclashes : ¬ Clashes e records (g + 1))
      (hnew : ∀ r' ∈ records, (r'.valueOf e.key).sameKey (.ofInt (g + 1)) = false)
      (hmin : e.keyType.integerRange.1 ≤ g + 1 ∨
        HasInteger e records g ∧ g + 1 < e.keyType.integerRange.1)
      (h : (new e records).perform fresh (.add r) =
        (.ok (.stored (r.insert e.key (.ofInt (g + 1)))),
          new e (records ++ [r.insert e.key (.ofInt (g + 1))])))

section

variable {e : EntityType} {records : List Record}

/-! ## The greatest key -/

theorem integerKey?_eq_some_iff {v : Json} {n : ℤ} :
    integerKey? v = some n ↔ v = .ofInt n ∧ n < 2 ^ 63 := by
  constructor
  · intro h
    cases v with
    | number m =>
      obtain ⟨rfl, hn⟩ := JsonNumber.eq_int_of_int64? h
      exact ⟨rfl, hn⟩
    | _ => cases h
  · rintro ⟨rfl, hn⟩
    exact if_pos hn

theorem hasGreatest_greatestKey (e : EntityType) (records : List Record) :
    HasGreatest e records (new e records).greatestKey := by
  have hle : ∀ n, HasInteger e records n → n < 2 ^ 63 → n ≤ (new e records).greatestKey := by
    rintro n ⟨r, hr, hkey⟩ hn
    have hinteger : integerKey? ((new e records).keyOf r) = some n :=
      integerKey?_eq_some_iff.2 ⟨hkey, hn⟩
    exact KeyMap.le_greatestKey hr hinteger
  refine ⟨hle, ?_⟩
  rw [greatestKey]
  cases hmax : ((new e records).records.filterMap
      fun r => integerKey? ((new e records).keyOf r)).max? with
  | some g =>
    obtain ⟨r, hr, hg⟩ := List.mem_filterMap.1 (List.max?_mem hmax)
    obtain ⟨hkey, hsmall⟩ := integerKey?_eq_some_iff.1 hg
    exact .inl ⟨⟨r, hr, hkey⟩, hsmall⟩
  | none =>
    refine .inr ⟨rfl, ?_⟩
    rintro n ⟨r, hr, hkey⟩
    by_contra hsmall
    have hmem : n ∈ (new e records).records.filterMap
        fun r => integerKey? ((new e records).keyOf r) :=
      List.mem_filterMap.2 ⟨r, hr, integerKey?_eq_some_iff.2 ⟨hkey, by omega⟩⟩
    rw [List.max?_eq_none_iff.1 hmax] at hmem
    cases hmem

theorem FitKeys.fits (hfit : FitKeys e records) {n : ℤ} (h : HasInteger e records n) :
    (JsonNumber.int n).Fits := by
  obtain ⟨r, hr, hkey⟩ := h
  exact (hfit r hr _ hkey).2

theorem HasGreatest.low {g : ℤ} (h : HasGreatest e records g) (hfit : FitKeys e records) :
    -2 ^ 63 ≤ g := by
  rcases h.attained with ⟨hkey, -⟩ | ⟨rfl, -⟩
  · exact (hfit.fits hkey).1
  · decide

/-! ## Is the next key new? -/

/-- A key is the same as the integer after the greatest just if the two clash. -/
theorem exists_sameKey_iff (hfit : FitKeys e records) {g : ℤ} (hg : HasGreatest e records g)
    (hsmall : g + 1 < 2 ^ 63) :
    (∃ r ∈ records, (r.valueOf e.key).sameKey (.ofInt (g + 1)) = true) ↔
      Clashes e records (g + 1) := by
  have hlow := hg.low hfit
  have hsame {n : ℤ} (hn : (JsonNumber.int n).Fits) :
      (Json.ofInt n).sameKey (.ofInt (g + 1)) = true ↔
        n = g + 1 ∨ (2 ^ 63 - 512 ≤ g + 1 ∧ 2 ^ 63 ≤ n ∧ n ≤ 2 ^ 63 + 1024) := by
    rw [← JsonNumber.order_int_eq_iff hn (by omega) hsmall, Json.sameKey, beq_iff_eq]
    exact Option.some_inj
  constructor
  · rintro ⟨r, hr, hsamekey⟩
    -- only numbers compare equal to a number
    cases hkey : r.valueOf e.key with
    | number m =>
      obtain ⟨n, hn, hfits⟩ := (hfit r hr).exists_ofInt hkey
      rw [hn] at hsamekey
      have hstored : HasInteger e records n := ⟨r, hr, hn⟩
      rcases (hsame hfits).1 hsamekey with rfl | ⟨hnear, hbeyond⟩
      · -- no key is above the greatest one
        have hle := hg.le (g + 1) hstored hsmall
        omega
      · exact ⟨hnear, n, hstored, hbeyond⟩
    | _ =>
      rw [hkey] at hsamekey
      cases hsamekey
  · rintro ⟨hnear, n, ⟨r, hr, hkey⟩, hbeyond⟩
    have hfits := hfit.fits ⟨r, hr, hkey⟩
    refine ⟨r, hr, ?_⟩
    rw [hkey]
    exact (hsame hfits).2 (.inr ⟨hnear, hbeyond⟩)

theorem nextKey_of_isInteger (hinteger : e.keyType.isInteger = true) (fresh : String) :
    (new e records).nextKey fresh =
      if (new e records).greatestKey + 1 ≤ e.keyType.integerRange.2 then
        .ok (.ofInt ((new e records).greatestKey + 1))
      else .error (noKeyLeft e (new e records).greatestKey) :=
  if_pos hinteger

/-- A record without a key is added under the next one. -/
theorem add_of_isNull {r : Record} (hnull : (r.valueOf e.key).isNull = true) (fresh : String) :
    (new e records).add fresh r = (new e records).nextKey fresh >>= fun key =>
      if ((new e records).lookup? key).isSome then .error (.conflict key.render)
      else .ok (r.insert e.key key, new e (records ++ [r.insert e.key key])) := by
  have hkeyFor := @keyFor_of_isNull (new e records) r hnull fresh
  rw [add_eq, guarded_of_not_refused rfl, hkeyFor]
  rfl

/-- Adding a record without a key to records with integer keys goes one of three ways. -/
theorem addsKeyless (hinteger : e.keyType.isInteger = true) (hfit : FitKeys e records)
    (fresh : String) {r : Record} (hnull : (r.valueOf e.key).isNull = true) :
    ∃ g, HasGreatest e records g ∧ AddsKeyless e records fresh r g := by
  have hg := hasGreatest_greatestKey e records
  have hnext := @nextKey_of_isInteger e records hinteger fresh
  generalize (new e records).greatestKey = g at hg hnext
  obtain ⟨hmin, hbound⟩ := e.keyType.integerRange_around
  refine ⟨g, hg, ?_⟩
  by_cases hmax : g < e.keyType.integerRange.2
  · have hsmall : g + 1 < 2 ^ 63 := by omega
    rw [if_pos (by omega)] at hnext
    have hsame := exists_sameKey_iff hfit hg hsmall
    cases hlookup : (new e records).lookup? (.ofInt (g + 1)) with
    | some old =>
      obtain ⟨before, after, hrecords, haddresses⟩ := lookup?_eq_some_iff.1 hlookup
      have hmem : old ∈ records := by
        rw [hrecords]
        exact List.mem_append_right _ List.mem_cons_self
      refine .taken hmax (hsame.1 ⟨old, hmem, haddresses.hit⟩) ?_
      rw [perform, add_of_isNull hnull, hnext, ok_bind, hlookup]
      rfl
    | none =>
      have hnew := lookup?_eq_none_iff.1 hlookup
      refine .added hmax (fun hclashes => ?_) hnew ?_ ?_
      · obtain ⟨r', hr', hhit⟩ := hsame.2 hclashes
        rw [hnew r' hr'] at hhit
        cases hhit
      · by_cases hbelow : g + 1 < e.keyType.integerRange.1
        · -- zero, the greatest key where there is none, is in every type
          refine .inr ⟨?_, hbelow⟩
          rcases hg.attained with ⟨hstored, -⟩ | ⟨rfl, -⟩
          · exact hstored
          · omega
        · exact .inl (by omega)
      · rw [perform, add_of_isNull hnull, hnext, ok_bind, hlookup]
        rfl
  · refine .full (by omega) ?_
    rw [if_neg (by omega)] at hnext
    rw [perform, add_of_isNull hnull, hnext]
    rfl

/-! ## What keeps the keys integers -/

/-- The key that a record is added under is an integer if its own is. -/
theorem FitKeys.key (hfit : FitKeys e records) (hinteger : e.keyType.isInteger = true)
    {fresh : String} {r : Record} (hr : (r.valueOf e.key).FitsInteger) {key : Json}
    (hkey : key = (new e records).keyOf r ∧ key.isNull = false ∨
      (new e records).nextKey fresh = .ok key) : key.FitsInteger := by
  rcases hkey with ⟨rfl, -⟩ | hmade
  · exact hr
  · rw [nextKey_of_isInteger hinteger] at hmade
    split at hmade
    · next hroom =>
      cases hmade
      have hlow := (hasGreatest_greatestKey e records).low hfit
      have hbound := e.keyType.integerRange_around.2
      exact Json.fitsInteger_ofInt (by omega) (by omega)
    · cases hmade

/-- Setting other members keeps the keys. -/
theorem FitKeys.changeFirst (hfit : FitKeys e records) {patch : Record}
    (hpatch : e.key ∉ patch.names) (test : Record → Bool) :
    FitKeys e (changeFirst test (·.insertAll patch) records) := by
  intro r hr
  rcases mem_changeFirst hr with hr | ⟨r₀, hr₀, rfl⟩
  · exact hfit r hr
  · rw [Record.valueOf, Record.get?_insertAll_of_not_mem hpatch]
    exact hfit r₀ hr₀

end

end Store

/-- The values in a body can be written. -/
def Json.FitsBody (body : Option Json) : Prop :=
  ∀ members, body = some (.object members) → ∀ m ∈ members, m.2.Fits

theorem Record.mem_of_given? {members : Record} {name : String} {v : Json}
    (h : members.given? name = some v) : ∃ m ∈ members, m.2 = v := by
  obtain ⟨m, hm, rfl⟩ := Option.map_eq_some_iff.1 h
  exact ⟨m, List.mem_of_mem_filter (List.mem_of_getLast? hm), rfl⟩

/-- The key that a body gives is an integer, if it is a number at all. -/
theorem EntityType.Sound.fitsInteger_ofBody {e : EntityType} (hsound : e.Sound)
    (hinteger : e.keyType.isInteger = true) {body : Option Json} (hfits : Json.FitsBody body)
    {r : Record} (hbody : e.ofBody body = .ok r) : (r.valueOf e.key).FitsInteger := by
  intro n hvalue
  have hget : r.get? e.key = some (.number n) := by
    rw [← hvalue]
    exact Record.get?_of_valueOf (by rw [hvalue]; rfl)
  obtain ⟨members, rfl, -⟩ := exists_of_ofBody hbody
  obtain ⟨f, hf, hname, haccepts⟩ := (ofBody_spec hbody).1 _ (Record.mem_of_get? hget)
  refine ⟨?_, ?_⟩
  · -- the field of the key has the key type
    have hsame : Text.sameName f.name e.key = true := by
      rw [hname]
      exact Text.sameName_refl e.key
    have hfield := hsound.field?_eq_some hf hsame
    have htype : e.keyType = f.type := by
      rw [keyType, typeOf?, hfield]
      rfl
    have hnumber : f.type.accepts (.number n) = true := ((Bool.and_eq_true _ _).mp haccepts).2
    rw [EdmType.accepts, ← htype, if_pos hinteger] at hnumber
    exact hnumber
  · rw [hsound.get?_ofBody hbody] at hget
    split at hget
    · obtain ⟨m, hm, hvalue⟩ := Record.mem_of_given? hget
      exact hfits members rfl m hm n hvalue
    · cases hget

namespace Service

variable {sv : Service} {c : Collection}

/-! ## Runs of requests -/

/-- The store of the collection is one of its entity type, with keys that are integers of 64 bits,
or no numbers. -/
def StoresFitKeys (c : Collection) (stores : Stores) : Prop :=
  ∃ records, stores.store? c.name = some (.new c.entity records) ∧ Store.FitKeys c.entity records

theorem storesFitKeys_put {s : Store} (hs : sv.stores.store? c.name = some s)
    {records : List Record} (hfit : Store.FitKeys c.entity records) :
    StoresFitKeys c (sv.stores.put c.name (.new c.entity records)) :=
  ⟨records, Stores.store?_put_self hs _, hfit⟩

section

variable (h : StoresFitKeys c sv.stores)

include h

/-- The store at hand is that of the collection. -/
theorem exists_fitKeys_of_storeOf {s : Store} (hs : sv.storeOf c = .ok s) :
    ∃ records, s = .new c.entity records ∧ sv.stores.store? c.name = some s ∧
      Store.FitKeys c.entity records := by
  obtain ⟨records, hrecords, hfit⟩ := h
  have hstore := store?_of_storeOf hs
  exact ⟨records, Option.some.inj (hstore.symm.trans hrecords), hstore, hfit⟩

theorem storesFitKeys_create (hsound : c.entity.Sound)
    (hinteger : c.entity.keyType.isInteger = true) (fresh : String) (q : Query)
    {body : Option Json} (hfits : Json.FitsBody body) :
    StoresFitKeys c (sv.create fresh c q body).2 := by
  refine keeps_attempt h fun r hr => keeps_attempt h fun s hs => ?_
  refine keeps_attempt h fun (stored, s') hadd => ?_
  obtain ⟨records, rfl, hstore, hfit⟩ := exists_fitKeys_of_storeOf h hs
  obtain ⟨key, hkey, -, rfl, rfl⟩ := Store.add_spec (eq_ok_of_during hadd)
  refine storesFitKeys_put hstore (List.forall_mem_append.2 ⟨hfit, ?_⟩)
  intro r' hr'
  obtain rfl := List.mem_singleton.1 hr'
  have hvalue : (r.insert c.entity.key key).valueOf c.entity.key = key :=
    Record.valueOf_of_get? (Record.get?_insert_self r c.entity.key key)
  show ((r.insert c.entity.key key).valueOf c.entity.key).FitsInteger
  rw [hvalue]
  exact hfit.key hinteger (hsound.fitsInteger_ofBody hinteger hfits hr) hkey

theorem storesFitKeys_write (key : Json) (display : String) (body : Option Json)
    (replacement : Replacement) :
    StoresFitKeys c (sv.write c key display body replacement).2 := by
  refine keeps_attempt h fun r hr => keeps_attempt h fun patch hpatch => ?_
  refine keeps_attempt h fun s hs => keeps_attempt h fun (stored, s') hupdate => ?_
  obtain ⟨records, rfl, hstore, hfit⟩ := exists_fitKeys_of_storeOf h hs
  obtain rfl := Store.update_spec (eq_ok_of_atEntity hupdate)
  obtain ⟨hmembers, hnames⟩ := EntityType.ofBody_spec hr
  have hother := (patchOf_spec hpatch hmembers hnames).2
  exact storesFitKeys_put hstore (hfit.changeFirst hother _)

theorem storesFitKeys_delete (key : Json) (display : String) :
    StoresFitKeys c (sv.delete c key display).2 := by
  refine keeps_attempt h fun s hs => keeps_attempt h fun s' hremove => ?_
  obtain ⟨records, rfl, hstore, hfit⟩ := exists_fitKeys_of_storeOf h hs
  obtain rfl := Store.remove_spec (eq_ok_of_atEntity hremove)
  exact storesFitKeys_put hstore fun r hr => hfit r (List.mem_of_mem_eraseP hr)

/-- A request to a built-in operation keeps the keys integers, whichever collection it goes to. -/
theorem storesFitKeys_answer (hsound : sv.schema.Sound) (hc : c ∈ sv.schema.collections)
    (hinteger : c.entity.keyType.isInteger = true) (fresh : String) {request : Request}
    (hbuiltIn : sv.invokes request = false) (hfits : Json.FitsBody request.body) :
    StoresFitKeys c (sv.answer fresh request).2 := by
  rcases answer_cases sv fresh request with
    ⟨result, hresult⟩ | ⟨a, endpoint, hfound, c', hc', -, q, -, hanswer⟩
  · have hsame : sv.answer fresh request = (result, sv.stores) := hresult sv.stores
    rw [hsame]
    exact h
  have hnotInvoked := ne_invoke_of_resolve hbuiltIn hfound
  rw [hanswer]
  -- a request to another collection leaves this store alone
  by_cases hname : c'.name = c.name
  · obtain rfl := hsound.eq_of_name_eq hc' hc hname
    have hentity := hsound.entities c'.entity (hsound.collections c' hc').2
    cases endpoint with
    | serviceDocument | metadata | list | count => exact h
    | create => exact storesFitKeys_create h hentity hinteger fresh q hfits
    | get | navigationGet | navigationList => exact keeps_attempt h fun key _ => h
    | replace | patch => exact keeps_attempt h fun key _ => storesFitKeys_write h key _ _ _
    | delete => exact keeps_attempt h fun key _ => storesFitKeys_delete h key _
    | invoke op => exact absurd rfl (hnotInvoked op)
  · obtain ⟨records, hrecords, hfit⟩ := h
    refine ⟨records, ?_, hfit⟩
    rcases wrote_answerAt sv fresh a hnotInvoked c' q request.body with hsame | ⟨s, s', -, -, hput⟩
    · rw [hsame]
      exact hrecords
    · rw [hput, Stores.store?_put_of_ne _ (Ne.symm hname)]
      exact hrecords

end

/-- In a service with a built schema, whatever requests to built-in operations were made since a
collection with integer keys was empty: a record without a key is added under the integer after the
greatest one of 64 bits with sign. It is refused where that exceeds the key type, and it is a
conflict where that is next to 2⁶³ and a key there is beyond 64 bits with sign. -/
theorem addsKeyless_afterAll {d : Draft} (hbuild : d.build = .ok sv.schema)
    (hc : c ∈ sv.schema.collections) (hinteger : c.entity.keyType.isInteger = true)
    (hempty : sv.stores.store? c.name = some (.new c.entity []))
    (requests : List (String × Request))
    (hrequests : ∀ r ∈ requests, sv.invokes r.2 = false ∧ Json.FitsBody r.2.body) :
    ∃ records, (sv.afterAll requests).stores.store? c.name = some (.new c.entity records) ∧
      ∀ fresh r, (r.valueOf c.entity.key).isNull = true →
        ∃ g, Store.HasGreatest c.entity records g ∧
          Store.AddsKeyless c.entity records fresh r g := by
  have hsound := Schema.sound_of_build hbuild
  have hruns : StoresFitKeys c (sv.afterAll requests).stores := by
    have hstart : StoresFitKeys c sv.stores := ⟨[], hempty, nofun⟩
    clear hempty hbuild
    -- the schema and the site stay as they are from request to request
    induction requests generalizing sv with
    | nil => exact hstart
    | cons r rest ih =>
      obtain ⟨⟨hbuiltIn, hfits⟩, hrest⟩ := List.forall_mem_cons.1 hrequests
      have hafter := storesFitKeys_answer hstart hsound hc hinteger r.1 hbuiltIn hfits
      exact @ih (sv.after r.1 r.2) hc hrest hsound hafter
  obtain ⟨records, hrecords, hfit⟩ := hruns
  refine ⟨records, hrecords, ?_⟩
  intro fresh r hnull
  exact Store.addsKeyless hinteger hfit fresh hnull

end Service

namespace Archive

/-- The key alone, of some type. -/
def keyedBy (t : EdmType) : List Field := [⟨"Id", t, false⟩]

/-- A map with a key. -/
def mapUnder (n : ℤ) : Record := [("Id", .ofInt n)]

/-- The requests that create maps with some keys. -/
def creationsUnder (keys : List ℤ) : List (String × Request) :=
  keys.map fun n =>
    ("", { method := "POST", path := "/odata/Maps", body := some (.object (mapUnder n)) })

/-- Keys next to 2⁶³, the second beyond the integers of 64 bits with sign. -/
def aroundLimit : List ℤ := [2 ^ 63 - 513, 2 ^ 63]

/-- After the two creations a map without a key is added in one of the three ways. -/
theorem addsKeyless_aroundLimit :
    (draft (keyedBy .int64)).build = .ok (schema (keyedBy .int64)) ∧
      (∀ r ∈ creationsUnder aroundLimit,
        (service (keyedBy .int64) []).invokes r.2 = false ∧ Json.FitsBody r.2.body) ∧
      ∃ records, ((service (keyedBy .int64) []).afterAll (creationsUnder aroundLimit)).stores.store?
          "Maps" = some (.new (maps (keyedBy .int64)).entity records) ∧
        ∀ fresh r, (r.valueOf "Id").isNull = true →
          ∃ g, Store.HasGreatest (maps (keyedBy .int64)).entity records g ∧
            Store.AddsKeyless (maps (keyedBy .int64)).entity records fresh r g := by
  have hfits (n : ℤ) (hn : (JsonNumber.int n).Fits) :
      Json.FitsBody (some (.object (mapUnder n))) := by
    rintro members ⟨⟩ m hm
    obtain rfl := List.mem_singleton.1 hm
    rintro k ⟨⟩
    exact hn
  have hrequests : ∀ r ∈ creationsUnder aroundLimit,
      (service (keyedBy .int64) []).invokes r.2 = false ∧ Json.FitsBody r.2.body := by
    intro r hr
    refine ⟨?_, ?_⟩
    · revert r
      decide +kernel
    · obtain ⟨n, hn, rfl⟩ := List.mem_map.1 hr
      apply hfits
      revert n
      simp [aroundLimit, JsonNumber.Fits]
  refine ⟨rfl, hrequests, ?_⟩
  exact @Service.addsKeyless_afterAll (service (keyedBy .int64) []) (maps (keyedBy .int64))
    (draft (keyedBy .int64)) rfl (List.mem_singleton_self _) rfl rfl _ hrequests

/-- One creation leaves a store of bytes that makes a negative key, two leave a store of integers of
64 bits that makes a key it has already. -/
theorem keyless_below_type_and_taken :
    (∀ t : EdmType, (draft (keyedBy t)).build = .ok (schema (keyedBy t)) ∧
      maps (keyedBy t) ∈ (schema (keyedBy t)).collections ∧
      (service (keyedBy t) []).stores.store? "Maps" = some (.new (maps (keyedBy t)).entity [])) ∧
      (∀ r ∈ creationsUnder (-5 :: aroundLimit), (Route.resolve (schema (keyedBy .byte))
        { base := "http://test", path := "/odata" } r.2.method r.2.path).endpoint =
          .ok (some .create)) ∧
      (((service (keyedBy .byte) []).afterAll (creationsUnder [-5])).stores.store? "Maps" =
          some (.new (maps (keyedBy .byte)).entity [mapUnder (-5)]) ∧
        (Store.new (maps (keyedBy .byte)).entity [mapUnder (-5)]).perform "" (.add []) =
          (.ok (.stored (mapUnder (-4))),
            .new (maps (keyedBy .byte)).entity [mapUnder (-5), mapUnder (-4)]) ∧
        EdmType.byte.integerRange.1 = 0) ∧
      ((service (keyedBy .int64) []).afterAll (creationsUnder aroundLimit)).stores.store? "Maps" =
          some (.new (maps (keyedBy .int64)).entity (aroundLimit.map mapUnder)) ∧
        (Store.new (maps (keyedBy .int64)).entity (aroundLimit.map mapUnder)).perform "" (.add []) =
          (.error (.conflict "9223372036854775296"),
            .new (maps (keyedBy .int64)).entity (aroundLimit.map mapUnder)) := by
  refine ⟨?_, ?_, ⟨?_, rfl, rfl⟩, ?_, ?_⟩
  · intro t
    cases t <;> exact ⟨rfl, List.mem_singleton_self _, rfl⟩
  · decide +kernel
  · with_unfolding_all rfl
  · with_unfolding_all rfl
  · with_unfolding_all rfl

end Archive

end ODataEngine
