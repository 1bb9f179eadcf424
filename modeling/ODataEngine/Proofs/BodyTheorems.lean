import ODataEngine.Proofs.StoreTheorems

/-!
# What a body gives

A body gives a value to a name by the last of its members with that name in any case; members whose
names begin with an at sign are annotations and give none. The record of a body has just what the
body gives to each field (`EntityType.Sound.get?_ofBody`), and what is set on an addressed entity is
that but for the key, with nulls for the rest where the entity is replaced as a whole
(`Service.get?_patchOf`).
-/

namespace ODataEngine

/-! ## The last member of a name -/

/-- The name is that of an annotation. -/
def isAnnotationName (name : String) : Bool := name.toList.head? == some '@'

/-- A member of a body gives a value to a name: it has the name in any case and is no annotation. -/
def Record.gives (name : String) (m : String × Json) : Bool :=
  !isAnnotationName m.1 && Text.sameName m.1 name

/-- The value that the members of a body give to a name: that of the last one that gives any. -/
def Record.given? (members : Record) (name : String) : Option Json :=
  (members.filter (gives name)).getLast?.map Prod.snd

namespace Record

theorem given?_cons (m : String × Json) (rest : Record) (name : String) :
    given? (m :: rest) name =
      (given? rest name).or (if gives name m then some m.2 else none) := by
  rw [given?, given?, List.filter_cons]
  split
  · rw [List.getLast?_cons]
    cases (rest.filter (gives name)).getLast? <;> rfl
  · rw [Option.or_none]

/-- The case of the name does not matter. -/
theorem given?_eq_of_sameName {name other : String} (h : Text.sameName name other = true)
    (members : Record) : members.given? name = members.given? other := by
  have hgives : gives name = gives other := by
    funext m
    rw [gives, gives]
    congr 1
    rw [Bool.eq_iff_iff]
    refine ⟨fun hm => Text.sameName_trans hm h, fun hm => Text.sameName_trans hm ?_⟩
    rwa [Text.sameName_comm]
  rw [given?, given?, hgives]

end Record

namespace EntityType

variable {e : EntityType} {r r' members : Record}

/-- A body that is accepted is an object. -/
theorem exists_of_ofBody {body : Option Json} (h : e.ofBody body = .ok r) :
    ∃ members, body = some (.object members) ∧ e.addMembers [] members = .ok r := by
  unfold ofBody at h
  split at h
  · cases h
  · next members => exact ⟨members, rfl, h⟩
  · cases h

theorem Sound.get?_addMembers (hsound : e.Sound) (h : e.addMembers r members = .ok r') {f : Field}
    (hf : f ∈ e.fields) : r'.get? f.name = (members.given? f.name).or (r.get? f.name) := by
  induction members generalizing r with
  | nil =>
    cases h
    rfl
  | cons member rest ih =>
    unfold addMembers at h
    split at h
    · next hannotation =>
      have hskipped : Record.gives f.name member = false := by
        rw [Record.gives, isAnnotationName, hannotation]
        rfl
      rw [ih h, Record.given?_cons, hskipped, if_neg Bool.false_ne_true, Option.or_none]
    · next hmember =>
      have hgives : Record.gives f.name member = Text.sameName f.name member.1 := by
        rw [Record.gives, isAnnotationName, beq_eq_false_iff_ne.2 hmember, Text.sameName_comm]
        rfl
      obtain ⟨r₁, hadd, h⟩ := bind_eq_ok_iff.1 h
      obtain ⟨g, hg, -, rfl⟩ := addMember_eq_ok_iff.1 hadd
      rw [ih h, Record.given?_cons, hgives, Option.or_assoc]
      cases hsame : Text.sameName f.name member.1 with
      | true =>
        obtain rfl : f = g := Option.some.inj ((hsound.field?_eq_some hf hsame).symm.trans hg)
        rw [Record.get?_insert_self, if_pos rfl, Option.some_or]
      | false =>
        have hne : f.name ≠ g.name := by
          intro hname
          have hgname := (mem_of_field? hg).2
          rw [← hname, hsame] at hgname
          cases hgname
        rw [Record.get?_insert_of_ne r _ hne, if_neg Bool.false_ne_true, Option.none_or]

/-- The record of a body has what the body gives to each field, and nothing else. -/
theorem Sound.get?_ofBody (hsound : e.Sound) (h : e.ofBody (some (.object members)) = .ok r)
    (name : String) :
    r.get? name = if name ∈ e.fieldNames then members.given? name else none := by
  split
  · next hname =>
    obtain ⟨f, hf, rfl⟩ := List.mem_map.1 hname
    rw [hsound.get?_addMembers h hf, Record.get?_nil, Option.or_none]
  · next hname =>
    refine Record.get?_eq_none_iff.2 fun hmem => hname ?_
    obtain ⟨m, hm, rfl⟩ := List.mem_map.1 hmem
    obtain ⟨f, hf, hfm, -⟩ := (ofBody_spec h).1 m hm
    exact List.mem_map.2 ⟨f, hf, hfm⟩

end EntityType

namespace Service

variable {e : EntityType} {r : Record}

/-! ## What is set on an addressed entity -/

theorem get?_withNulls (e : EntityType) (r : Record) (name : String) :
    (withNulls e r).get? name =
      (r.get? name).or (if name ∈ e.fieldNames ∧ name ≠ e.key then some .null else none) := by
  unfold withNulls EntityType.fieldNames
  induction e.fields generalizing r with
  | nil => simp
  | cons f rest ih =>
    rw [List.foldl_cons, ih]
    simp only [List.map_cons, List.mem_cons]
    split
    · next hskip =>
      rw [Bool.or_eq_true, decide_eq_true_eq] at hskip
      by_cases hname : name = f.name
      · subst hname
        rcases hskip with hkey | hthere
        · simp [hkey]
        · obtain ⟨v, hv⟩ := Option.isSome_iff_exists.1 hthere
          rw [hv, Option.some_or, Option.some_or]
      · simp [hname]
    · next hmissing =>
      rw [Bool.or_eq_true, decide_eq_true_eq, not_or, Bool.not_eq_true, Option.isSome_eq_false_iff,
        Option.isNone_iff_eq_none] at hmissing
      obtain ⟨hkey, hnone⟩ := hmissing
      by_cases hname : name = f.name
      · subst hname
        rw [Record.get?_insert_self, hnone]
        simp [hkey]
      · rw [Record.get?_insert_of_ne r _ hname]
        simp [hname]

theorem nodup_names_withNulls (h : r.names.Nodup) : (withNulls e r).names.Nodup := by
  unfold withNulls
  induction e.fields generalizing r with
  | nil => exact h
  | cons f rest ih =>
    rw [List.foldl_cons]
    apply ih
    split
    · exact h
    · exact Record.nodup_names_insert h f.name .null

/-- What a replacement sets a field to that the body gives nothing to. -/
def Replacement.fill : Replacement → Option Json
  | .whole => some .null
  | .given => none

/-- What is set on an entity is what the body gives to the fields but the key. -/
theorem get?_patchOf {key : Json} {display : String} {replacement : Replacement} {patch : Record}
    (h : patchOf e key display replacement r = .ok patch) (hnames : r.names.Nodup) :
    patch.names.Nodup ∧ ∀ name, patch.get? name =
      if name = e.key then none
      else (r.get? name).or (if name ∈ e.fieldNames then replacement.fill else none) := by
  have hnodup := Record.nodup_names_erase hnames e.key
  unfold patchOf at h
  extract_lets differs at h
  split at h
  · cases h
  · cases replacement with
    | whole =>
      cases h
      refine ⟨nodup_names_withNulls hnodup, fun name => ?_⟩
      rw [get?_withNulls, Record.get?_erase hnames]
      by_cases hname : name = e.key
      · simp [hname]
      · simp only [hname, if_false, ne_eq, not_false_eq_true, and_true, Replacement.fill]
    | given =>
      cases h
      refine ⟨hnodup, fun name => ?_⟩
      simp only [Record.get?_erase hnames, Replacement.fill, ite_self, Option.or_none]

end Service

end ODataEngine
