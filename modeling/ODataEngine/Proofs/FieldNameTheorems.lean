import ODataEngine.Proofs.FilterValueTheorems
import ODataEngine.Proofs.QueryTheorems
import ODataEngine.Proofs.WellFormedTheorems

/-!
# Field names in options

A schema admits as a name whatever holds no blank and none of the punctuation of paths and options.
The readers of options find names in ways of their own, and do not agree with that for all names:

- `$orderby` cuts at commas and blanks, so it takes every field by its name
  (`OrderByOption.parse_name_desc`);
- `$select` cuts at commas, but there a star stands for every field (`SelectOption.parse_name`);
- `$filter` reads an identifier and refuses every other name (`FilterOption.parse_name_eq_null`).

`Query.ofOptions_fieldName` puts them together for the fields of a built schema.
-/

namespace ODataEngine

variable {limits : QueryLimits} {e : EntityType} {name : String}

/-! ## Names as texts -/

/-- A text without the separator is its only part. -/
theorem Text.splitAt_of_not_mem {sep : Char} {s : List Char} (h : sep ∉ s) :
    splitAt sep s = [s] := by
  induction s with
  | nil => rfl
  | cons c rest ih =>
    rw [List.mem_cons, not_or] at h
    rw [splitAt, if_neg (Ne.symm h.1), ih h.2]

/-- The first word of a text is all of it up to its first blank. -/
theorem Text.takeWhile_word {word rest : List Char} (hword : ∀ c ∈ word, isBlank c = false)
    (hrest : Stops (!isBlank ·) rest) : (word ++ rest).takeWhile (!isBlank ·) = word := by
  have hall : ∀ c ∈ word, (!isBlank c) = true := by
    intro c hc
    rw [hword c hc]
    rfl
  exact (span_eq_iff.2 ⟨rfl, hall, hrest⟩).1

namespace Draft.IsClean

variable (h : IsClean name)

include h

theorem not_isBlank (c : Char) (hc : c ∈ name.toList) : Text.isBlank c = false :=
  h.isBlank_of_mem hc

theorem not_mem {d : Char} (hd : isReserved d = true) : d ∉ name.toList :=
  fun hmem => h.ne_of_mem hd hmem rfl

theorem trim_toList : Text.trim name.toList = name.toList :=
  Text.trim_of_not_isBlank h.not_isBlank

/-- Whatever stands behind it, a text that begins with a name is not blank. -/
theorem not_isAllBlank_append (t : String) : Text.isAllBlank (name ++ t) = false := by
  obtain ⟨c, rest, hname⟩ := List.exists_cons_of_ne_nil h.1
  have hc : c ∈ name.toList := by
    rw [hname]
    exact List.mem_cons_self
  rw [Text.isAllBlank, String.toList_append, Bool.eq_false_iff, Ne, Text.allBlank_iff]
  intro hblank
  have hblankc := hblank c (List.mem_append_left _ hc)
  rw [h.not_isBlank c hc] at hblankc
  cases hblankc

end Draft.IsClean

/-! ## Lists of names -/

namespace SelectOption

/-- Names that differ in more than case are added one after the other. -/
theorem addNames_eq_ok {sofar names : List String}
    (h : (sofar ++ names).Pairwise fun a b => Text.sameName a b = false) :
    addNames sofar names = .ok (sofar ++ names) := by
  induction names generalizing sofar with
  | nil => rw [addNames, List.append_nil]
  | cons name rest ih =>
    have hnew : ∀ n ∈ sofar, Text.sameName n name = false := by
      intro n hn
      exact (List.pairwise_append.1 h).2.2 n hn name List.mem_cons_self
    have hfresh : ¬ sofar.any (Text.sameName · name) = true := by
      rw [List.any_eq_true]
      rintro ⟨n, hn, hsame⟩
      rw [hnew n hn] at hsame
      cases hsame
    rw [← List.singleton_append, ← List.append_assoc] at h ⊢
    rw [List.singleton_append, addNames, if_neg hfresh, ih h]

/-- A single name stands for what it is resolved to. -/
theorem read_name (hname : Draft.IsClean name) {names : List String}
    (hresolve : resolve e name = .ok names)
    (hdistinct : names.Pairwise fun a b => Text.sameName a b = false) :
    read e name = .ok names := by
  have hblank : Text.isAllBlank name = false := by
    have happend := hname.not_isAllBlank_append ""
    rwa [String.append_empty] at happend
  have hcomma : ',' ∉ name.toList := hname.not_mem rfl
  rw [read, hblank, if_neg Bool.false_ne_true, hname.trim_toList, Text.splitAt_of_not_mem hcomma,
    addItems, hname.trim_toList, String.ofList_toList, hresolve, ok_bind,
    addNames_eq_ok (by rwa [List.nil_append]), ok_bind, addItems, List.nil_append]

end SelectOption

/-- The names of the fields of a sound entity type differ in more than case. -/
theorem EntityType.Sound.pairwise_fieldNames (h : e.Sound) :
    e.fieldNames.Pairwise fun a b => Text.sameName a b = false :=
  List.pairwise_map.2 h.fields

/-! ## The first word of a filter -/

/-- A text that spells a form and has no parenthesis begins with an identifier, up to its first
blank. -/
theorem FilterOption.Form.Spells.isIdentifier {form : Form} {word tail : List Char}
    (hspells : form.Spells (word ++ ' ' :: tail)) (hne : word ≠ [])
    (hword : ∀ c ∈ word, Text.isBlank c = false) (hopen : '(' ∉ word ++ ' ' :: tail) :
    IsIdentifier word := by
  -- a comparison begins with its name, which a blank ends as it ends the word
  have hname {name b₀ b rest : List Char} (hs : word ++ ' ' :: tail = b₀ ++ (name ++ (b ++ rest)))
      (hname : IsIdentifier name) (h₀ : Text.allBlank b₀ = true)
      (hb : Text.IsRun Text.isBlank b) : IsIdentifier word := by
    have hrun := isRun_of_isIdentifier hname
    have hstart : Text.trimStart (word ++ ' ' :: tail) = word ++ ' ' :: tail := by
      apply Text.dropWhile_eq_self
      exact Text.stops_append (fun c hc => hword c (List.mem_of_mem_head? hc)) hne
    have hstart' : Text.trimStart (word ++ ' ' :: tail) = name ++ (b ++ rest) :=
      Text.trimStart_eq_iff.2 ⟨b₀, h₀, hs, stops_isBlank hrun _⟩
    have hblank : Text.Stops (!Text.isBlank ·) (b ++ rest) := by
      refine Text.stops_append (fun c hc => ?_) hb.1
      rw [hb.2 c (List.mem_of_mem_head? hc)]
      rfl
    have hfirst := Text.takeWhile_word hword (Text.stops_cons_iff.2 rfl : Text.Stops _ (' ' :: tail))
    have hfirst' := Text.takeWhile_word
      (fun c hc => Text.not_isBlank_of_isIdentifierRest (hrun.2 c hc)) hblank
    rw [← hstart, hstart', hfirst'] at hfirst
    rw [← hfirst]
    exact hname
  generalize hs : word ++ ' ' :: tail = s at hspells
  cases hspells with
  | comparison hidentifier _ _ h₀ h₁ => exact hname hs hidentifier h₀ h₁
  | blankLiteral hidentifier _ _ _ h₀ h₁ => exact hname hs hidentifier h₀ h₁
  | call =>
    rw [hs] at hopen
    exact (hopen (by simp)).elim

/-! ## Options on a field -/

section

variable (h : e.Sound) {f : Field} (hf : f ∈ e.fields)

include h hf

/-- A field is selected by its name, unless that is the star, which stands for every field. -/
theorem SelectOption.parse_name (hcap : 1 ≤ limits.maxSelectFields) :
    SelectOption.parse limits e f.name =
      if f.name = "*" then
        if e.fields.length ≤ limits.maxSelectFields then .ok e.fieldNames
        else .error (.invalidSelect f.name
          s!"too many select fields (max: {limits.maxSelectFields})")
      else .ok [f.name] := by
  have hclean := Draft.isClean_of_isName (h.fieldNames f hf)
  have hne : f.name ≠ "" := fun hempty => hclean.1 (by rw [hempty]; rfl)
  by_cases hstar : f.name = "*"
  · have hresolve : resolve e f.name = .ok e.fieldNames := by
      rw [resolve, if_neg hne, if_pos hstar]
    have hlength : e.fieldNames.length = e.fields.length := List.length_map _
    rw [if_pos hstar, SelectOption.parse, read_name hclean hresolve h.pairwise_fieldNames]
    show limits.checkSelect f.name e.fieldNames.length >>= _ = _
    rw [QueryLimits.checkSelect, hlength]
    by_cases hlong : e.fields.length ≤ limits.maxSelectFields
    · rw [if_neg (Nat.not_lt_of_le hlong), if_pos hlong]
      rfl
    · rw [if_pos (Nat.lt_of_not_le hlong), if_neg hlong]
      rfl
  · have hfound := h.field?_eq_some hf (Text.sameName_refl f.name)
    have hresolve : resolve e f.name = .ok [f.name] := by
      rw [resolve, if_neg hne, if_neg hstar, hfound]
    rw [if_neg hstar]
    exact SelectOption.parse_eq_ok_iff.2
      ⟨read_name hclean hresolve (List.pairwise_singleton _ _), hcap⟩

/-- The descending order by a field is written with its name. -/
theorem OrderByOption.parse_name_desc (hcap : 1 ≤ limits.maxOrderByFields) :
    OrderByOption.parse limits e (f.name ++ " desc") = .ok [⟨f.name, .desc⟩] := by
  have hclean := Draft.isClean_of_isName (h.fieldNames f hf)
  have htext : (f.name ++ " desc").toList = f.name.toList ++ ' ' :: "desc".toList := by
    rw [String.toList_append]
    rfl
  have hcomma : ',' ∉ (f.name ++ " desc").toList := by
    rw [htext, List.mem_append, not_or]
    exact ⟨hclean.not_mem rfl, by decide⟩
  have hwords : Text.words (f.name ++ " desc").toList = [f.name.toList, "desc".toList] := by
    rw [htext, Text.words_append_blank rfl, Text.words_of_not_isBlank hclean.1 hclean.not_isBlank]
    rfl
  have hitem : readItem (f.name ++ " desc").toList = .ok (f.name, .desc) := by
    rw [readItem, hwords]
    show Except.ok (String.ofList f.name.toList, Direction.desc) = _
    rw [String.ofList_toList]
  have hfound := h.field?_eq_some hf (Text.sameName_refl f.name)
  have hread : OrderByOption.read e (f.name ++ " desc") = .ok [⟨f.name, .desc⟩] := by
    rw [OrderByOption.read, hclean.not_isAllBlank_append, if_neg Bool.false_ne_true,
      Text.splitAt_of_not_mem hcomma, OrderByOption.addItems, hitem, ok_bind]
    simp only [hfound]
    rfl
  exact OrderByOption.parse_eq_ok_iff.2 ⟨hread, hcap⟩

/-- A field is compared with null by its name if that is an identifier. Any other name is refused,
as if the text were no filter. -/
theorem FilterOption.parse_name_eq_null
    (hsize : (f.name ++ " eq null").utf8ByteSize ≤ limits.maxFilterLength) :
    FilterOption.parse limits e (f.name ++ " eq null") =
      if IsIdentifier f.name.toList then .ok (.field f.name (.compare .eq .null))
      else .error (.invalidFilter (f.name ++ " eq null") "expected 'field operator literal'") := by
  have hclean := Draft.isClean_of_isName (h.fieldNames f hf)
  have htext : (f.name ++ " eq null").toList = f.name.toList ++ ' ' :: "eq null".toList := by
    rw [String.toList_append]
    rfl
  by_cases hname : IsIdentifier f.name.toList
  · rw [if_pos hname]
    have hspells : Form.Spells (.comparison f.name.toList "eq".toList "null".toList)
        (f.name ++ " eq null").toList := by
      rw [htext]
      exact spells_comparisonText hname (by decide) ⟨by decide, rfl, by decide⟩
    have hfound : e.field? (String.ofList f.name.toList) = some f := by
      rw [String.ofList_toList]
      exact h.field?_eq_some hf (Text.sameName_refl f.name)
    exact (parse_eq_ok_iff_of_spells hspells).2 ⟨hsize, .comparison hfound (by decide) .null⟩
  · rw [if_neg hname]
    apply parse_of_not_spells hsize (hclean.not_isAllBlank_append _)
    intro form hspells
    rw [htext] at hspells
    have hopen : '(' ∉ f.name.toList ++ ' ' :: "eq null".toList := by
      rw [List.mem_append, not_or]
      exact ⟨hclean.not_mem rfl, by decide⟩
    exact hname (hspells.isIdentifier hclean.1 hclean.not_isBlank hopen)

end

/-! ## Queries of a single option -/

/-- A query of one option is what that option makes of the plain query. -/
theorem Query.ofOptions_single {schema : Option Schema} {option value : String}
    (htrim : Text.trimmed option = option) (hlower : Text.lowered option = option)
    (hown : option.toList.head? = some '$') :
    ofOptions limits schema e [(option, value)] =
      setOption limits e (fun text => checkExpand limits schema (text.length + 1) e text) option value
        (plain e) := by
  rw [ofOptions, addOptions, htrim, hlower, hown]
  exact bind_pure _

/-- Under the default limits the options `$orderby`, `$select` and `$filter` are read at the name of
any declared field as follows. The order is by that field. The selection is of that field, unless
its name is the star: that stands for all fields. The filter compares that field if the name is an
identifier, and is refused if not. -/
theorem Query.ofOptions_fieldName {d : Draft} {s : Schema} (hbuild : d.build = .ok s)
    {e : EntityType} (he : e ∈ s.entities) {f : Field} (hf : f ∈ e.fields)
    (schema : Option Schema) :
    ofOptions {} schema e [("$orderby", f.name ++ " desc")] =
        .ok { plain e with order := [⟨f.name, .desc⟩] } ∧
      ofOptions {} schema e [("$select", f.name)] =
        (if f.name = "*" then
          if e.fields.length ≤ 100 then .ok { plain e with select := e.fieldNames }
          else .error (.invalidSelect f.name "too many select fields (max: 100)")
        else .ok { plain e with select := [f.name] }) ∧
      ((f.name ++ " eq null").utf8ByteSize ≤ 2000 →
        ofOptions {} schema e [("$filter", f.name ++ " eq null")] =
          if FilterOption.IsIdentifier f.name.toList then
            .ok { plain e with filter := .field f.name (.compare .eq .null) }
          else .error
            (.invalidFilter (f.name ++ " eq null") "expected 'field operator literal'")) := by
  have hsound := (Schema.sound_of_build hbuild).entities e he
  refine ⟨?_, ?_, fun hsize => ?_⟩
  · rw [ofOptions_single rfl rfl rfl]
    show (do return { plain e with order := ← OrderByOption.parse {} e (f.name ++ " desc") }) = _
    rw [OrderByOption.parse_name_desc hsound hf (by decide)]
    rfl
  · rw [ofOptions_single rfl rfl rfl]
    show (do return { plain e with select := ← SelectOption.parse {} e f.name }) = _
    rw [SelectOption.parse_name hsound hf (by decide)]
    by_cases hstar : f.name = "*"
    · rw [if_pos hstar, if_pos hstar]
      by_cases hlong : e.fields.length ≤ 100
      · rw [if_pos hlong, if_pos hlong]
        rfl
      · rw [if_neg hlong, if_neg hlong]
        rfl
    · rw [if_neg hstar, if_neg hstar]
      rfl
  · rw [ofOptions_single rfl rfl rfl]
    show (do return { plain e with filter := ← FilterOption.parse {} e (f.name ++ " eq null") }) = _
    rw [FilterOption.parse_name_eq_null hsound hf hsize]
    by_cases hname : FilterOption.IsIdentifier f.name.toList
    · rw [if_pos hname, if_pos hname]
      rfl
    · rw [if_neg hname, if_neg hname]
      rfl

/-! ## A bakery -/

namespace Bakery

/-- Loaves with a size, whose name is no identifier, and a field that is named like the star. -/
def loaf : EntityType where
  name := "Loaf"
  key := "Id"
  fields := [⟨"Id", .int32, false⟩, ⟨"Größe", .int32, false⟩, ⟨"*", .string, false⟩]

/-- The declarations of the bakery. -/
def draft : Draft where
  entities := [loaf.declaration]
  collections := [("Loaves", "Loaf")]

/-- The schema of the bakery. -/
def schema : Schema where
  nameSpace := "Default"
  entities := [loaf]
  collections := [⟨"Loaves", loaf, []⟩]

theorem build_bakingDraft : draft.build = .ok schema := rfl

/-- Loaves are ordered and selected by their size, but not filtered. -/
theorem loaves_by_size :
    draft.build = .ok schema ∧ loaf ∈ schema.entities ∧ ⟨"Größe", .int32, false⟩ ∈ loaf.fields ∧
      "Größe eq null".utf8ByteSize ≤ 2000 ∧
      Query.ofOptions {} (some schema) loaf [("$orderby", "Größe desc")] =
        .ok { Query.plain loaf with order := [⟨"Größe", .desc⟩] } ∧
      Query.ofOptions {} (some schema) loaf [("$select", "Größe")] =
        .ok { Query.plain loaf with select := ["Größe"] } ∧
      Query.ofOptions {} (some schema) loaf [("$filter", "Größe eq null")] =
        .error (.invalidFilter "Größe eq null" "expected 'field operator literal'") := by
  have hf : (⟨"Größe", .int32, false⟩ : Field) ∈ loaf.fields := by decide
  have hsize : "Größe eq null".utf8ByteSize ≤ 2000 := by decide
  obtain ⟨horder, hselect, hfilter⟩ := Query.ofOptions_fieldName build_bakingDraft
    (List.mem_singleton_self loaf) hf (some schema)
  exact ⟨build_bakingDraft, List.mem_singleton_self loaf, hf, hsize, horder, hselect, hfilter hsize⟩

/-- A declared field that no filter can name, and one that cannot be selected alone. -/
theorem names_not_read :
    draft.build = .ok schema ∧ loaf ∈ schema.entities ∧ ⟨"Größe", .int32, false⟩ ∈ loaf.fields ∧
      ⟨"*", .string, false⟩ ∈ loaf.fields ∧ "Größe eq null".utf8ByteSize ≤ 2000 ∧
      (Query.ofOptions {} (some schema) loaf [("$filter", "Größe eq null")]).toOption.isNone ∧
      ∃ q, Query.ofOptions {} (some schema) loaf [("$select", "*")] = .ok q ∧
        q.select = ["Id", "Größe", "*"] := by
  refine ⟨rfl, by decide, by decide, by decide, by decide, by decide +kernel, ?_⟩
  exact ⟨Query.plain loaf, by with_unfolding_all rfl, rfl⟩

end Bakery

end ODataEngine
