import Mathlib.Data.List.Nodup
import ODataEngine.Filter.Document
import ODataEngine.Filter.Validation
import ODataEngine.Proofs.ResultTheorems

/-!
# Predicates

What records and typings see of a predicate is a matter of its parts: the functions over lists of
predicates and groups are read off the single ones, a conjunction that is made field by field holds
where both its parts do (`Predicate.holds_conj`), predicates agree where their groups do, and the
names of the fields are those that the constructors were given.
-/

namespace ODataEngine.Predicate

open ODataEngine.Filter

/-! ## Lists of predicates and of groups -/

theorem groupsHold_eq_all (groups : List Group) (r : Record) :
    groupsHold groups r = groups.all (groupHolds · r) := by
  induction groups with
  | nil => rw [groupsHold, List.all_nil]
  | cons g rest ih => rw [groupsHold, List.all_cons, ih]

theorem allHold_eq_all (items : List Predicate) (r : Record) :
    allHold items r = items.all (·.holds r) := by
  induction items with
  | nil => rw [allHold, List.all_nil]
  | cons p rest ih => rw [allHold, List.all_cons, ih]

theorem documents_eq_map (items : List Predicate) : documents items = items.map document := by
  induction items with
  | nil => rw [documents, List.map_nil]
  | cons p rest ih => rw [documents, List.map_cons, ih]

theorem groupParts_eq_map (groups : List Group) :
    groupParts groups = groups.map fun g => (g.key, groupDocument g) := by
  induction groups with
  | nil => rw [groupParts, List.map_nil]
  | cons g rest ih => rw [groupParts, List.map_cons, ih]

section

variable (typeOf : String → Option EdmType)

theorem validateGroups_cons (g : Group) (rest : List Group) :
    validateGroups typeOf (g :: rest) =
      validateGroup typeOf g >>= fun _ => validateGroups typeOf rest := by
  rw [validateGroups]
  cases validateGroup typeOf g <;> rfl

theorem validateAll_cons (p : Predicate) (rest : List Predicate) :
    validateAll typeOf (p :: rest) = p.validate typeOf >>= fun _ => validateAll typeOf rest := by
  rw [validateAll]
  cases validate typeOf p <;> rfl

theorem validateAll_append (ps qs : List Predicate) :
    validateAll typeOf (ps ++ qs) =
      validateAll typeOf ps >>= fun _ => validateAll typeOf qs := by
  induction ps with
  | nil =>
    rw [validateAll]
    rfl
  | cons p rest ih => rw [List.cons_append, validateAll_cons, validateAll_cons, ih, bind_assoc]

theorem validate_mk (fields : List (String × List Clause)) (groups : List Group) :
    validate typeOf (mk fields groups) =
      checkFields typeOf fields >>= fun _ => validateGroups typeOf groups := by
  rw [validate]
  cases checkFields typeOf fields <;> rfl

theorem checkClauses_append (name : String) (t : EdmType) (cs ds : List Clause) :
    checkClauses name t (cs ++ ds) =
      checkClauses name t cs >>= fun _ => checkClauses name t ds := by
  induction cs with
  | nil => rfl
  | cons c rest ih =>
    rw [List.cons_append, checkClauses, checkClauses]
    cases checkClause name t c with
    | error e => rfl
    | ok => exact ih

theorem checkFields_cons (name : String) (cs : List Clause) (rest : List (String × List Clause)) :
    checkFields typeOf ((name, cs) :: rest) =
      checkFields typeOf [(name, cs)] >>= fun _ => checkFields typeOf rest := by
  simp only [checkFields]
  cases htype : typeOf name with
  | none => rfl
  | some t =>
    dsimp only
    cases checkClauses name t cs <;> rfl

end

/-! ## Conjunctions -/

theorem fieldsHold_addClause (name : String) (clause : Clause)
    (fields : List (String × List Clause)) (r : Record) :
    fieldsHold (addClause name clause fields) r =
      (fieldsHold fields r && clause.holds (r.valueOf name)) := by
  induction fields with
  | nil => simp [addClause, fieldsHold]
  | cons field rest ih =>
    obtain ⟨n, clauses⟩ := field
    unfold addClause
    by_cases hn : n = name
    · rw [if_pos hn, hn]
      simp only [fieldsHold, List.all_cons, List.all_append, List.all_nil, Bool.and_true]
      rw [Bool.and_right_comm]
    · rw [if_neg hn]
      simp only [fieldsHold, List.all_cons] at ih ⊢
      rw [ih, Bool.and_assoc]

theorem holds_require (p : Predicate) (name : String) (clause : Clause) (r : Record) :
    (p.require name clause).holds r = (p.holds r && clause.holds (r.valueOf name)) := by
  obtain ⟨fields, groups⟩ := p
  rw [require, holds, holds]
  show (fieldsHold (addClause name clause fields) r && groupsHold groups r) = _
  rw [fieldsHold_addClause, Bool.and_right_comm]

/-- A record passes the conjunction of two predicates just if it passes both. -/
theorem holds_conj (p q : Predicate) (r : Record) :
    (p.conj q).holds r = (p.holds r && q.holds r) := by
  obtain ⟨fields, groups⟩ := q
  -- the clauses of one field are required one by one, and so are the fields
  have hclauses (name : String) (clauses : List Clause) (p : Predicate) :
      (clauses.foldl (·.require name ·) p).holds r =
        (p.holds r && clauses.all (·.holds (r.valueOf name))) := by
    induction clauses generalizing p with
    | nil => exact (Bool.and_true _).symm
    | cons clause rest ih => rw [List.foldl_cons, ih, holds_require, List.all_cons, Bool.and_assoc]
  have hfields (p : Predicate) :
      (fields.foldl (fun p f => f.2.foldl (·.require f.1 ·) p) p).holds r =
        (p.holds r && fieldsHold fields r) := by
    induction fields generalizing p with
    | nil => exact (Bool.and_true _).symm
    | cons field rest ih =>
      rw [List.foldl_cons, ih, hclauses, fieldsHold, fieldsHold, List.all_cons, Bool.and_assoc]
  have hjoined := hfields p
  have hconj : p.conj (mk fields groups) =
      let joined := fields.foldl (fun p f => f.2.foldl (·.require f.1 ·) p) p
      mk joined.fields (joined.groups ++ groups) := rfl
  rw [hconj]
  generalize fields.foldl (fun p f => f.2.foldl (·.require f.1 ·) p) p = joined at hjoined
  obtain ⟨joinedFields, joinedGroups⟩ := joined
  rw [holds] at hjoined
  show (mk joinedFields (joinedGroups ++ groups)).holds r = _
  rw [holds, holds, groupsHold_eq_all, List.all_append, ← groupsHold_eq_all, ← groupsHold_eq_all,
    ← Bool.and_assoc, hjoined, Bool.and_assoc]

/-- A predicate of a single clause is that clause. -/
theorem holds_field (name : String) (clause : Clause) (r : Record) :
    (field name clause).holds r = clause.holds (r.valueOf name) := by
  rw [field, holds_require, holds_all, Bool.true_and]

theorem validate_field {typeOf : String → Option EdmType} {name : String} {t : EdmType}
    (h : typeOf name = some t) (clause : Clause) :
    (field name clause).validate typeOf = checkClause name t clause := by
  show validate typeOf (mk [(name, [clause])] []) = _
  rw [validate_mk, checkFields, h]
  simp only [checkClauses, checkFields, validateGroups]
  cases checkClause name t clause <;> rfl

/-- Where the type admits every value of a clause, only its operator can be at fault. -/
theorem checkClause_of_accepts {t : EdmType} {clause : Clause}
    (h : ∀ v ∈ clause.values, t.accepts v = true) (name : String) :
    checkClause name t clause =
      if clause.operator.isRange && t == .boolean then
        .error (.typeMismatch name t ("ordering operator " ++ clause.operator.key))
      else .ok () := by
  have hnone : clause.values.find? (!t.accepts ·) = none := by
    rw [List.find?_eq_none]
    intro v hv
    rw [h v hv]
    decide
  rw [checkClause, hnone]

/-! ## Predicates that cannot be told apart -/

/-- The predicates cannot be told apart by a record, by a typing of the fields or by their
documents. -/
structure Agrees (p q : Predicate) : Prop where
  holds : ∀ r, p.holds r = q.holds r
  validate : ∀ typeOf, p.validate typeOf = q.validate typeOf
  document : p.document = q.document

theorem Agrees.trans {p q s : Predicate} (hpq : p.Agrees q) (hqs : q.Agrees s) : p.Agrees s where
  holds r := (hpq.holds r).trans (hqs.holds r)
  validate typeOf := (hpq.validate typeOf).trans (hqs.validate typeOf)
  document := hpq.document.trans hqs.document

section

variable {ps qs : List Predicate} (h : List.Forall₂ Agrees ps qs)

include h

theorem allHold_congr (r : Record) : allHold ps r = allHold qs r := by
  induction h with
  | nil => rfl
  | cons hp _ ih => rw [allHold, allHold, hp.holds, ih]

theorem someHolds_congr (r : Record) : someHolds ps r = someHolds qs r := by
  induction h with
  | nil => rfl
  | cons hp _ ih => rw [someHolds, someHolds, hp.holds, ih]

theorem validateAll_congr (typeOf : String → Option EdmType) :
    validateAll typeOf ps = validateAll typeOf qs := by
  induction h with
  | nil => rfl
  | cons hp _ ih => rw [validateAll, validateAll, hp.validate, ih]

theorem documents_congr : documents ps = documents qs := by
  induction h with
  | nil => rfl
  | cons hp _ ih => rw [documents, documents, hp.document, ih]

end

/-- The same of groups, which also stand under one key. -/
structure GroupAgrees (g h : Group) : Prop where
  key : g.key = h.key
  holds : ∀ r, groupHolds g r = groupHolds h r
  validate : ∀ typeOf, validateGroup typeOf g = validateGroup typeOf h
  document : groupDocument g = groupDocument h

section

variable {gs hs : List Group} (h : List.Forall₂ GroupAgrees gs hs)

include h

theorem groupsHold_congr (r : Record) : groupsHold gs r = groupsHold hs r := by
  induction h with
  | nil => rfl
  | cons hg _ ih => rw [groupsHold, groupsHold, hg.holds, ih]

theorem validateGroups_congr (typeOf : String → Option EdmType) :
    validateGroups typeOf gs = validateGroups typeOf hs := by
  induction h with
  | nil => rfl
  | cons hg _ ih => rw [validateGroups, validateGroups, hg.validate, ih]

theorem groupParts_congr : groupParts gs = groupParts hs := by
  induction h with
  | nil => rfl
  | cons hg _ ih => rw [groupParts, groupParts, hg.key, hg.document, ih]

/-- Groups may be replaced by groups that agree with them. -/
theorem agrees_mk (fields : List (String × List Clause)) :
    (mk fields gs).Agrees (mk fields hs) where
  holds r := by rw [holds, holds, groupsHold_congr h]
  validate typeOf := by rw [validate, validate, validateGroups_congr h]
  document := by rw [document, document, groupParts_congr h]

end

/-! ## Names of fields -/

/-- The names of the fields, in order. -/
def fieldNames (p : Predicate) : List String := p.fields.map Prod.fst

theorem mem_addClause {name : String} {clause : Clause} {fields : List (String × List Clause)}
    {n : String} (h : n ∈ (addClause name clause fields).map Prod.fst) :
    n ∈ fields.map Prod.fst ∨ n = name := by
  induction fields with
  | nil => exact .inr (List.mem_singleton.1 h)
  | cons field rest ih =>
    obtain ⟨n', cs⟩ := field
    unfold addClause at h
    split at h
    · exact .inl h
    · rcases List.mem_cons.1 h with rfl | h
      · exact .inl List.mem_cons_self
      · exact (ih h).imp_left (List.mem_cons_of_mem n')

theorem nodup_addClause {fields : List (String × List Clause)} (h : (fields.map Prod.fst).Nodup)
    (name : String) (clause : Clause) : ((addClause name clause fields).map Prod.fst).Nodup := by
  induction fields with
  | nil => exact List.nodup_singleton name
  | cons field rest ih =>
    obtain ⟨n, cs⟩ := field
    obtain ⟨hn, hrest⟩ := List.nodup_cons.1 h
    unfold addClause
    split
    · exact h
    · next hne =>
      refine List.nodup_cons.2 ⟨fun hmem => ?_, ih hrest⟩
      rcases mem_addClause hmem with hmem | he
      · exact hn hmem
      · exact hne he

/-- A conjunction is the first predicate with the clauses of the second added one by one, so that it
has what every single addition keeps; then come the groups of the second. -/
theorem exists_conj_eq {motive : Predicate → Prop} {p : Predicate} (q : Predicate)
    (start : motive p)
    (step : ∀ p name clause, name ∈ q.fieldNames → motive p → motive (p.require name clause)) :
    ∃ joined, motive joined ∧ p.conj q = mk joined.fields (joined.groups ++ q.groups) := by
  have hclauses (name : String) (hname : name ∈ q.fieldNames) (cs : List Clause) (p : Predicate)
      (hp : motive p) : motive (cs.foldl (·.require name ·) p) := by
    induction cs generalizing p with
    | nil => exact hp
    | cons c rest ih => exact ih (p.require name c) (step p name c hname hp)
  have hfields (fields : List (String × List Clause)) (hsub : ∀ f ∈ fields, f ∈ q.fields)
      (p : Predicate) (hp : motive p) :
      motive (fields.foldl (fun p f => f.2.foldl (·.require f.1 ·) p) p) := by
    induction fields generalizing p with
    | nil => exact hp
    | cons f rest ih =>
      have hname : f.1 ∈ q.fieldNames := List.mem_map_of_mem (hsub f List.mem_cons_self)
      exact ih (fun f hf => hsub f (List.mem_cons_of_mem _ hf)) _ (hclauses f.1 hname f.2 p hp)
  exact ⟨_, hfields q.fields (fun _ hf => hf) p start, rfl⟩

/-- No field of the predicate, at any depth, is named like an operator. -/
inductive HasPlainNames : Predicate → Prop where
  | intro {p : Predicate} (fields : ∀ name ∈ p.fieldNames, isOperatorKey name = false)
    (groups : ∀ g ∈ p.groups, ∀ item ∈ g.items, HasPlainNames item) : HasPlainNames p

namespace HasPlainNames

variable {p q : Predicate}

theorem all : all.HasPlainNames :=
  .intro (fun _ h => nomatch h) fun _ h => nomatch h

theorem group {g : Group} (h : ∀ item ∈ g.items, HasPlainNames item) :
    (Predicate.mk [] [g]).HasPlainNames :=
  .intro (fun _ h => nomatch h) fun _ hg => List.mem_singleton.1 hg ▸ h

theorem require (h : p.HasPlainNames) {name : String} (hname : isOperatorKey name = false)
    (clause : Clause) : (p.require name clause).HasPlainNames := by
  obtain ⟨hfields, hgroups⟩ := h
  refine .intro (fun n hn => ?_) hgroups
  rcases mem_addClause hn with hn | rfl
  · exact hfields n hn
  · exact hname

theorem conj (hp : p.HasPlainNames) (hq : q.HasPlainNames) : (p.conj q).HasPlainNames := by
  obtain ⟨hqfields, hqgroups⟩ := hq
  obtain ⟨joined, ⟨hfields, hgroups⟩, hconj⟩ := exists_conj_eq (motive := HasPlainNames) q hp
    fun p name clause hname hp => hp.require (hqfields name hname) clause
  rw [hconj]
  refine .intro hfields fun g hg => ?_
  rcases List.mem_append.1 hg with hg | hg
  · exact hgroups g hg
  · exact hqgroups g hg

theorem disj (hp : p.HasPlainNames) (hq : q.HasPlainNames) : (p.disj q).HasPlainNames := by
  refine group fun item hitem => ?_
  rcases List.mem_cons.1 hitem with rfl | hitem
  · exact hp
  · exact List.mem_singleton.1 hitem ▸ hq

theorem negate (h : p.HasPlainNames) : p.negate.HasPlainNames :=
  group fun _ hitem => List.mem_singleton.1 hitem ▸ h

end HasPlainNames

end ODataEngine.Predicate
