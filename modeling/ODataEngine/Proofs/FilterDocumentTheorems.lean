import ODataEngine.Proofs.PredicateTheorems

/-!
# Filter documents read back

A predicate that is written as a document and read back may come back in another shape: where a key
would come twice, its parts stand under one `$and`. Main results:

- `flatten_clauseRuns`: cutting the clauses of a field where an operator comes again loses none;
- `agrees_joined`: the parts under one `$and` say what the predicate says;
- `hasPlainNames_of_read`: no field that is read is named like an operator;
- `ofDocument_document`: what is read back cannot be told from the predicate, by any record, by any
  typing of the fields or by its own document.
-/

namespace ODataEngine.Predicate

open ODataEngine.Filter

/-! ## Clauses cut where an operator comes again -/

/-- The keys of the operators of some clauses. -/
def operatorKeys (cs : List Clause) : List String := cs.map (·.operator.key)

/-- The clauses cut, in order, where an operator comes again. -/
def clauseRuns (run : List Clause) : List Clause → List (List Clause)
  | [] => [run]
  | c :: rest =>
    if c.operator.key ∈ operatorKeys run then run :: clauseRuns [c] rest
    else clauseRuns (run ++ [c]) rest

/-- The object of operators that a run is written as. -/
def operatorMembers (run : List Clause) : Record := run.map fun c => (c.operator.key, c.operand)

theorem names_operatorMembers (run : List Clause) :
    Record.names (operatorMembers run) = operatorKeys run := by
  simp [Record.names, operatorMembers, operatorKeys]

theorem operatorObjects_operatorMembers (run cs : List Clause) :
    operatorObjects (operatorMembers run) cs = (clauseRuns run cs).map operatorMembers := by
  -- the object that is being filled is always that of the run so far
  induction cs generalizing run with
  | nil => rfl
  | cons c rest ih =>
    have hseen : (Record.get? (operatorMembers run) c.operator.key).isSome ↔
        c.operator.key ∈ operatorKeys run := by
      simp only [Record.get?, operatorMembers, operatorKeys, List.lookup_isSome_iff,
        List.mem_map, beq_iff_eq]
      constructor
      · rintro ⟨_, ⟨d, hd, rfl⟩, hkey⟩
        exact ⟨d, hd, hkey.symm⟩
      · rintro ⟨d, hd, hkey⟩
        exact ⟨_, ⟨d, hd, rfl⟩, hkey.symm⟩
    have hsingle : [(c.operator.key, c.operand)] = operatorMembers [c] := rfl
    have hlonger : operatorMembers run ++ operatorMembers [c] = operatorMembers (run ++ [c]) := by
      simp [operatorMembers]
    unfold operatorObjects clauseRuns
    by_cases hc : c.operator.key ∈ operatorKeys run
    · rw [if_pos (hseen.2 hc), if_pos hc, List.map_cons, hsingle, ih]
    · rw [if_neg (hseen.not.2 hc), if_neg hc, hsingle, hlonger, ih]

/-- No clause is lost and none changes its place. -/
theorem flatten_clauseRuns (run cs : List Clause) : (clauseRuns run cs).flatten = run ++ cs := by
  induction cs generalizing run with
  | nil => simp [clauseRuns]
  | cons c rest ih =>
    unfold clauseRuns
    split
    · rw [List.flatten_cons, ih, List.singleton_append]
    · rw [ih, List.append_assoc, List.singleton_append]

theorem clauseRuns_ne_nil (run cs : List Clause) : clauseRuns run cs ≠ [] := by
  induction cs generalizing run with
  | nil => exact List.cons_ne_nil run []
  | cons c rest ih =>
    unfold clauseRuns
    split
    · exact List.cons_ne_nil run _
    · exact ih (run ++ [c])

theorem nodup_operatorKeys_concat {run : List Clause} {c : Clause} (h : (operatorKeys run).Nodup)
    (hc : c.operator.key ∉ operatorKeys run) : (operatorKeys (run ++ [c])).Nodup := by
  unfold operatorKeys at h hc ⊢
  rw [List.map_append, List.nodup_append]
  refine ⟨h, List.pairwise_singleton _ _, fun k hk k' hk' => ?_⟩
  rw [List.map_singleton, List.mem_singleton] at hk'
  exact fun he => hc (hk' ▸ he ▸ hk)

/-- In a run no operator comes again. -/
theorem nodup_of_mem_clauseRuns {run cs run' : List Clause} (h : (operatorKeys run).Nodup)
    (hrun : run' ∈ clauseRuns run cs) : (operatorKeys run').Nodup := by
  induction cs generalizing run with
  | nil =>
    rw [clauseRuns, List.mem_singleton] at hrun
    exact hrun ▸ h
  | cons c rest ih =>
    unfold clauseRuns at hrun
    split at hrun
    · rcases List.mem_cons.1 hrun with rfl | hrun
      · exact h
      · have hsingle : (operatorKeys [c]).Nodup := List.nodup_singleton c.operator.key
        exact ih hsingle hrun
    · next hc => exact ih (nodup_operatorKeys_concat h hc) hrun

/-- Clauses in which no operator comes again are one run. -/
theorem clauseRuns_of_nodup {run cs : List Clause} (h : (operatorKeys (run ++ cs)).Nodup) :
    clauseRuns run cs = [run ++ cs] := by
  induction cs generalizing run with
  | nil => rw [clauseRuns, List.append_nil]
  | cons c rest ih =>
    have hc : c.operator.key ∉ operatorKeys run := by
      intro hmem
      rw [operatorKeys, List.map_append, List.nodup_append] at h
      exact h.2.2 _ hmem _ (List.mem_map_of_mem List.mem_cons_self) rfl
    have hassoc : run ++ c :: rest = run ++ [c] ++ rest := by
      rw [List.append_assoc, List.singleton_append]
    rw [hassoc] at h ⊢
    rw [clauseRuns, if_neg hc, ih h]

theorem fieldParts_eq (name : String) (cs : List Clause) :
    fieldParts (name, cs) =
      (clauseRuns [] cs).map fun run => (name, .object (operatorMembers run)) := by
  have hruns : operatorObjects [] cs = (clauseRuns [] cs).map operatorMembers :=
    operatorObjects_operatorMembers [] cs
  rw [fieldParts, hruns, List.map_map]
  rfl

/-! ## Parts under one `$and` -/

/-- Some clauses of one field. -/
def fieldPiece (name : String) (run : List Clause) : Predicate := mk [(name, run)] []

/-- One group. -/
def groupPiece (g : Group) : Predicate := mk [] [g]

/-- A predicate of its own for each run of clauses of a field. -/
def fieldPieces (field : String × List Clause) : List Predicate :=
  (clauseRuns [] field.2).map (fieldPiece field.1)

/-- The parts of a predicate, each a predicate of its own. -/
def pieces (fields : List (String × List Clause)) (groups : List Group) : List Predicate :=
  fields.flatMap fieldPieces ++ groups.map groupPiece

/-- The parts of a document. -/
def parts (fields : List (String × List Clause)) (groups : List Group) : Record :=
  fields.flatMap fieldParts ++ groupParts groups

/-- The object of one part. -/
def partObject (part : String × Json) : Json := .object [part]

theorem document_mk (fields : List (String × List Clause)) (groups : List Group) :
    (mk fields groups).document = documentOf (parts fields groups) := by
  rw [document, parts]

theorem holds_fieldPiece (name : String) (run : List Clause) (r : Record) :
    (fieldPiece name run).holds r = run.all (·.holds (r.valueOf name)) := by
  simp [fieldPiece, holds, fieldsHold, groupsHold]

theorem holds_groupPiece (g : Group) (r : Record) :
    (groupPiece g).holds r = groupHolds g r := by
  simp [groupPiece, holds, fieldsHold, groupsHold]

/-- All the parts hold of the records that the predicate holds of. -/
theorem allHold_pieces (fields : List (String × List Clause)) (groups : List Group) (r : Record) :
    allHold (pieces fields groups) r = (mk fields groups).holds r := by
  have hfield (field : String × List Clause) : (fieldPieces field).all (·.holds r) =
      field.2.all (·.holds (r.valueOf field.1)) := by
    have hflat : (clauseRuns [] field.2).flatten = field.2 := flatten_clauseRuns [] field.2
    calc (fieldPieces field).all (·.holds r)
        = (clauseRuns [] field.2).all fun run => run.all (·.holds (r.valueOf field.1)) := by
          simp only [fieldPieces, List.all_map, Function.comp_def, holds_fieldPiece]
      _ = field.2.all (·.holds (r.valueOf field.1)) := by rw [← List.all_flatten, hflat]
  rw [allHold_eq_all, pieces, List.all_append, List.all_flatMap, List.all_map, holds, fieldsHold,
    groupsHold_eq_all]
  simp only [hfield, Function.comp_def, holds_groupPiece]

section

variable (typeOf : String → Option EdmType)

theorem validateAll_runs {runs : List (List Clause)} (h : runs ≠ []) (name : String) :
    validateAll typeOf (runs.map (fieldPiece name)) =
      checkFields typeOf [(name, runs.flatten)] := by
  cases htype : typeOf name with
  | none =>
    -- the first run, empty or not, already names the field
    cases runs with
    | nil => exact absurd rfl h
    | cons run rest => simp [validateAll, fieldPiece, validate, checkFields, htype]
  | some t =>
    clear h
    have hpiece (run : List Clause) :
        validate typeOf (fieldPiece name run) = checkClauses name t run := by
      simp only [fieldPiece, validate, checkFields, validateGroups, htype]
      cases checkClauses name t run <;> rfl
    have hruns : validateAll typeOf (runs.map (fieldPiece name)) =
        checkClauses name t runs.flatten := by
      induction runs with
      | nil => rfl
      | cons run rest ih =>
        rw [List.map_cons, validateAll_cons, hpiece, List.flatten_cons, checkClauses_append, ih]
    rw [hruns]
    simp only [checkFields, htype]
    cases checkClauses name t runs.flatten <;> rfl

theorem validateAll_fieldPieces (field : String × List Clause) :
    validateAll typeOf (fieldPieces field) = checkFields typeOf [field] := by
  have hflat : (clauseRuns [] field.2).flatten = field.2 := flatten_clauseRuns [] field.2
  rw [fieldPieces, validateAll_runs typeOf (clauseRuns_ne_nil [] field.2), hflat]

theorem validateAll_groupPieces (groups : List Group) :
    validateAll typeOf (groups.map groupPiece) = validateGroups typeOf groups := by
  induction groups with
  | nil => rfl
  | cons g rest ih =>
    have hpiece : validate typeOf (groupPiece g) = validateGroup typeOf g := by
      simp only [groupPiece, validate, checkFields, validateGroups]
      cases validateGroup typeOf g <;> rfl
    rw [List.map_cons, validateAll_cons, hpiece, ih, validateGroups_cons]

/-- The parts have the first fault of the predicate. -/
theorem validateAll_pieces (fields : List (String × List Clause)) (groups : List Group) :
    validateAll typeOf (pieces fields groups) = validate typeOf (mk fields groups) := by
  have hfields : validateAll typeOf (fields.flatMap fieldPieces) = checkFields typeOf fields := by
    induction fields with
    | nil => rfl
    | cons field rest ih =>
      rw [List.flatMap_cons, validateAll_append, validateAll_fieldPieces, ih]
      exact (checkFields_cons typeOf field.1 field.2 rest).symm
  rw [pieces, validateAll_append, hfields, validateAll_groupPieces, validate_mk]

end

theorem document_groupPiece (g : Group) :
    (groupPiece g).document = partObject (g.key, groupDocument g) := by
  simp [groupPiece, document, groupParts, documentOf, partObject, Record.names, distinct]

/-- A run is written as one object. -/
theorem document_fieldPiece {name : String} {run : List Clause} (h : (operatorKeys run).Nodup) :
    (fieldPiece name run).document = partObject (name, .object (operatorMembers run)) := by
  have hrun : clauseRuns [] run = [run] := by
    rw [clauseRuns_of_nodup, List.nil_append]
    exact h
  simp [fieldPiece, document, groupParts, fieldParts_eq, hrun, documentOf, partObject,
    Record.names, distinct]

/-- The documents of the parts are the parts of the document. -/
theorem documents_pieces (fields : List (String × List Clause)) (groups : List Group) :
    documents (pieces fields groups) = (parts fields groups).map partObject := by
  have hfield (field : String × List Clause) :
      (fieldPieces field).map document = (fieldParts field).map partObject := by
    obtain ⟨name, cs⟩ := field
    rw [fieldPieces, fieldParts_eq, List.map_map, List.map_map]
    refine List.map_congr_left fun run hrun => document_fieldPiece ?_
    have hstart : (operatorKeys []).Nodup := List.nodup_nil
    exact nodup_of_mem_clauseRuns hstart hrun
  rw [documents_eq_map, pieces, parts, groupParts_eq_map, List.map_append, List.map_append,
    List.map_flatMap, List.map_flatMap, List.map_map, List.map_map]
  simp only [hfield, Function.comp_def, document_groupPiece]

/-- The parts of a predicate under one group. -/
def joined (fields : List (String × List Clause)) (groups : List Group) : Predicate :=
  mk [] [.and (pieces fields groups)]

/-- A predicate that is written as its parts says what its parts say together. -/
theorem agrees_joined {fields : List (String × List Clause)} {groups : List Group}
    (h : ¬ distinct (parts fields groups).names = true) :
    (joined fields groups).Agrees (mk fields groups) where
  holds r := by
    rw [← allHold_pieces]
    simp [joined, holds, fieldsHold, groupsHold, groupHolds]
  validate typeOf := by
    rw [← validateAll_pieces]
    simp only [joined, validate, checkFields, validateGroups, validateGroup]
    cases validateAll typeOf (pieces fields groups) <;> rfl
  document := by
    have hjoined : (joined fields groups).document =
        partObject ("$and", .array (documents (pieces fields groups))) :=
      document_groupPiece (.and (pieces fields groups))
    rw [document_mk, documentOf, if_neg h, hjoined, documents_pieces]
    rfl

/-! ## Reading the document -/

theorem readDocuments_eq_ok {docs : List Json} {ps : List Predicate}
    (h : List.Forall₂ (fun doc p => ofDocument doc = .ok p) docs ps) :
    readDocuments docs = .ok ps := by
  induction h with
  | nil => rfl
  | cons hdoc _ ih => rw [readDocuments, hdoc, ih]

theorem distinct_iff {names : List String} : distinct names = true ↔ names.Nodup := by
  induction names with
  | nil => simp [distinct]
  | cons name rest ih => simp [distinct, ih]

/-- What holds the group together. -/
def connective : Group → Connective
  | .and _ => .and
  | .or _ => .or
  | .not _ => .not
  | .nor _ => .nor

theorem ofKey?_key (g : Group) : Connective.ofKey? g.key = some (connective g) := by
  cases g <;> rfl

theorem isOperatorKey_key (g : Group) : isOperatorKey g.key = true := by
  cases g <;> simp [Group.key, isOperatorKey]

theorem isOperatorKey_operator (op : Operator) : isOperatorKey op.key = true := by
  cases op with
  | compare c => cases c <;> simp [Operator.key, isOperatorKey]
  | _ => simp [Operator.key, isOperatorKey]

theorem readClauses_operatorMembers (run : List Clause) :
    readClauses (operatorMembers run) = .ok run := by
  unfold operatorMembers
  induction run with
  | nil => rfl
  | cons c rest ih =>
    rw [List.map_cons, readClauses, Operator.ofKey?_key]
    simp only [Clause.make_operator_operand, ih]

/-- An object of operators is read as the clauses it was written for. -/
theorem readField_operatorMembers (run : List Clause) :
    readField (.object (operatorMembers run)) = .ok run := by
  have hkeys : (Record.names (operatorMembers run)).all isOperatorKey = true := by
    rw [names_operatorMembers, operatorKeys, List.all_map, List.all_eq_true]
    exact fun c _ => isOperatorKey_operator c.operator
  show (if _ then _ else _) = _
  rw [if_pos hkeys, readClauses_operatorMembers]

theorem ofDocument_object (members : Record) :
    ofDocument (.object members) = readMembers members := by
  rw [ofDocument]

theorem readMembers_nil : readMembers [] = .ok all := by
  rw [readMembers]

theorem readMembers_field {name : String} {run : List Clause} {rest : Record} {p : Predicate}
    (hname : isOperatorKey name = false) (hrest : readMembers rest = .ok p) :
    readMembers ((name, .object (operatorMembers run)) :: rest) =
      .ok (mk ((name, run) :: p.fields) p.groups) := by
  rw [readMembers, hname, if_neg Bool.false_ne_true, readField_operatorMembers, hrest]

theorem readMembers_group {g g' : Group} {rest : Record} {p : Predicate}
    (hg : readGroup (connective g) (groupDocument g) = .ok g')
    (hrest : readMembers rest = .ok p) :
    readMembers ((g.key, groupDocument g) :: rest) = .ok (mk p.fields (g' :: p.groups)) := by
  rw [readMembers, isOperatorKey_key, if_pos rfl, ofKey?_key]
  simp only [hg, hrest]

/-- The groups are read from what they were written as. -/
def GroupsRead (groups groups' : List Group) : Prop :=
  List.Forall₂ (fun g g' => readGroup (connective g) (groupDocument g) = .ok g') groups groups'

theorem readMembers_groupParts {groups groups' : List Group} (h : GroupsRead groups groups') :
    readMembers (groupParts groups) = .ok (mk [] groups') := by
  induction h with
  | nil => rfl
  | cons hg _ ih =>
    rw [groupParts, readMembers_group hg ih]
    rfl

section

variable {fields : List (String × List Clause)} {groups groups' : List Group}
  (hnames : ∀ field ∈ fields, isOperatorKey field.1 = false) (hgroups : GroupsRead groups groups')

include hnames hgroups

/-- Where every part has a key of its own, the parts are read as the predicate they make. -/
theorem readMembers_parts (h : (parts fields groups).names.Nodup) :
    readMembers (parts fields groups) = .ok (mk fields groups') := by
  induction fields with
  | nil => exact readMembers_groupParts hgroups
  | cons field rest ih =>
    obtain ⟨name, cs⟩ := field
    have hsplit : parts ((name, cs) :: rest) groups =
        fieldParts (name, cs) ++ parts rest groups := by
      rw [parts, List.flatMap_cons, List.append_assoc, parts]
    rw [hsplit, Record.names, List.map_append, List.nodup_append] at h
    have hrest := ih (fun field hfield => hnames field (List.mem_cons_of_mem _ hfield)) h.2.1
    -- two runs of clauses would stand under the one name of the field
    have hsingle : clauseRuns [] cs = [cs] := by
      have hflat : (clauseRuns [] cs).flatten = cs := flatten_clauseRuns [] cs
      have hne := clauseRuns_ne_nil [] cs
      have hnodup := h.1
      rw [fieldParts_eq, List.map_map] at hnodup
      generalize clauseRuns [] cs = runs at hflat hne hnodup
      match runs with
      | [] => exact absurd rfl hne
      | [run] => rw [← hflat, List.flatten_singleton]
      | run :: run' :: _ => simp at hnodup
    rw [hsplit, fieldParts_eq, hsingle]
    exact readMembers_field (hnames (name, cs) List.mem_cons_self) hrest

/-- Each part alone is read as the predicate it was made of. -/
theorem readDocuments_parts :
    readDocuments ((parts fields groups).map partObject) = .ok (pieces fields groups') := by
  have hpiece : ∀ field ∈ fields, List.Forall₂ (fun doc p => ofDocument doc = .ok p)
      ((fieldParts field).map partObject) (fieldPieces field) := by
    rintro ⟨name, cs⟩ hfield
    rw [fieldParts_eq, fieldPieces, List.map_map, List.forall₂_map_left_iff,
      List.forall₂_map_right_iff, List.forall₂_same]
    intro run _
    show ofDocument (.object [(name, .object (operatorMembers run))]) = _
    rw [ofDocument_object, readMembers_field (hnames (name, cs) hfield) readMembers_nil]
    rfl
  have hfields : List.Forall₂ (fun doc p => ofDocument doc = .ok p)
      ((fields.flatMap fieldParts).map partObject) (fields.flatMap fieldPieces) := by
    clear hnames
    induction fields with
    | nil => exact .nil
    | cons field rest ih =>
      rw [List.flatMap_cons, List.flatMap_cons, List.map_append]
      exact List.rel_append (hpiece field List.mem_cons_self)
        (ih fun field hfield => hpiece field (List.mem_cons_of_mem _ hfield))
  have hparts : List.Forall₂ (fun doc p => ofDocument doc = .ok p)
      ((groupParts groups).map partObject) (groups'.map groupPiece) := by
    rw [groupParts_eq_map, List.map_map, List.forall₂_map_left_iff, List.forall₂_map_right_iff]
    refine hgroups.imp fun g g' hg => ?_
    show ofDocument (.object [(g.key, groupDocument g)]) = _
    rw [ofDocument_object, readMembers_group hg readMembers_nil]
    rfl
  rw [parts, pieces, List.map_append]
  exact readDocuments_eq_ok (List.rel_append hfields hparts)

/-- The document of a predicate is read as the predicate, with its groups as they were read, or as
the parts of that under one group. -/
theorem ofDocument_document_mk :
    ofDocument (mk fields groups).document =
      .ok (if distinct (parts fields groups).names then mk fields groups'
        else joined fields groups') := by
  rw [document_mk, documentOf]
  split
  · next hdistinct =>
    rw [ofDocument_object, readMembers_parts hnames hgroups (distinct_iff.1 hdistinct)]
  · have hdocs : documents (pieces fields groups) = (parts fields groups).map partObject :=
      documents_pieces fields groups
    have hgroup : readGroup .and (.array (documents (pieces fields groups))) =
        .ok (.and (pieces fields groups')) := by
      rw [readGroup, hdocs]
      simp only [Connective.joining?, readDocuments_parts hnames hgroups]
    rw [ofDocument_object]
    show readMembers [("$and", .array ((parts fields groups).map partObject))] = _
    rw [← hdocs]
    exact readMembers_group (g := .and (pieces fields groups)) hgroup readMembers_nil

end

theorem document_eq_object (p : Predicate) : ∃ members, p.document = .object members := by
  obtain ⟨fields, groups⟩ := p
  rw [document_mk, documentOf]
  split
  · exact ⟨_, rfl⟩
  · exact ⟨_, rfl⟩

/-! ## Predicates that can come about -/

/-- The predicates that are put together from clauses and those that are read. -/
inductive Built : Predicate → Prop where
  | all : Built all
  | field (name : String) (clause : Clause) : Built (field name clause)
  | require {p : Predicate} (h : Built p) (name : String) (clause : Clause) :
    Built (p.require name clause)
  | conj {p q : Predicate} (hp : Built p) (hq : Built q) : Built (p.conj q)
  | disj {p q : Predicate} (hp : Built p) (hq : Built q) : Built (p.disj q)
  | negate {p : Predicate} (h : Built p) : Built p.negate
  | noneOf {ps : List Predicate} (h : ∀ p ∈ ps, Built p) : Built (noneOf ps)
  | read {members : Record} {p : Predicate} (hnames : members.names.Nodup)
    (h : ofDocument (.object members) = .ok p) : Built p

theorem nodup_require {p : Predicate} (h : p.fieldNames.Nodup) (name : String) (clause : Clause) :
    (p.require name clause).fieldNames.Nodup := nodup_addClause h name clause

theorem nodup_conj {p : Predicate} (h : p.fieldNames.Nodup) (q : Predicate) :
    (p.conj q).fieldNames.Nodup := by
  obtain ⟨joined, hjoined, hconj⟩ := exists_conj_eq (motive := fun p => p.fieldNames.Nodup) q h
    fun p name clause _ hp => nodup_require hp name clause
  rw [hconj]
  exact hjoined

/-- A member of a document is read as a group or as a field of its own. -/
theorem readMembers_cons_eq_ok {key : String} {value : Json} {rest : Record} {p : Predicate}
    (h : readMembers ((key, value) :: rest) = .ok p) :
    ∃ q, readMembers rest = .ok q ∧
      ((∃ c g, readGroup c value = .ok g ∧ p = mk q.fields (g :: q.groups)) ∨
        ∃ cs, isOperatorKey key = false ∧ p = mk ((key, cs) :: q.fields) q.groups) := by
  rw [readMembers] at h
  split at h
  · cases hc : Connective.ofKey? key with
    | none => simp [hc] at h
    | some c =>
      cases hg : readGroup c value with
      | error e => simp [hc, hg] at h
      | ok g =>
        cases hrest : readMembers rest with
        | error e => simp [hc, hg, hrest] at h
        | ok q =>
          simp only [hc, hg, hrest, Except.ok.injEq] at h
          exact ⟨q, rfl, .inl ⟨c, g, hg, h.symm⟩⟩
  · next hkey =>
    cases hcs : readField value with
    | error e => simp [hcs] at h
    | ok cs =>
      cases hrest : readMembers rest with
      | error e => simp [hcs, hrest] at h
      | ok q =>
        simp only [hcs, hrest, Except.ok.injEq] at h
        exact ⟨q, rfl, .inr ⟨cs, Bool.eq_false_iff.2 hkey, h.symm⟩⟩

theorem readDocuments_cons_eq_ok {doc : Json} {rest : List Json} {ps : List Predicate}
    (h : readDocuments (doc :: rest) = .ok ps) :
    ∃ p qs, ofDocument doc = .ok p ∧ readDocuments rest = .ok qs ∧ ps = p :: qs := by
  rw [readDocuments] at h
  cases hdoc : ofDocument doc with
  | error e => simp [hdoc] at h
  | ok p =>
    cases hrest : readDocuments rest with
    | error e => simp [hdoc, hrest] at h
    | ok qs =>
      simp only [hdoc, hrest, Except.ok.injEq] at h
      exact ⟨p, qs, rfl, rfl, h.symm⟩

/-- The items of a group are read from the documents that its value holds. -/
theorem readGroup_eq_ok {c : Connective} {value : Json} {g : Group}
    (h : readGroup c value = .ok g) :
    (∃ docs, value = .array docs ∧ readDocuments docs = .ok g.items) ∨
      ∃ members p, value = .object members ∧ readMembers members = .ok p ∧ g.items = [p] := by
  cases value with
  | array docs =>
    rw [readGroup] at h
    cases hread : readDocuments docs with
    | error e => cases c <;> simp [Connective.joining?, hread] at h
    | ok ps =>
      refine .inl ⟨docs, rfl, ?_⟩
      cases c <;> simp only [Connective.joining?, hread, Except.ok.injEq, reduceCtorEq] at h <;>
        exact h ▸ hread
  | object members =>
    rw [readGroup] at h
    split at h
    · cases hread : readMembers members with
      | error e => simp [hread] at h
      | ok p =>
        simp only [hread, Except.ok.injEq] at h
        exact .inr ⟨members, p, rfl, hread, h ▸ rfl⟩
    · cases h
  | null | bool | number | string => simp [readGroup] at h

mutual

/-- No field that is read, at any depth, is named like an operator. -/
theorem hasPlainNames_of_read {doc : Json} {p : Predicate} (h : ofDocument doc = .ok p) :
    p.HasPlainNames := by
  match doc with
  | .object members =>
    rw [ofDocument_object] at h
    exact hasPlainNames_of_members h
  | .null | .bool _ | .number _ | .string _ | .array _ => simp [ofDocument] at h

theorem hasPlainNames_of_members {members : Record} {p : Predicate}
    (h : readMembers members = .ok p) : p.HasPlainNames := by
  match members with
  | [] =>
    rw [readMembers_nil] at h
    cases h
    exact .all
  | (key, value) :: rest =>
    obtain ⟨q, hq, ⟨c, g, hg, rfl⟩ | ⟨cs, hkey, rfl⟩⟩ := readMembers_cons_eq_ok h
    · obtain ⟨hfields, hgroups⟩ := hasPlainNames_of_members hq
      refine .intro hfields fun g' hg' => ?_
      rcases List.mem_cons.1 hg' with rfl | hg'
      · exact hasPlainNames_of_group hg
      · exact hgroups g' hg'
    · obtain ⟨hfields, hgroups⟩ := hasPlainNames_of_members hq
      refine .intro (fun n hn => ?_) hgroups
      rcases List.mem_cons.1 hn with rfl | hn
      · exact hkey
      · exact hfields n hn

theorem hasPlainNames_of_group {c : Connective} {value : Json} {g : Group}
    (h : readGroup c value = .ok g) : ∀ item ∈ g.items, item.HasPlainNames := by
  match value, readGroup_eq_ok h with
  | .array docs, .inl ⟨_, he, hread⟩ =>
    cases he
    exact hasPlainNames_of_documents hread
  | .object members, .inr ⟨_, p, he, hread, hitems⟩ =>
    cases he
    intro item hitem
    rw [hitems, List.mem_singleton] at hitem
    exact hitem ▸ hasPlainNames_of_members hread

theorem hasPlainNames_of_documents {docs : List Json} {ps : List Predicate}
    (h : readDocuments docs = .ok ps) : ∀ item ∈ ps, item.HasPlainNames := by
  match docs with
  | [] =>
    rw [readDocuments] at h
    cases h
    exact fun _ hitem => nomatch hitem
  | doc :: rest =>
    obtain ⟨p, qs, hp, hqs, rfl⟩ := readDocuments_cons_eq_ok h
    intro item hitem
    rcases List.mem_cons.1 hitem with rfl | hitem
    · exact hasPlainNames_of_read hp
    · exact hasPlainNames_of_documents hqs item hitem

end

theorem fieldNames_sublist {members : Record} {p : Predicate} (h : readMembers members = .ok p) :
    p.fieldNames.Sublist members.names := by
  induction members generalizing p with
  | nil =>
    rw [readMembers_nil] at h
    cases h
    exact List.Sublist.refl []
  | cons m rest ih =>
    obtain ⟨q, hq, ⟨_, _, -, rfl⟩ | ⟨cs, -, rfl⟩⟩ := readMembers_cons_eq_ok h
    · exact (ih hq).cons m.1
    · exact (ih hq).cons_cons m.1

/-- In a predicate that is built, each field has its clauses in one place. -/
theorem Built.nodup {p : Predicate} (h : Built p) : p.fieldNames.Nodup := by
  induction h with
  | all => exact List.nodup_nil
  | field name clause => exact List.nodup_singleton name
  | require _ name clause ih => exact nodup_require ih name clause
  | conj _ _ ihp _ => exact nodup_conj ihp _
  | disj => exact List.nodup_nil
  | negate => exact List.nodup_nil
  | noneOf => exact List.nodup_nil
  | read hnames hread =>
    rw [ofDocument_object] at hread
    exact (fieldNames_sublist hread).nodup hnames

/-- The document of the predicate is read, as a predicate that agrees with it. -/
def Recovered (p : Predicate) : Prop := ∃ p', ofDocument p.document = .ok p' ∧ p'.Agrees p

theorem recovered_documents {items : List Predicate} (h : ∀ p ∈ items, p.Recovered) :
    ∃ ps, readDocuments (documents items) = .ok ps ∧ List.Forall₂ Agrees ps items := by
  obtain ⟨ps, hps⟩ := exists_forall₂ h
  refine ⟨ps, readDocuments_eq_ok ?_, (hps.imp fun _ _ hp => hp.2).flip⟩
  rw [documents_eq_map, List.forall₂_map_left_iff]
  exact hps.imp fun _ _ hp => hp.1

theorem readGroup_array {c : Connective} {join : List Predicate → Group} {docs : List Json}
    {ps : List Predicate} (hjoin : c.joining? = some join) (hread : readDocuments docs = .ok ps) :
    readGroup c (.array docs) = .ok (join ps) := by
  simp only [readGroup, hjoin, hread]

/-- A group of predicates that are recovered is recovered. -/
theorem recovered_group (g : Group) (h : ∀ item ∈ g.items, item.Recovered) :
    ∃ g', readGroup (connective g) (groupDocument g) = .ok g' ∧ GroupAgrees g' g := by
  cases g with
  | and items =>
    obtain ⟨ps, hread, hps⟩ := recovered_documents h
    have hdocs := congrArg Json.array (documents_congr hps)
    exact ⟨.and ps, readGroup_array rfl hread,
      rfl, allHold_congr hps, validateAll_congr hps, hdocs⟩
  | or items =>
    obtain ⟨ps, hread, hps⟩ := recovered_documents h
    have hdocs := congrArg Json.array (documents_congr hps)
    exact ⟨.or ps, readGroup_array rfl hread,
      rfl, someHolds_congr hps, validateAll_congr hps, hdocs⟩
  | nor items =>
    obtain ⟨ps, hread, hps⟩ := recovered_documents h
    have hholds (r : Record) : (!someHolds ps r) = !someHolds items r :=
      congrArg (!·) (someHolds_congr hps r)
    have hdocs := congrArg Json.array (documents_congr hps)
    exact ⟨.nor ps, readGroup_array rfl hread,
      rfl, hholds, validateAll_congr hps, hdocs⟩
  | not item =>
    obtain ⟨p, hread, hp⟩ := h item List.mem_cons_self
    obtain ⟨members, hmembers⟩ := document_eq_object item
    rw [hmembers, ofDocument_object] at hread
    have hholds (r : Record) : (!p.holds r) = !item.holds r := congrArg (!·) (hp.holds r)
    refine ⟨.not p, ?_, rfl, hholds, hp.validate, hp.document⟩
    simp only [groupDocument, connective, hmembers, readGroup, if_true, hread]

/-- A predicate that asks nothing has one part for each of its fields. -/
theorem distinct_of_isEmpty {fields : List (String × List Clause)} {groups : List Group}
    (hempty : (mk fields groups).isEmpty = true) (hnodup : (mk fields groups).fieldNames.Nodup) :
    distinct (parts fields groups).names = true := by
  obtain ⟨hgroups, hfields⟩ := Bool.and_eq_true_iff.1 hempty
  have hnone : groups = [] := List.isEmpty_iff.1 hgroups
  have hnames : (fields.flatMap fieldParts).map Prod.fst = fields.map Prod.fst := by
    clear hempty hnodup hgroups hnone
    induction fields with
    | nil => rfl
    | cons field rest ih =>
      obtain ⟨name, cs⟩ := field
      obtain ⟨hcs, hrest⟩ := Bool.and_eq_true_iff.1 hfields
      have hnil : cs = [] := List.isEmpty_iff.1 hcs
      rw [List.flatMap_cons, List.map_append, List.map_cons, ih hrest, hnil]
      rfl
  rw [distinct_iff, parts, hnone, groupParts, List.append_nil, Record.names, hnames]
  exact hnodup

/-- What is read back from the document of a predicate with plain names, with what the reading
keeps. -/
theorem HasPlainNames.exists_read {p : Predicate} (h : p.HasPlainNames) :
    ∃ p', ofDocument p.document = .ok p' ∧ p'.Agrees p ∧
      (p.fieldNames.Nodup → p'.isEmpty = p.isEmpty) := by
  -- on the way up: the items of every group have been recovered
  induction h with
  | @intro p hnames _ ih =>
    obtain ⟨fields, groups⟩ := p
    have hfields : ∀ field ∈ fields, isOperatorKey field.1 = false :=
      fun _ hfield => hnames _ (List.mem_map_of_mem hfield)
    have hgroups : ∀ g ∈ groups, ∃ g',
        readGroup (connective g) (groupDocument g) = .ok g' ∧ GroupAgrees g' g := by
      refine fun g hg => recovered_group g fun item hitem => ?_
      obtain ⟨item', hread, hagrees, -⟩ := ih g hg item hitem
      exact ⟨item', hread, hagrees⟩
    obtain ⟨groups', hgroups'⟩ := exists_forall₂ hgroups
    have hread : GroupsRead groups groups' := hgroups'.imp fun _ _ hg => hg.1
    have hgs : List.Forall₂ GroupAgrees groups' groups := (hgroups'.imp fun _ _ hg => hg.2).flip
    have hagrees : (Predicate.mk fields groups').Agrees (.mk fields groups) := agrees_mk hgs fields
    have hparts : parts fields groups' = parts fields groups := by
      rw [parts, parts, groupParts_congr hgs]
    refine ⟨_, ofDocument_document_mk hfields hread, ?_, ?_⟩
    · split
      · exact hagrees
      · next hkeys => exact (agrees_joined (hparts ▸ hkeys)).trans hagrees
    · intro hnodup
      split
      · cases hgs <;> rfl
      · next hkeys =>
        have hasks : (Predicate.mk fields groups).isEmpty = false :=
          Bool.eq_false_iff.2 fun hempty => hkeys (distinct_of_isEmpty hempty hnodup)
        rw [hasks]
        rfl

/-- What is written for a predicate is read back, as a predicate that no record, no typing of the
fields and no further writing tells from it. -/
theorem ofDocument_document {p : Predicate} (hbuilt : p.Built) (hnames : p.HasPlainNames) :
    ∃ p', ofDocument p.document = .ok p' ∧ (∀ r, p'.holds r = p.holds r) ∧
      (∀ typeOf, p'.validate typeOf = p.validate typeOf) ∧ p'.isEmpty = p.isEmpty ∧
      p'.document = p.document := by
  obtain ⟨p', hread, hagrees, hempty⟩ := hnames.exists_read
  exact ⟨p', hread, hagrees.holds, hagrees.validate, hempty hbuilt.nodup, hagrees.document⟩

/-- Two clauses of one operator and two disjunctions, one of them with a negation in it: the
document is an `$and` of four parts. -/
theorem ofDocument_document_repeated :
    let older := field "age" (.compare .gt (.ofInt 18))
    let named := field "name" (.compare .eq (.string "bob"))
    let p := ((older.require "age" (.compare .gt (.ofInt 21))).conj (older.disj named)).conj
      (named.disj older.negate)
    p.document = .object [("$and", .array [
        .object [("age", .object [("$gt", .ofInt 18)])],
        .object [("age", .object [("$gt", .ofInt 21)])],
        .object [("$or", .array [.object [("age", .object [("$gt", .ofInt 18)])],
          .object [("name", .object [("$eq", .string "bob")])]])],
        .object [("$or", .array [.object [("name", .object [("$eq", .string "bob")])],
          .object [("$not", .object [("age", .object [("$gt", .ofInt 18)])])]])]])] ∧
    ∃ p', ofDocument p.document = .ok p' ∧ (∀ r, p'.holds r = p.holds r) ∧
      (∀ typeOf, p'.validate typeOf = p.validate typeOf) ∧ p'.isEmpty = p.isEmpty ∧
      p'.document = p.document := by
  intro older named p
  have hold : older.HasPlainNames := HasPlainNames.all.require (by simp [isOperatorKey]) _
  have hnamed : named.HasPlainNames := HasPlainNames.all.require (by simp [isOperatorKey]) _
  have hbuilt : p.Built :=
    .conj (.conj (.require (.field _ _) _ _) (.disj (.field _ _) (.field _ _)))
      (.disj (.field _ _) (.negate (.field _ _)))
  have hnames : p.HasPlainNames :=
    ((hold.require (by simp [isOperatorKey]) _).conj (hold.disj hnamed)).conj
      (hnamed.disj hold.negate)
  exact ⟨rfl, ofDocument_document hbuilt hnames⟩

end ODataEngine.Predicate
