import Reports.Proofs.Report.Assembly

/-! The columns that a report selects: the identity of a row, the identifiers, and what is
displayed. -/
namespace Reports

open Sql (Query uniqueId)

def Field.column? (f : Field) : Option (String × String) := f.select.map fun expr => (f.name, expr)

def Named (fs : List Field) : Prop := ∀ f ∈ fs, f.select ≠ none → f.name ≠ ""

instance (fs : List Field) : Decidable (Named fs) :=
  inferInstanceAs (Decidable (∀ f ∈ fs, f.select ≠ none → f.name ≠ ""))

namespace Request

theorem selects_selectFields (q : Query) {fs : List Field} (named : Named fs) :
    (selectFields q fs).selects = q.selects.merge ⟨fs.filterMap Field.column?⟩ := by
  induction fs generalizing q with
  | nil => rfl
  | cons f rest ih =>
    have later := fun first => ih first fun g mem => named g (List.mem_cons_of_mem _ mem)
    cases select : f.select with
    | none =>
      have fold : selectFields q (f :: rest) = selectFields q rest := by
        simp only [selectFields, List.foldl_cons, select]
      rw [fold, later, List.filterMap_cons_none (by rw [Field.column?, select]; rfl)]
    | some expr =>
      have fold : selectFields q (f :: rest) = selectFields (q.select expr f.name) rest := by
        simp only [selectFields, List.foldl_cons, select]
      have name : f.name.isEmpty = false := by
        have some := named f List.mem_cons_self (by rw [select]; exact Option.some_ne_none expr)
        simpa using some
      have written : (q.select expr f.name).selects = q.selects.insert f.name expr := by
        change q.selects.insert (if f.name.isEmpty then expr else f.name) expr = _
        rw [name]
        rfl
      rw [fold, later, List.filterMap_cons_some (by rw [Field.column?, select]; rfl),
        OrderedMap.merge_cons, ← written]

theorem perm_displayFields (r : Request) :
    ∃ kept, r.displayFields.Perm (r.fields.filter kept) := by
  unfold displayFields
  split
  · refine ⟨(·.isVisible), ?_⟩
    have parts := List.filter_append_perm (·.isIdentifier) (r.fields.filter (·.isVisible))
    simpa using parts
  · next p _ => exact ⟨p.isFieldVisible, List.mergeSort_perm _ _⟩

theorem mem_fields_of_mem_displayFields (r : Request) {f : Field} (mem : f ∈ r.displayFields) :
    f ∈ r.fields := by
  obtain ⟨kept, perm⟩ := r.perm_displayFields
  exact (List.mem_filter.mp (perm.mem_iff.mp mem)).1

theorem nodup_displayFields {r : Request} (distinct : (r.fields.map (·.name)).Nodup) :
    (r.displayFields.map (·.name)).Nodup := by
  obtain ⟨kept, perm⟩ := r.perm_displayFields
  apply (perm.map (·.name)).nodup_iff.mpr
  exact distinct.sublist (List.filter_sublist.map _)

def identityEntry (r : Request) (exprs : List String) : List (String × String) :=
  ((identityExpr r.dialect r.settings.delimiter exprs).map fun expr => (uniqueId, expr)).toList

theorem eq_uniqueId_of_mem {r : Request} {exprs : List String} {e : String × String}
    (mem : e ∈ r.identityEntry exprs) : e.1 = uniqueId := by
  unfold identityEntry at mem
  cases identity : identityExpr r.dialect r.settings.delimiter exprs with
  | none =>
    rw [identity] at mem
    cases mem
  | some expr =>
    rw [identity] at mem
    rw [List.mem_singleton.mp mem]

theorem identityParts_eq {fs : List Field} {exprs : List String}
    (parts : identityParts fs = .ok exprs) :
    fs.map Field.select = exprs.map some := by
  induction fs generalizing exprs with
  | nil =>
    cases parts
    rfl
  | cons f rest ih =>
    cases select : f.select with
    | none =>
      rw [identityParts, select] at parts
      cases parts
    | some expr =>
      rw [identityParts, select] at parts
      obtain ⟨later, found, last⟩ := Effect.ok_of_bind parts
      cases last
      rw [List.map_cons, List.map_cons, select, ih found]

theorem selects_of_base {r : Request} {q : Query} (named : Named r.fields) (base : r.base = .ok q) :
    ∃ exprs, identityParts (r.fields.filter (·.isIdentifier)) = .ok exprs ∧
      q.selects = ((r.report.template.selects.merge ⟨r.identityEntry exprs⟩).merge
        ⟨(r.fields.filter (·.isIdentifier)).filterMap Field.column?⟩).merge
          ⟨r.displayFields.filterMap Field.column?⟩ := by
  have trivially : Filter.CollectionSql.effect ⟨.ofParts [], .ofParts []⟩ = ([], []) := rfl
  simp only [Request.base, arrange, restrict_eq, trivially, Query.restricted_nil] at base
  obtain ⟨exprs, parts, arranged⟩ := Effect.ok_of_bind base
  refine ⟨exprs, parts, ?_⟩
  have passes
    (first : Query) : (selectFields (selectFields first (r.fields.filter (·.isIdentifier)))
      r.displayFields).selects =
        (first.selects.merge ⟨(r.fields.filter (·.isIdentifier)).filterMap Field.column?⟩).merge
          ⟨r.displayFields.filterMap Field.column?⟩ := by
    rw [selects_selectFields _ fun f mem => named f (r.mem_fields_of_mem_displayFields mem),
      selects_selectFields _ fun f mem => named f (List.mem_filter.mp mem).1]
  rw [identityEntry]
  -- Neither the order nor the page touches what is selected.
  cases identity : identityExpr r.dialect r.settings.delimiter exprs <;>
    cases sort : r.resolveSort r.displayFields <;>
      by_cases paginated : r.layout.isPaginated = true <;>
        simp only [identity, sort, paginated, if_true, Bool.false_eq_true, if_false] at arranged <;>
          cases arranged <;> exact passes _

theorem selects_of_buildQuery {r : Request} {s s' : Session} {q : Query} (named : Named r.fields)
    (built : r.buildQuery s = (.ok q, s')) :
    ∃ exprs, identityParts (r.fields.filter (·.isIdentifier)) = .ok exprs ∧
      q.selects = ((r.report.template.selects.merge ⟨r.identityEntry exprs⟩).merge
        ⟨(r.fields.filter (·.isIdentifier)).filterMap Field.column?⟩).merge
          ⟨r.displayFields.filterMap Field.column?⟩ := by
  obtain ⟨x, m, base, whole, -, found, rfl, -⟩ := render_of_buildQuery built
  obtain ⟨exprs, parts, selects⟩ := selects_of_base named found
  exact ⟨exprs, parts, selects⟩

theorem eq_of_column? {f : Field} {e : String × String} (column : f.column? = some e) :
    e.1 = f.name ∧ f.select = some e.2 := by
  obtain ⟨expr, select, rfl⟩ := Option.map_eq_some_iff.mp column
  exact ⟨rfl, select⟩

theorem nodup_columns {fs : List Field} (distinct : (fs.map (·.name)).Nodup) :
    ((fs.filterMap Field.column?).map Prod.fst).Nodup := by
  have names : ((fs.filterMap Field.column?).map Prod.fst).Sublist (fs.map (·.name)) := by
    induction fs with
    | nil => exact List.Sublist.refl _
    | cons f rest ih =>
      have later := ih (List.nodup_cons.mp distinct).2
      cases column : f.column? with
      | none =>
        rw [List.filterMap_cons_none column]
        exact later.cons _
      | some e =>
        rw [List.filterMap_cons_some column, List.map_cons, (eq_of_column? column).1]
        exact later.cons_cons _
  exact distinct.sublist names

/-- No field that is selected has the column reserved for the identity. -/
def Unreserved (r : Request) : Prop :=
  ∀ f ∈ r.fields.filter (·.isIdentifier) ++ r.displayFields, f.select ≠ none →
    f.name ≠ uniqueId

instance (r : Request) : Decidable r.Unreserved :=
  inferInstanceAs (Decidable (∀ f ∈ _, _ → _))

theorem Unreserved.notMem {r : Request} (free : r.Unreserved) {fs : List Field}
    (inside : fs ⊆ r.fields.filter (·.isIdentifier) ++ r.displayFields) :
    uniqueId ∉ (⟨fs.filterMap Field.column?⟩ : OrderedMap String String).keys := by
  intro mem
  obtain ⟨e, he, same⟩ := List.mem_map.mp mem
  obtain ⟨f, hf, column⟩ := List.mem_filterMap.mp he
  obtain ⟨name, select⟩ := eq_of_column? column
  exact free f (inside hf) (by rw [select]; exact Option.some_ne_none _) (name.symm.trans same)

/-- The expression that identifies a row is selected unless a field takes its column. -/
theorem getSelect?_uniqueId {r : Request} {s s' : Session} {q : Query} (named : Named r.fields)
    (free : r.Unreserved) (built : r.buildQuery s = (.ok q, s')) {exprs : List String}
    {expr : String}
    (parts : identityParts (r.fields.filter (·.isIdentifier)) = .ok exprs)
    (identity : identityExpr r.dialect r.settings.delimiter exprs = some expr) :
    q.getSelect? uniqueId = some expr := by
  obtain ⟨exprs', parts', selects⟩ := selects_of_buildQuery named built
  cases parts.symm.trans parts'
  rw [Query.getSelect?, selects,
    OrderedMap.get?_merge_of_notMem (free.notMem (List.subset_append_right _ _)),
    OrderedMap.get?_merge_of_notMem (free.notMem (List.subset_append_left _ _)),
    identityEntry, identity]
  exact (OrderedMap.get?_insert _ _ _ _).trans (if_pos rfl)

/-- The columns of a report in order: the identity, the identifiers as they are declared, and what
else is displayed as it is displayed. -/
def columns (r : Request) (exprs : List String) : List (String × String) :=
  r.identityEntry exprs ++ (r.fields.filter (·.isIdentifier)).filterMap Field.column? ++
    (r.displayFields.filter fun f => !f.isIdentifier).filterMap Field.column?

theorem entries_identified {r : Request} (exprs : List String)
    (distinct : (r.fields.map (·.name)).Nodup) (free : r.Unreserved) :
    (((∅ : OrderedMap String String).merge ⟨r.identityEntry exprs⟩).merge
      ⟨(r.fields.filter (·.isIdentifier)).filterMap Field.column?⟩).entries =
        r.identityEntry exprs ++ (r.fields.filter (·.isIdentifier)).filterMap Field.column? := by
  have identity : ((r.identityEntry exprs).map Prod.fst).Nodup := by
    unfold identityEntry
    cases identityExpr r.dialect r.settings.delimiter exprs <;> simp
  have identifiers : ((r.fields.filter (·.isIdentifier)).map (·.name)).Nodup :=
    distinct.sublist (List.filter_sublist.map _)
  have alone := OrderedMap.empty_merge (m := ⟨r.identityEntry exprs⟩) identity
  rw [alone]
  apply OrderedMap.entries_merge_of_nodup
  apply List.nodup_append.mpr
  refine ⟨identity, nodup_columns identifiers, ?_⟩
  rintro k inIdentity _ mem rfl
  obtain ⟨e, he, rfl⟩ := List.mem_map.mp inIdentity
  rw [eq_uniqueId_of_mem he] at mem
  exact free.notMem (List.subset_append_left _ _) mem

theorem entries_displayed {r : Request} {m : OrderedMap String String}
    (distinct : (r.fields.map (·.name)).Nodup) (once : m.keys.Nodup)
    (there : ∀ f ∈ r.displayFields, ∀ e, f.column? = some e →
      (f.isIdentifier = true → e ∈ m.entries) ∧ (e.1 ∈ m.keys → f.isIdentifier = true)) :
    (m.merge ⟨r.displayFields.filterMap Field.column?⟩).entries =
      m.entries ++ (r.displayFields.filter fun f => !f.isIdentifier).filterMap Field.column? := by
  rw [OrderedMap.entries_merge_of_agree _ (nodup_columns (nodup_displayFields distinct))]
  · congr 1
    rw [List.filter_filterMap, List.filterMap_filter]
    apply List.filterMap_congr
    intro f mem
    cases column : f.column? with
    | none => simp
    | some e =>
      obtain ⟨old, new⟩ := there f mem e column
      by_cases identifier : f.isIdentifier = true
      · have known : e.1 ∈ m.keys := List.mem_map_of_mem (old identifier)
        simp [identifier, known]
      · have unknown : e.1 ∉ m.keys := fun known => identifier (new known)
        simp [identifier, unknown]
  · intro e mem known
    obtain ⟨f, hf, column⟩ := List.mem_filterMap.mp mem
    obtain ⟨old, new⟩ := there f hf e column
    exact OrderedMap.get?_of_mem_entries once (old (new known))

theorem entries_of_buildQuery {r : Request} {s s' : Session} {q : Query}
    (built : r.buildQuery s = (.ok q, s')) (bare : r.report.template.selects = ∅)
    (distinct : (r.fields.map (·.name)).Nodup) (named : Named r.fields) (free : r.Unreserved) :
    ∃ exprs, identityParts (r.fields.filter (·.isIdentifier)) = .ok exprs ∧
      q.selects.entries = r.columns exprs := by
  obtain ⟨exprs, parts, selects⟩ := selects_of_buildQuery named built
  refine ⟨exprs, parts, ?_⟩
  rw [bare] at selects
  obtain ⟨m, start⟩ : ∃ m,
    ((∅ : OrderedMap String String).merge ⟨r.identityEntry exprs⟩).merge
      ⟨(r.fields.filter (·.isIdentifier)).filterMap Field.column?⟩ = m := ⟨_, rfl⟩
  have entries := entries_identified exprs distinct free
  have once : m.keys.Nodup := by
    rw [← start]
    have empty : (∅ : OrderedMap String String).keys.Nodup := List.nodup_nil
    exact OrderedMap.nodup_keys_merge (OrderedMap.nodup_keys_merge empty _) _
  rw [start] at selects entries
  rw [selects, columns, ← entries]
  apply entries_displayed distinct once
  intro f mem e column
  obtain ⟨name, select⟩ := eq_of_column? column
  have field := r.mem_fields_of_mem_displayFields mem
  constructor
  · intro identifier
    rw [entries]
    exact List.mem_append_right _
      (List.mem_filterMap.mpr ⟨f, List.mem_filter.mpr ⟨field, identifier⟩, column⟩)
  · intro known
    obtain ⟨d, mem', same⟩ := List.mem_map.mp known
    rw [entries] at mem'
    rcases List.mem_append.mp mem' with identity | identifiers
    · have reserved : f.name = uniqueId := by rw [← name, ← same, eq_uniqueId_of_mem identity]
      have selected : f.select ≠ none := by rw [select]; exact Option.some_ne_none _
      exact absurd reserved (free f (List.mem_append_right _ mem) selected)
    · obtain ⟨g, hg, column'⟩ := List.mem_filterMap.mp identifiers
      obtain ⟨inside, identifier⟩ := List.mem_filter.mp hg
      have equal : g = f := List.inj_on_of_nodup_map distinct inside field (by
        rw [← (eq_of_column? column').1, same, name])
      exact equal ▸ identifier

theorem nodup_of_firstDuplicate {seen names : List String}
    (none : firstDuplicate seen names = .none) :
    names.Nodup ∧ ∀ n ∈ names, n ∉ seen := by
  induction names generalizing seen with
  | nil => exact ⟨List.nodup_nil, fun n mem => nomatch mem⟩
  | cons n rest ih =>
    rw [firstDuplicate] at none
    split at none
    · cases none
    · next new =>
      obtain ⟨distinct, later⟩ := ih none
      have fresh : n ∉ seen := by simpa using new
      refine ⟨List.nodup_cons.mpr ⟨fun mem => later n mem List.mem_cons_self, distinct⟩, ?_⟩
      exact List.forall_mem_cons.mpr
        ⟨fresh, fun k mem inside => later k mem (List.mem_cons_of_mem _ inside)⟩

theorem nodup_of_new {report : Report} {storage : Storage} {context : Filter.Context} {clock : Int}
    {r : Request} (made : Request.new report storage context clock = .ok r) :
    (r.fields.map (·.name)).Nodup := by
  unfold Request.new at made
  dsimp only at made
  split at made
  · cases made
  · next none =>
    obtain ⟨filters, -, last⟩ := Effect.ok_of_bind made
    cases last
    exact (nodup_of_firstDuplicate none).1

/-- The select list has the identity first, and so leaves these columns where they are. -/
theorem selectList_of_entries {c : Sql.Clauses} {identity : Option String}
    {rest : List (String × String)}
    (entries : c.selects.entries = (identity.map fun expr => (uniqueId, expr)).toList ++ rest)
    (free : uniqueId ∉ rest.map Prod.fst) :
    c.selectList = if c.selects.entries = [] then "*"
      else Text.join ", " (c.selects.entries.map fun e => Sql.Clauses.column e.1 e.2) := by
  have others : rest.filter (fun e => decide (e.1 ≠ uniqueId)) = rest := by
    apply List.filter_eq_self.mpr
    intro e mem
    exact decide_eq_true fun same => free (same ▸ List.mem_map_of_mem mem)
  rw [Sql.Clauses.selectList, OrderedMap.isEmpty, OrderedMap.get?, entries]
  cases identity with
  | none =>
    have absent : OrderedMap.lookup uniqueId rest = none :=
      (OrderedMap.get?_eq_none_iff ⟨rest⟩ uniqueId).mpr free
    simp only [Option.map_none, Option.toList_none, List.nil_append, absent, others,
      List.isEmpty_iff]
    rfl
  | some expr =>
    have first : OrderedMap.lookup uniqueId ((uniqueId, expr) :: rest) = some expr := if_pos rfl
    have behind : ((uniqueId, expr) :: rest).filter
        (fun e => decide (e.1 ≠ uniqueId)) = rest := by
      rw [List.filter_cons_of_neg (by simp), others]
    simp only [Option.map_some, Option.toList_some, List.singleton_append, first, behind]
    rfl

/-- What a report selects: its columns in order, each once, unless a field takes the column that is
reserved for the identity of a row. A displayed field of that name replaces the identity. -/
theorem selectList_of_buildQuery {r : Request} {s s' : Session} {q : Query}
    (built : r.buildQuery s = (.ok q, s')) (bare : r.report.template.selects = ∅)
    (distinct : (r.fields.map (·.name)).Nodup) (named : Named r.fields) :
    ∃ exprs, (r.fields.filter (·.isIdentifier)).map Field.select = exprs.map some ∧
      (r.Unreserved → q.selects.entries = r.columns exprs ∧
        ((r.columns exprs).map Prod.fst).Nodup ∧ q.selectList = if r.columns exprs = [] then "*"
          else Text.join ", " ((r.columns exprs).map fun e => Sql.Clauses.column e.1 e.2)) ∧
      ∀ f ∈ r.displayFields, f.name = uniqueId → ∀ expr, f.select = some expr →
        q.getSelect? uniqueId = some expr := by
  obtain ⟨exprs, parts, selects⟩ := selects_of_buildQuery named built
  refine ⟨exprs, identityParts_eq parts, fun free => ?_, fun f mem reserved expr select => ?_⟩
  · obtain ⟨exprs', parts', entries⟩ := entries_of_buildQuery built bare distinct named free
    cases parts.symm.trans parts'
    have once : q.selects.keys.Nodup := by
      have empty : (∅ : OrderedMap String String).keys.Nodup := List.nodup_nil
      rw [selects, bare]
      exact OrderedMap.nodup_keys_merge (OrderedMap.nodup_keys_merge
        (OrderedMap.nodup_keys_merge empty _) _) _
    have list := selectList_of_entries (c := q.toClauses)
      (entries.trans (List.append_assoc (r.identityEntry exprs) _ _)) (by
        rw [List.map_append, List.mem_append]
        exact not_or.mpr ⟨free.notMem (List.subset_append_left _ _),
          free.notMem fun f mem => List.mem_append_right _ (List.mem_filter.mp mem).1⟩)
    rw [entries] at list
    exact ⟨entries, entries ▸ once, list⟩
  · rw [Query.getSelect?, selects]
    apply OrderedMap.get?_merge_of_mem (nodup_columns (nodup_displayFields distinct))
    apply List.mem_filterMap.mpr
    exact ⟨f, mem, by rw [Field.column?, select, reserved]; rfl⟩

def plain (report : Report) : Request where
  report := report
  storage := { dialect := .sqlite, answer := fun _ _ => .ok [] }
  fields := report.fields
  filters := .new report.name { userId := 7 }

def taken : Report where
  name := "taken"
  template := Query.empty.readFrom "t" "t"
  fields := [(Field.new "id" (some "t.id") "ID").withAttribute .identifier,
    Field.new uniqueId (some "t.name") "Name"]
  filters := fun ctx => .ok (.new "taken" ctx)

theorem exists_query {r : Request} {s : Session}
    (renders : (r.buildQuery s).1.toOption.isSome = true) :
    ∃ q s', r.buildQuery s = (.ok q, s') := by
  rcases built : r.buildQuery s with ⟨e | q, s'⟩
  · rw [built] at renders
    cases renders
  · exact ⟨q, s', rfl⟩

theorem selectList_of_buildQuery_users :
    (∃ q s, (plain .users).buildQuery {} = (.ok q, s) ∧ (plain .users).Unreserved ∧
      q.selectList =
        "COALESCE(CAST(u.id AS TEXT), '') || '-' || COALESCE(CAST(g.id AS TEXT), '') AS unique_id, " ++
        "u.id AS u_id, g.id AS g_id, u.firstname || ' ' || u.lastname AS u_fullname, " ++
        "u.email AS u_email, g.name AS g_name, u.suspended AS u_suspended") ∧
    ∃ q s, (plain taken).buildQuery {} = (.ok q, s) ∧
      q.getSelect? uniqueId = some "t.name" := by
  constructor
  · obtain ⟨q, s, built⟩ := exists_query (r := plain .users) (s := {}) (by decide +kernel)
    have free : (plain .users).Unreserved := by decide +kernel
    obtain ⟨exprs, identifiers, whole, -⟩ :=
      selectList_of_buildQuery built rfl (by decide +kernel) (by decide +kernel)
    obtain rfl : exprs = ["u.id", "g.id"] :=
      List.map_injective_iff.mpr (Option.some_injective String) identifiers.symm
    refine ⟨q, s, built, free, ?_⟩
    rw [(whole free).2.2]
    decide +kernel
  · obtain ⟨q, s, built⟩ := exists_query (r := plain taken) (s := {}) (by decide +kernel)
    obtain ⟨-, -, -, replaced⟩ :=
      selectList_of_buildQuery built rfl (by decide +kernel) (by decide +kernel)
    have displayed : Field.new uniqueId (some "t.name") "Name" ∈ (plain taken).displayFields :=
      List.mem_of_getElem? (i := 1) rfl
    exact ⟨q, s, built, replaced _ displayed rfl _ rfl⟩

end Request

end Reports
