import Reports.Proofs.Sql.Meaning

/-! Counting identities. The count derived for a query is the number of different identities among
its rows, whether it counts over a derived table, over the common tables or over kept groups. -/
namespace Reports.Sql

theorem distinctValues_congr {ν : Type} [DecidableEq ν] (null : ν) {vs ws : List ν}
    (same : ∀ v, v ∈ vs ↔ v ∈ ws) : distinctValues null vs = distinctValues null ws := by
  apply List.Perm.length_eq
  apply (List.perm_ext_iff_of_nodup (List.nodup_dedup _) (List.nodup_dedup _)).mpr
  intro v
  simp only [List.mem_dedup, List.mem_filter, same]

theorem distinctOperand?_count (operand : String) :
    distinctOperand? ("COUNT(DISTINCT " ++ operand ++ ")") = some operand := by
  have cut : ("COUNT(DISTINCT " ++ operand ++ ")").toList.dropPrefix? "COUNT(DISTINCT ".toList =
      some (operand.toList ++ [')']) := by
    rw [String.toList_append, String.toList_append, List.append_assoc]
    exact List.dropPrefix?_append_of_beq _ (beq_self_eq_true _)
  rw [distinctOperand?, cut, Option.bind_some]
  simp [List.dropSuffix?, List.splitAt_eq]

theorem count_ne_countRows (operand : String) :
    "COUNT(DISTINCT " ++ operand ++ ")" ≠ "COUNT(*)" := by
  intro h
  have letters := congrArg (fun s : String => s.toList[6]?) h
  simp [String.toList_append] at letters

section Identity

variable {ρ ν : Type} {c : Clauses} {expr : String}

theorem Clauses.emitsDistinct_of_identity (selected : c.selects.get? uniqueId = some expr) :
    c.emitsDistinct = false := by
  simp [Clauses.emitsDistinct, OrderedMap.contains, selected]

theorem Clauses.selects_nonempty (selected : c.selects.get? uniqueId = some expr) :
    c.selects.isEmpty = false := by
  cases entries : c.selects.entries with
  | nil => simp [OrderedMap.get?, entries, OrderedMap.lookup] at selected
  | cons e rest => simp [OrderedMap.isEmpty, entries]

theorem Reading.lookup_cells (m : Reading ρ ν) (selected : c.selects.get? uniqueId = some expr)
    (g : List ρ) : OrderedMap.lookup uniqueId (m.cells c g) = some (m.value expr g) := by
  simp [Reading.cells, Clauses.selects_nonempty selected, Clauses.outputColumns, selected,
    OrderedMap.lookup]

/-- With an identity and without paging there is one output row for each kept group. -/
theorem Reading.output_of_identity [DecidableEq ν] (m : Reading ρ ν)
    (selected : c.selects.get? uniqueId = some expr) (whole : c.offset = 0 ∧ c.limit = 0)
    (rows : List ρ) : m.output c rows = (m.keptGroups c rows).map (m.cells c) := by
  have plain := Clauses.emitsDistinct_of_identity selected
  simp [Reading.output, Clauses.paged, whole.1, whole.2, plain]

end Identity

section Grouping

variable {ρ ν : Type} [DecidableEq ν] (m : Reading ρ ν) {c : Clauses} {expr : String}
  {rows : List ρ}

theorem Reading.keptGroups_congr {c d : Clauses} (keys : c.groupBy = d.groupBy)
    (conditions : c.rawHaving = d.rawHaving) (rows : List ρ) :
    m.keptGroups c rows = m.keptGroups d rows := by
  have key : m.groupKey c = m.groupKey d := funext fun r => by rw [groupKey, groupKey, keys]
  rw [keptGroups, keptGroups, groups, groups, keys, conditions, key]

theorem Reading.mem_group_values (noHaving : c.rawHaving.isEmpty = true)
    (constant : ∀ g ∈ m.groups c rows, ∀ r ∈ g, m.value expr [r] = m.value expr g)
    (v : ν) :
    v ∈ (m.groups c rows).map (m.value expr) ↔ v ∈ rows.map fun r => m.value expr [r] := by
  by_cases ungrouped : c.groupBy.isEmpty = true
  · simp [Reading.groups, ungrouped, noHaving]
  · have split : m.groups c rows = (rows.map (m.groupKey c)).dedup.map
        fun k => rows.filter fun r => m.groupKey c r = k := by
      simp [Reading.groups, ungrouped]
    constructor
    · intro h
      obtain ⟨g, hg, rfl⟩ := List.mem_map.mp h
      obtain ⟨k, hk, rfl⟩ := List.mem_map.mp (split ▸ hg)
      obtain ⟨r, hr, rfl⟩ := List.mem_map.mp (List.mem_dedup.mp hk)
      have inside : r ∈ rows.filter fun s => m.groupKey c s = m.groupKey c r := by simp [hr]
      exact List.mem_map.mpr ⟨r, hr, constant _ hg r inside⟩
    · intro h
      obtain ⟨r, hr, rfl⟩ := List.mem_map.mp h
      have known : m.groupKey c r ∈ (rows.map (m.groupKey c)).dedup :=
        List.mem_dedup.mpr (List.mem_map_of_mem hr)
      have hg : (rows.filter fun s => m.groupKey c s = m.groupKey c r) ∈ m.groups c rows :=
        split ▸ List.mem_map_of_mem known
      have inside : r ∈ rows.filter fun s => m.groupKey c s = m.groupKey c r := by simp [hr]
      exact List.mem_map.mpr ⟨_, hg, (constant _ hg r inside).symm⟩

end Grouping

section Derived

variable {ρ ν : Type} [DecidableEq ν] (i : Interpretation ρ ν)

theorem Interpretation.number?_direct (q : Query) (operand column : String)
    (only : q.selects = ⟨[(column, "COUNT(DISTINCT " ++ operand ++ ")")]⟩)
    (single : q.groupBy = [] ∧ q.rawHaving = [] ∧ q.offset = 0) :
    i.number? q =
      some (distinctValues i.null ((i.joined q.scope).map fun r => i.value operand [r])) := by
  simp [Interpretation.number?, Interpretation.countOver?, only, single, count_ne_countRows,
    distinctOperand?_count]

/-- A count over a derived table of identities counts one value for each kept group. -/
theorem Interpretation.number?_wrap (inner : Query) (tablePrefix expr : String)
    (selected : inner.selects.get? uniqueId = some expr)
    (whole : inner.offset = 0 ∧ inner.limit = 0) :
    i.number? (Count.wrap tablePrefix inner
        ("COUNT(DISTINCT " ++ Count.countedTable ++ "." ++ uniqueId ++ ")")) =
      some (distinctValues i.null
        ((i.keptGroups inner.toClauses (i.joined inner.scope)).map (i.value expr))) := by
  let counted := Count.countedTable ++ "." ++ uniqueId
  have rows : i.joined (.ofDerived tablePrefix inner Count.countedTable) =
      (i.keptGroups inner.toClauses (i.joined inner.scope)).map fun g =>
        i.derivedRow Count.countedTable (i.cells inner.toClauses g) := by
    rw [i.joined_derived, i.output_of_identity selected whole, List.map_map]
    rfl
  have read : ∀ g, i.value counted [i.derivedRow Count.countedTable (i.cells inner.toClauses g)] =
      i.value expr g := fun g =>
    i.value_derived _ _ _ _ (by decide) (by decide) (i.lookup_cells selected g)
  have count := i.number?_direct
    (Count.wrap tablePrefix inner ("COUNT(DISTINCT " ++ counted ++ ")")) counted Count.column rfl
    ⟨rfl, rfl, rfl⟩
  have scope : (Count.wrap tablePrefix inner ("COUNT(DISTINCT " ++ counted ++ ")")).scope =
      .ofDerived tablePrefix inner Count.countedTable := rfl
  have text : "COUNT(DISTINCT " ++ Count.countedTable ++ "." ++ uniqueId ++ ")" =
      "COUNT(DISTINCT " ++ counted ++ ")" := by
    simp [counted, String.append_assoc]
  rw [text, count, scope, rows, List.map_map]
  simp only [Function.comp_def, read]

/-- The identities of the rows that a query returns without paging: one for each kept group. -/
theorem Interpretation.identities_unpaged (q : Query) {expr : String}
    (selected : q.getSelect? uniqueId = some expr) :
    (i.rows q.unpaged).filterMap (OrderedMap.lookup uniqueId) =
      (i.keptGroups q.toClauses (i.joined q.scope)).map (i.value expr) := by
  have rows : i.rows q.unpaged =
      (i.keptGroups q.toClauses (i.joined q.scope)).map (i.cells q.toClauses) :=
    i.output_of_identity (c := q.unpaged.toClauses) selected ⟨rfl, rfl⟩ _
  have found : OrderedMap.lookup uniqueId ∘ i.cells q.toClauses = some ∘ i.value expr :=
    funext (i.lookup_cells selected)
  rw [rows, List.filterMap_map, found, List.filterMap_eq_map]

theorem Count.identityExpr_of_identity (q : Query) {expr : String}
    (selected : q.getSelect? uniqueId = some expr) : Count.identityExpr q = expr := by
  simp [Count.identityExpr, selected]

def Count.identitiesOf (q : Query) (expr : String) : Query :=
  (Count.clearSelects (Count.strip q)).select expr uniqueId

theorem Reading.keptGroups_identitiesOf (m : Reading ρ ν) (q : Query) (expr : String)
    (having : q.rawHaving.isEmpty = false) (rows : List ρ) :
    m.keptGroups (Count.identitiesOf q expr).toClauses rows = m.keptGroups q.toClauses rows := by
  have same : (Count.strip q).groupBy = q.groupBy := by simp [Count.strip, having]
  exact m.keptGroups_congr same rfl rows

theorem Reading.keptGroups_ungrouped (m : Reading ρ ν) (q : Query) (expr : String)
    (noHaving : q.rawHaving.isEmpty = true) (rows : List ρ) :
    m.keptGroups (Count.identitiesOf q expr).toClauses rows = rows.map fun r => [r] := by
  have dropped : (Count.identitiesOf q expr).groupBy.isEmpty = true := by
    simp [Count.identitiesOf, Query.select, Count.clearSelects, Count.strip, noHaving]
  have none : (Count.identitiesOf q expr).rawHaving.isEmpty = true := noHaving
  simp [Reading.keptGroups, Reading.groups, dropped, none]

/-- The number that the count derived for a query computes is the number of different identities
among the rows that the query returns without paging, if the identity is constant on groups. -/
theorem number?_derive_identities (q : Query) (expr : String)
    (selected : q.getSelect? uniqueId = some expr)
    (constant : ∀ g ∈ i.groups q.toClauses (i.joined q.scope), ∀ r ∈ g,
      i.value expr [r] = i.value expr g) :
    i.number? (Count.derive q true) =
      some (distinctValues i.null ((i.rows q.unpaged).filterMap (OrderedMap.lookup uniqueId))) := by
  have identity := Count.identityExpr_of_identity q selected
  have wrapped := i.number?_wrap (Count.identitiesOf q expr) q.tablePrefix expr rfl ⟨rfl, rfl⟩
  have scope : (Count.identitiesOf q expr).scope = q.scope := rfl
  rw [i.identities_unpaged q selected]
  cases noHaving : q.rawHaving.isEmpty with
  | false =>
    -- Over a derived table with the same groups.
    have form : Count.derive q true = Count.wrap q.tablePrefix (Count.identitiesOf q expr)
        ("COUNT(DISTINCT " ++ Count.countedTable ++ "." ++ uniqueId ++ ")") := by
      simp [Count.derive, noHaving, identity, Count.identitiesOf]
    rw [form, wrapped, scope, i.keptGroups_identitiesOf q expr noHaving]
  | true =>
    -- Grouping is dropped: the identities of the joined rows are those of the groups.
    have ungrouped : distinctValues i.null ((i.joined q.scope).map fun r => i.value expr [r]) =
        distinctValues i.null
          ((i.keptGroups q.toClauses (i.joined q.scope)).map (i.value expr)) := by
      apply distinctValues_congr
      intro v
      have kept : i.keptGroups q.toClauses (i.joined q.scope) =
          i.groups q.toClauses (i.joined q.scope) := by
        simp [Reading.keptGroups, noHaving]
      rw [kept, i.mem_group_values noHaving constant]
    cases noTables : q.commonTables.isEmpty with
    | false =>
      -- At the top, below WITH.
      have form : Count.derive q true = ((Count.clearSelects (Count.strip q)).select
          ("COUNT(DISTINCT " ++ expr ++ ")") Count.column).setDistinct false := by
        simp [Count.derive, noTables, noHaving, identity]
      have dropped : (Count.strip q).groupBy = [] := by simp [Count.strip, noHaving]
      have count := i.number?_direct (((Count.clearSelects (Count.strip q)).select
        ("COUNT(DISTINCT " ++ expr ++ ")") Count.column).setDistinct false) expr Count.column rfl
        ⟨dropped, List.isEmpty_iff.mp noHaving, rfl⟩
      rw [form, count, ← ungrouped]
      rfl
    | true =>
      -- Over a derived table without groups.
      have form : Count.derive q true = Count.wrap q.tablePrefix (Count.identitiesOf q expr)
          ("COUNT(DISTINCT " ++ Count.countedTable ++ "." ++ uniqueId ++ ")") := by
        simp [Count.derive, noTables, identity, Count.identitiesOf]
      rw [form, wrapped, scope, i.keptGroups_ungrouped q expr noHaving, List.map_map, ← ungrouped]
      rfl

end Derived

def qualified {ν : Type} (correlation : String) (row : OutputRow ν) : OutputRow ν :=
  row.map fun e => (correlation ++ "." ++ e.1, e.2)

theorem lookup_qualified {ν : Type} (correlation column : String) (row : OutputRow ν) :
    OrderedMap.lookup (correlation ++ "." ++ column) (qualified correlation row) =
      OrderedMap.lookup column row := by
  induction row with
  | nil => rfl
  | cons e rest ih =>
    have same : correlation ++ "." ++ e.1 = correlation ++ "." ++ column ↔ e.1 = column := by
      simp [← String.toList_inj, String.toList_append]
    simp only [qualified, List.map_cons, OrderedMap.lookup, same] at ih ⊢
    rw [ih]

def columnReading : Reading (OutputRow (Option Nat)) (Option Nat) where
  value expr group := (group.head?.bind (OrderedMap.lookup expr)).getD none
  null := none
  keeps _ group := decide (2 ≤ group.length)
  everything group := group.head?.getD []
  derivedRow := qualified

def membershipRows : Source → List (OutputRow (Option Nat))
  | .none => []
  | .table _ correlation =>
    [some 1, some 1, some 2, none, some 3].map fun user => qualified correlation [("userid", user)]
  | .derived c source correlation =>
    (columnReading.output c (membershipRows source)).map (qualified correlation)

def membershipTables : Interpretation (OutputRow (Option Nat)) (Option Nat) where
  toReading := columnReading
  joined scope := membershipRows scope.source
  joined_derived _ _ _ := rfl
  value_derived correlation column row v _ _ found := by
    simp [columnReading, lookup_qualified, found]

def memberships : Query :=
  ((((Query.empty.select "gm.userid" uniqueId).readFrom "groups_members" "gm").group
    "gm.userid").setLimit 1)

theorem number?_derive_memberships :
    memberships.getSelect? uniqueId = some "gm.userid" ∧
    (∀ g ∈ membershipTables.groups memberships.toClauses
      (membershipTables.joined memberships.scope), ∀ r ∈ g,
      membershipTables.value "gm.userid" [r] = membershipTables.value "gm.userid" g) ∧
    membershipTables.number? (Count.derive memberships true) = some (distinctValues none
      ((membershipTables.rows memberships.unpaged).filterMap (OrderedMap.lookup uniqueId))) ∧
    membershipTables.number? (Count.derive memberships true) = some 3 := by
  have selected : memberships.getSelect? uniqueId = some "gm.userid" := by decide
  have constant : ∀ g ∈ membershipTables.groups memberships.toClauses
      (membershipTables.joined memberships.scope), ∀ r ∈ g,
        membershipTables.value "gm.userid" [r] = membershipTables.value "gm.userid" g := by
    decide
  refine ⟨selected, constant, ?_, ?_⟩
  · exact number?_derive_identities membershipTables memberships "gm.userid" selected constant
  · decide

end Reports.Sql
