import Reports.Proofs.Sql.DistinctCount

/-! Counting rows. The count derived for a query is the number of the rows it returns without
paging and, unless HAVING needs it, without grouping. -/
namespace Reports.Sql

/-- The query whose rows a count counts. -/
def Query.uncut (q : Query) : Query :=
  { q.unpaged with groupBy := if q.rawHaving.isEmpty then [] else q.groupBy }

section Derived

variable {ρ ν : Type} [DecidableEq ν] (i : Interpretation ρ ν)

theorem Interpretation.number?_rows_direct (q : Query) (column : String)
    (only : q.selects = ⟨[(column, "COUNT(*)")]⟩)
    (single : q.groupBy = [] ∧ q.rawHaving = [] ∧ q.offset = 0) :
    i.number? q = some (i.joined q.scope).length := by
  simp [Interpretation.number?, Interpretation.countOver?, only, single]

theorem Interpretation.number?_rows_wrap (inner : Query) (tablePrefix : String) :
    i.number? (Count.wrap tablePrefix inner "COUNT(*)") = some (i.rows inner).length := by
  have count := i.number?_rows_direct (Count.wrap tablePrefix inner "COUNT(*)") Count.column rfl
    ⟨rfl, rfl, rfl⟩
  have scope : (Count.wrap tablePrefix inner "COUNT(*)").scope =
      .ofDerived tablePrefix inner Count.countedTable := rfl
  rw [count, scope, i.joined_derived, List.length_map]
  rfl

theorem Interpretation.rows_strip (q : Query) : i.rows (Count.strip q) = i.rows q.uncut := rfl

theorem Interpretation.length_rows_plain (q : Query) (noHaving : q.rawHaving.isEmpty = true)
    (plain : q.emitsDistinct = false) : (i.rows q.uncut).length = (i.joined q.scope).length := by
  have kept : i.keptGroups q.uncut.toClauses (i.joined q.scope) =
      (i.joined q.scope).map fun r => [r] := by
    have conditions : q.uncut.rawHaving.isEmpty = true := noHaving
    have grouping : q.uncut.groupBy.isEmpty = true := by simp [Query.uncut, noHaving]
    simp [Reading.keptGroups, Reading.groups, conditions, grouping]
  have same : q.uncut.emitsDistinct = false := plain
  have paging : q.uncut.offset = 0 ∧ q.uncut.limit = 0 := ⟨rfl, rfl⟩
  have scope : q.uncut.scope = q.scope := rfl
  simp only [Interpretation.rows, Reading.output, Clauses.paged, scope, kept, paging]
  simp [show q.uncut.toClauses.emitsDistinct = false from same]

theorem Interpretation.rows_uncut (q : Query)
    (grouped : q.groupBy.isEmpty = true ∨ q.rawHaving.isEmpty = false) :
    i.rows q.uncut = i.rows q.unpaged := by
  have same : q.uncut = q.unpaged := by
    have keys : (if q.rawHaving.isEmpty = true then [] else q.groupBy) = q.groupBy := by
      rcases grouped with none | having
      · simp [List.isEmpty_iff.mp none]
      · simp [having]
    simp only [Query.uncut, keys]
    rfl
  rw [same]

/-- The number that the count of rows derived for a query computes is the number of rows that the
query returns without paging and, unless HAVING needs it, without grouping. `form` leaves out one
combination: common tables with no HAVING where DISTINCT is written. There the select list goes with
its DISTINCT, and the joined rows are counted. -/
theorem number?_derive_rows (q : Query)
    (form : q.commonTables.isEmpty = true ∨ q.rawHaving.isEmpty = false ∨
      q.emitsDistinct = false) :
    i.number? (Count.derive q false) = some (i.rows q.uncut).length ∧
      (q.groupBy.isEmpty = true ∨ q.rawHaving.isEmpty = false →
        i.number? (Count.derive q false) = some (i.rows q.unpaged).length) := by
  have count : i.number? (Count.derive q false) = some (i.rows q.uncut).length := by
    by_cases direct : q.commonTables.isEmpty = false ∧ q.rawHaving.isEmpty = true
    · obtain ⟨tables, noHaving⟩ := direct
      -- At the top, below WITH: DISTINCT is gone, so there must have been none.
      have plain : q.emitsDistinct = false := by simpa [tables, noHaving] using form
      have shape : Count.derive q false = ((Count.clearSelects (Count.strip q)).select "COUNT(*)"
          Count.column).setDistinct false := by
        simp [Count.derive, tables, noHaving]
      have dropped : (Count.strip q).groupBy = [] := by simp [Count.strip, noHaving]
      have number := i.number?_rows_direct (((Count.clearSelects (Count.strip q)).select "COUNT(*)"
        Count.column).setDistinct false) Count.column rfl
        ⟨dropped, List.isEmpty_iff.mp noHaving, rfl⟩
      rw [shape, number, i.length_rows_plain q noHaving plain]
      rfl
    · -- In a derived table: the stripped query is counted with its DISTINCT and its groups.
      have shape : Count.derive q false = Count.wrap q.tablePrefix (Count.strip q) "COUNT(*)" := by
        have wrapped : (!q.commonTables.isEmpty && q.rawHaving.isEmpty) = false := by
          cases tables : q.commonTables.isEmpty <;> cases having : q.rawHaving.isEmpty <;>
            simp_all
        simp [Count.derive, wrapped]
      rw [shape, i.number?_rows_wrap, i.rows_strip]
  refine ⟨count, fun grouped => ?_⟩
  rw [count, i.rows_uncut q grouped]

end Derived

/-- The users that are in several groups, on a page of one. -/
def sharedMemberships : Query :=
  ((((((Query.empty.setCommonTable "active" ⟨"SELECT id FROM \x7busers\x7d", ∅⟩).select
    "gm.userid" "userid").readFrom "groups_members" "gm").group "gm.userid").havingRaw
    ⟨"COUNT(*) > 1", ∅⟩).setLimit 1)

theorem number?_derive_sharedMemberships :
    (sharedMemberships.commonTables.isEmpty = false ∧ sharedMemberships.emitsDistinct = true) ∧
    sharedMemberships.rawHaving.isEmpty = false ∧
    membershipTables.number? (Count.derive sharedMemberships false) =
      some (membershipTables.rows sharedMemberships.unpaged).length ∧
    membershipTables.number? (Count.derive sharedMemberships false) = some 1 := by
  have having : sharedMemberships.rawHaving.isEmpty = false := by decide
  refine ⟨by decide, having, ?_, ?_⟩
  · exact (number?_derive_rows membershipTables sharedMemberships (.inr (.inl having))).2
      (.inr having)
  · decide

/-- Without HAVING the groups are gone: each membership is counted, not each user. -/
theorem number?_derive_ne_rows_grouped :
    membershipTables.number? (Count.derive memberships false) = some 5 ∧
    (membershipTables.rows memberships.unpaged).length = 4 := by
  decide

end Reports.Sql
