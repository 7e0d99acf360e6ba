import Reports.Proofs.Sql.Shape
import Reports.Proofs.Sql.Where
import Reports.Sql.Count

/-! The statements derived for a count find what the query finds: they are rendered when it is, with
the same parameters, and draw as many names. -/
namespace Reports.Sql

namespace Clauses

def collected (c : Clauses) (source : Params) (body : Option Statement) : Params :=
  let joined := c.joins.values.foldl (fun acc j => acc.merge j.params)
    ((mergeAll ∅ c.commonTables.values).merge source)
  mergeAll (joined.merge (body.elim ∅ Statement.params)) c.rawHaving

theorem nodup_mergeAll {m : Params} (distinct : m.keys.Nodup) (parts : List Statement) :
    (mergeAll m parts).keys.Nodup := by
  induction parts generalizing m with
  | nil => exact distinct
  | cons s rest ih => exact ih (OrderedMap.nodup_keys_merge distinct s.params)

theorem nodup_collected (c : Clauses) (source : Params) (body : Option Statement) :
    (c.collected source body).keys.Nodup := by
  have joined (js : List Join) {m : Params} (distinct : m.keys.Nodup) :
      (js.foldl (fun acc j => acc.merge j.params) m).keys.Nodup := by
    induction js generalizing m with
    | nil => exact distinct
    | cons j rest ih => exact ih (OrderedMap.nodup_keys_merge distinct j.params)
  have tables : (mergeAll ∅ c.commonTables.values).keys.Nodup := by
    apply nodup_mergeAll
    exact List.nodup_nil
  exact nodup_mergeAll (OrderedMap.nodup_keys_merge
    (joined _ (OrderedMap.nodup_keys_merge tables source)) _) _

theorem params_assemble (c : Clauses) (d : Dialect) (source : Statement) (n : Nat) :
    (c.assemble d source n).1.map Statement.params =
      (c.whereBody d n).1.map (c.collected source.params) ∧
    (c.assemble d source n).2 = (c.whereBody d n).2 := by
  rcases found : c.whereBody d n with ⟨e | body, m⟩
  · rw [assemble, Effect.bind_error _ found]
    exact ⟨rfl, rfl⟩
  · rw [assemble, Effect.bind_ok _ found]
    cases body <;> exact ⟨rfl, rfl⟩

theorem nodup_renderOver {c : Clauses} {d : Dialect} {source : Source} {n m : Nat} {s : Statement}
    (rendered : c.renderOver d source n = (.ok s, m)) : s.params.keys.Nodup := by
  rw [renderOver_eq] at rendered
  obtain ⟨given, k, -, assembled⟩ := Effect.of_bind_ok rendered
  have params := (c.params_assemble d given k).1
  rw [assembled] at params
  rcases found : c.whereBody d k with ⟨e | body, k'⟩
  · rw [found] at params
    cases params
  · rw [found] at params
    have bound : s.params = c.collected given.params body := Except.ok.inj params
    exact bound ▸ c.nodup_collected given.params body

end Clauses

namespace Count

/-- What finds the rows of a query, and nothing that only arranges them; what is selected is left
open. -/
structure Stripped (q r : Query) : Prop where
  source : r.source = q.source
  joins : r.joins = q.joins
  commonTables : r.commonTables = q.commonTables
  predicates : r.predicates = q.predicates
  rawWhere : r.rawWhere = q.rawWhere
  rawHaving : r.rawHaving = q.rawHaving
  tablePrefix : r.tablePrefix = q.tablePrefix
  orderBy : r.orderBy = ∅
  limit : r.limit = 0
  offset : r.offset = 0
  groupBy : r.groupBy = if q.rawHaving = [] then [] else q.groupBy

theorem stripped_strip (q : Query) : Stripped q (strip q) where
  source := rfl
  joins := rfl
  commonTables := rfl
  predicates := rfl
  rawWhere := rfl
  rawHaving := rfl
  tablePrefix := rfl
  orderBy := rfl
  limit := rfl
  offset := rfl
  groupBy := by simp only [strip, List.isEmpty_iff]

namespace Stripped

variable {q r : Query}

theorem clearSelects (stripped : Stripped q r) : Stripped q (clearSelects r) := { stripped with }

theorem select (stripped : Stripped q r) (expr column : String) :
    Stripped q (r.select expr column) :=
  { stripped with }

theorem setDistinct (stripped : Stripped q r) (distinct : Bool) :
    Stripped q (r.setDistinct distinct) :=
  { stripped with }

theorem collected (stripped : Stripped q r) : r.collected = q.collected := by
  funext source body
  rw [Clauses.collected, stripped.joins, stripped.commonTables, stripped.rawHaving]
  rfl

theorem whereBody (stripped : Stripped q r) (d : Dialect) : r.whereBody d = q.whereBody d := by
  rw [Clauses.whereBody, stripped.predicates, stripped.rawWhere]
  rfl

theorem assemble (stripped : Stripped q r) (d : Dialect) {s t : Statement}
    (same : s.params = t.params) :
    Indistinct Statement.params (r.assemble d s) (q.assemble d t) := by
  intro n
  obtain ⟨params, drawn⟩ := r.params_assemble d s n
  obtain ⟨params', drawn'⟩ := q.params_assemble d t n
  rw [params, drawn, params', drawn', stripped.collected, stripped.whereBody, same]
  exact ⟨rfl, rfl⟩

theorem sourceStatement (stripped : Stripped q r) (d : Dialect) :
    r.sourceStatement d q.source = q.sourceStatement d q.source := by
  have tables (name : String) : r.tableRef name = q.tableRef name := by
    rw [Clauses.tableRef, stripped.commonTables, stripped.tablePrefix]
    rfl
  cases q.source with
  | none => rfl
  | table name correlation => rw [Clauses.sourceStatement, tables]; rfl
  | derived inner source correlation => rfl

theorem render (stripped : Stripped q r) (d : Dialect) :
    Indistinct Statement.params (r.render d) (q.render d) := by
  have parts (c : Clauses) (source : Source) :
      c.renderOver d source = c.sourceStatement d source >>= c.assemble d :=
    funext (c.renderOver_eq d source)
  rw [Query.render, Query.render, stripped.source, parts, parts, stripped.sourceStatement]
  exact Indistinct.bind_same fun s => stripped.assemble d rfl

end Stripped

theorem render_wrap_indistinct (tablePrefix expr : String) (inner : Query) (d : Dialect) :
    Indistinct Statement.params ((wrap tablePrefix inner expr).render d) (inner.render d) := by
  intro n
  change ((Clauses.renderOver d _ (.derived inner.toClauses inner.source countedTable) n).1.map _ =
    _) ∧ (Clauses.renderOver d _ (.derived inner.toClauses inner.source countedTable) n).2 = _
  rw [Clauses.renderOver]
  change (((inner.render d >>= _) n).1.map _ = _) ∧ ((inner.render d >>= _) n).2 = _
  rcases rendered : inner.render d n with ⟨e | s, m⟩
  · rw [Effect.bind_error _ rendered]
    exact ⟨rfl, rfl⟩
  · rw [Effect.bind_ok _ rendered]
    have distinct : s.params.keys.Nodup := Clauses.nodup_renderOver rendered
    exact ⟨congrArg Except.ok (OrderedMap.empty_merge distinct), rfl⟩

/-- The two forms of a count: over what finds the rows, or over a derived table of it. -/
inductive CountsOver (q : Query) : Query → Prop
  | direct {r : Query} (stripped : Stripped q r) : CountsOver q r
  | wrapped {inner : Query} (stripped : Stripped q inner) (expr : String) :
    CountsOver q (wrap q.tablePrefix inner expr)

theorem CountsOver.render {q r : Query} (counts : CountsOver q r) (d : Dialect) :
    Indistinct Statement.params (r.render d) (q.render d) := by
  cases counts with
  | direct stripped => exact stripped.render d
  | wrapped stripped expr => exact (render_wrap_indistinct _ expr _ d).trans (stripped.render d)

theorem countsOver_derive (q : Query) (unique : Bool) : CountsOver q (derive q unique) := by
  have stripped := stripped_strip q
  rw [derive]
  split
  · exact .direct ((stripped.clearSelects.select _ column).setDistinct false)
  · split
    · exact .wrapped (stripped.clearSelects.select _ uniqueId) _
    · exact .wrapped stripped _

theorem countsOver_fallback (q : Query) : CountsOver q (fallback q) := by
  have stripped := stripped_strip q
  rw [fallback]
  split
  · exact .direct ((stripped.clearSelects.select _ column).setDistinct false)
  · exact .wrapped stripped _

/-- The statements that count the rows of a query are rendered exactly when the query is, with the
same parameters in the same order, fail with the same error, and leave the same counter. -/
theorem render_derive_fallback (q : Query) (unique : Bool) (d : Dialect) :
    (CountsOver q (derive q unique) ∧
      Indistinct Statement.params ((derive q unique).render d) (q.render d)) ∧
    CountsOver q (fallback q) ∧ Indistinct Statement.params ((fallback q).render d)
      (q.render d) :=
  ⟨⟨countsOver_derive q unique, (countsOver_derive q unique).render d⟩,
    countsOver_fallback q, (countsOver_fallback q).render d⟩

end Count

end Reports.Sql
