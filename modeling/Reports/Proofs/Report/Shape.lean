import Reports.Proofs.Filter.Shape
import Reports.Proofs.Report.Assembly

/-! What users choose stays out of the text of statements: it decides the values of parameters, and
neither their names nor the text around them. -/
namespace Reports

open Sql (Indistinct Query Statement Template Dialect)
open Reports.Filter (Clause ClauseSql CollectionSql Context)
open Reports.Filter.Collection (inClause partsOf templates fillEach renderFilters_eq templates_twin
  fillEach_indistinct decided_of_templates)

namespace Filter

def CollectionSql.shape (x : CollectionSql) : (String × List String) × (String × List String) :=
  (x.whereSql.statement.shape, x.havingSql.statement.shape)

theorem partsOf_shape (clause : Clause) {ps qs : List (Clause × Statement)}
    (same : ps.map (inClause Statement.shape) = qs.map (inClause Statement.shape)) :
    (partsOf clause ps).map Statement.shape = (partsOf clause qs).map Statement.shape := by
  have kept (ps : List (Clause × Statement)) : (partsOf clause ps).map Statement.shape =
      ((ps.map (inClause Statement.shape)).filter fun e => e.1 == clause).map Prod.snd := by
    simp only [partsOf, List.filter_map, List.map_map, Function.comp_def, inClause]
  rw [kept, kept, same]

theorem ofParts_shape {ss ts : List Statement}
    (same : ss.map Statement.shape = ts.map Statement.shape) :
    (ClauseSql.ofParts ss).statement.shape = (ClauseSql.ofParts ts).statement.shape := by
  have texts := congrArg (Text.join " AND ") (Sql.Clauses.sql_of_shape same)
  have names := Sql.Clauses.mergeAll_keys (rfl : (∅ : Params).keys = _) same
  have lengths := congrArg List.length same
  cases ss <;> cases ts <;> simp at lengths
  · rfl
  · exact congrArg₂ Prod.mk texts names

theorem effect_shape {x y : ClauseSql} (same : x.statement.shape = y.statement.shape) :
    x.effect.map Statement.shape = y.effect.map Statement.shape := by
  have text : x.statement.sql = y.statement.sql := congrArg Prod.fst same
  have trivially : x.isTrivial = y.isTrivial := by
    rw [ClauseSql.isTrivial, text, ClauseSql.isTrivial]
  rw [ClauseSql.effect, ClauseSql.effect, trivially]
  split
  · rfl
  · exact congrArg (fun s => [s]) same

namespace Collection

variable {c c' : Collection}

theorem Twin.symm (twin : c.Twin c') : c'.Twin c := by
  refine List.Forall₂.flip (List.Forall₂.imp (fun f g here => ?_) twin)
  obtain ⟨⟨raw, rfl⟩, both, comparison⟩ := here
  refine ⟨⟨f.raw, rfl⟩, both.symm, fun p q first second => ?_⟩
  obtain ⟨operator, length⟩ := comparison q p second first
  exact ⟨operator.symm, length.symm⟩

theorem decided_of_render {d : Dialect} {n m : Nat} {x : CollectionSql}
    (rendered : c.render d n = (.ok x, m)) : c.Decided := by
  have outcome := c.render_outcome d n
  cases found : templates d c.context c.filters with
  | ok ts => exact decided_of_templates found
  | error e =>
    rw [found] at outcome
    obtain ⟨m', failed, -⟩ := outcome
    rw [failed] at rendered
    cases rendered

/-- Where one state renders, the other renders to the same text, if all its filters are decided. -/
theorem Twin.render (twin : c.Twin c') (decided : c'.Decided) {d : Dialect} {n m : Nat}
    {x : CollectionSql} (rendered : c.render d n = (.ok x, m)) :
    ∃ x', c'.render d n = (.ok x', m) ∧ x'.shape = x.shape := by
  have outcome := c.render_outcome d n
  cases found : templates d c.context c.filters with
  | error e =>
    rw [found] at outcome
    obtain ⟨m', failed, -⟩ := outcome
    rw [failed] at rendered
    cases rendered
  | ok ts =>
    obtain ⟨ts', found', same⟩ := templates_twin twin found decided
    have parts : Indistinct (List.map (inClause Statement.shape))
        (renderFilters d c.context c.filters) (renderFilters d c'.context c'.filters) := by
      intro n
      rw [renderFilters_eq found, renderFilters_eq found']
      exact fillEach_indistinct same n
    have conditions : Indistinct CollectionSql.shape (c.render d) (c'.render d) := by
      refine parts.bind fun ps qs each => ?_
      apply Indistinct.ok
      have inClause (clause : Clause) := ofParts_shape (partsOf_shape clause each)
      exact congrArg₂ Prod.mk (inClause .whereClause) (inClause .havingClause)
    exact conditions.exists_ok rendered

end Collection

end Filter

namespace Request

open Reports.Filter (Collection)

variable {c c' : Collection}

theorem restricted_indistinct (q : Query) {x y : CollectionSql} (same : x.shape = y.shape)
    (d : Dialect) : Indistinct Statement.shape ((q.restricted x.effect).render d)
      ((q.restricted y.effect).render d) := by
  have inWhere := Filter.effect_shape (congrArg Prod.fst same)
  have inHaving := Filter.effect_shape (congrArg Prod.snd same)
  apply Sql.Clauses.renderOver_indistinct (c := q.toClauses)
  · rw [List.map_append, List.map_append]
    exact congrArg _ inWhere
  · rw [List.map_append, List.map_append]
    exact congrArg _ inHaving

theorem buildQuery_twin (twin : c.Twin c') (decided : c'.Decided) (r : Request) {s t : Session}
    {q : Query} (built : ({ r with filters := c }).buildQuery s = (.ok q, t)) :
    ∃ q' t', ({ r with filters := c' }).buildQuery s = (.ok q', t') ∧
      ∀ d, Indistinct Statement.shape (q.render d) (q'.render d) := by
  obtain ⟨x, m, q₀, whole, filters, base, rfl, rendered⟩ := render_of_buildQuery built
  obtain ⟨x', filters', same⟩ := twin.render decided filters
  have indistinct := restricted_indistinct q₀ same.symm
  obtain ⟨whole', rendered', -⟩ := (indistinct r.dialect).exists_ok rendered
  obtain ⟨t', built', -⟩ :=
    buildQuery_of_render (r := { r with filters := c' }) filters' base rendered'
  exact ⟨_, t', built', indistinct⟩

/-- In two states of the filters that contribute the same comparisons, with other values and in
another context, the conditions are the same texts with parameters of the same names in the same
order, and so are the statements of the queries put together with them. -/
theorem values_confined (twin : c.Twin c') :
    (∀ d n x x' m m', c.render d n = (.ok x, m) → c'.render d n = (.ok x', m') →
      x'.shape = x.shape ∧ m' = m) ∧
    (∀ (r : Request) (s t t' : Session) (q q' : Query),
      ({ r with filters := c }).buildQuery s = (.ok q, t) →
      ({ r with filters := c' }).buildQuery s = (.ok q', t') →
      ∀ d, Indistinct Statement.shape (q.render d) (q'.render d)) ∧
    (c.Decided → c'.Decided →
      (∀ d n, (∃ x m, c.render d n = (.ok x, m)) ↔ ∃ x m, c'.render d n = (.ok x, m)) ∧
      ∀ (r : Request) (s : Session),
      (∃ q t, ({ r with filters := c }).buildQuery s = (.ok q, t)) ↔
        ∃ q t, ({ r with filters := c' }).buildQuery s = (.ok q, t)) := by
  refine ⟨?_, ?_, ?_⟩
  · intro d n x x' m m' first second
    obtain ⟨y, rendered, same⟩ := twin.render (Filter.Collection.decided_of_render second) first
    rw [second] at rendered
    cases rendered
    exact ⟨same, rfl⟩
  · intro r s t t' q q' first second
    obtain ⟨x', m', -, -, filters, -⟩ := render_of_buildQuery second
    obtain ⟨q'', t'', built, same⟩ :=
      buildQuery_twin twin (Filter.Collection.decided_of_render filters) r first
    rw [second] at built
    cases built
    exact same
  · intro decided decided'
    constructor
    · intro d n
      constructor
      · rintro ⟨x, m, rendered⟩
        obtain ⟨x', rendered', -⟩ := twin.render decided' rendered
        exact ⟨x', m, rendered'⟩
      · rintro ⟨x, m, rendered⟩
        obtain ⟨x', rendered', -⟩ := twin.symm.render decided rendered
        exact ⟨x', m, rendered'⟩
    · intro r s
      constructor
      · rintro ⟨q, t, built⟩
        obtain ⟨q', t', built', -⟩ := buildQuery_twin twin decided' r built
        exact ⟨q', t', built'⟩
      · rintro ⟨q, t, built⟩
        obtain ⟨q', t', built', -⟩ := buildQuery_twin twin.symm decided r built
        exact ⟨q', t', built'⟩

def search (userId : Int) (categories : List Json) (name : String) : Collection :=
  { identifier := "courses", context := { userId }
    filters :=
      [ { ((Filter.new "category" "c.category").withHandler
            (.select (.new (.fixed [⟨.ofInt 1, "Arts"⟩, ⟨.ofInt 2, "Law"⟩, ⟨.ofInt 3, "Music"⟩])
              .ignore true))) with
          raw := some (.array categories) },
        { (Filter.new "fullname" "c.fullname").withHandler .text with raw := some (.string name) },
        (Filter.new "enrolled" "c.id").withHandler (.condition .enrolledCourses) ] }

theorem values_confined_search :
    let c := search 7 [.ofInt 1, .ofInt 2] "history"
    let c' := search 8 [.ofInt 3, .ofInt 1] "' OR 1 = 1 --"
    c.Twin c' ∧ c.Decided ∧ c'.Decided ∧
      ∃ x x' m, c.render .sqlite 0 = (.ok x, m) ∧ c'.render .sqlite 0 = (.ok x', m) ∧
        x'.shape = x.shape ∧ x'.whereSql.statement.params.keys =
          ["qp1", "qp2", "qp3", "qp4"] := by
  intro c c'
  have contributes {f g : Filter} {p q : Sql.Predicate}
    (first : f.predicate? c.context = .ok (some p))
      (second : g.predicate? c'.context = .ok (some q)) :=
    Filter.contributesLike_of_some first second
  have twin : c.Twin c' := by
    refine .cons ⟨⟨_, rfl⟩, ?_⟩
      (.cons ⟨⟨_, rfl⟩, ?_⟩ (.cons ⟨⟨_, rfl⟩, ?_⟩ .nil))
    · exact contributes rfl rfl rfl rfl
    · exact contributes rfl rfl rfl rfl
    · exact contributes rfl rfl rfl rfl
  obtain ⟨x, first⟩ : ∃ x, c.render .sqlite 0 = (.ok x, 4) := ⟨_, rfl⟩
  obtain ⟨x', second, names⟩ : ∃ x', c'.render .sqlite 0 = (.ok x', 4) ∧
      x'.whereSql.statement.params.keys = ["qp1", "qp2", "qp3", "qp4"] := ⟨_, rfl, by decide⟩
  have same := (values_confined twin).1 .sqlite 0 x x' 4 4 first second
  exact ⟨twin, Filter.Collection.decided_of_render first,
    Filter.Collection.decided_of_render second, x, x', 4, first, second, same.1, names⟩

end Request

end Reports
