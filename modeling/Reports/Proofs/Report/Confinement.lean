import Reports.Proofs.Filter.Demand
import Reports.Proofs.Report.Assembly

/-! What the filters of a report demand cannot be escaped: their conditions become raw conditions
of its query, and those hold beside whatever else the query asks for. -/
namespace Reports

open Sql (Dialect Predicate Query Reads ReadsTight Statement)
open Sql.Precedence (Holds)
open Reports.Filter (Clause ClauseSql CollectionSql)
open Reports.Filter.Collection (partsOf)

variable {d : Dialect}

namespace Request

/-- What a query demands of rows, and what its references stand for. -/
def demands (q : Query) :
    List Predicate × List Statement × List Statement × (String → String) :=
  (q.predicates, q.rawWhere, q.rawHaving, q.tableRef)

theorem demands_selectFields (q : Query) (fs : List Field) :
    demands (selectFields q fs) = demands q := by
  obtain ⟨selects, same⟩ := selectFields_eq q fs
  rw [same]
  rfl

theorem demands_base {r : Request} {q : Query} (base : r.base = .ok q) :
    demands q = demands (r.report.template.setPrefix r.settings.tablePrefix) := by
  have trivially : CollectionSql.effect ⟨.ofParts [], .ofParts []⟩ = ([], []) := rfl
  rw [Request.base, arrange, restrict_eq, trivially, Query.restricted_nil] at base
  generalize r.report.template.setPrefix r.settings.tablePrefix = start at base ⊢
  have selected (q : Query) (expr column : String) : demands (q.select expr column) = demands q :=
    rfl
  have ordered (q : Query) (expr : String) (direction : Sql.Direction) :
      demands (q.order expr direction) = demands q := rfl
  have paged (q : Query) (a b : UInt64) : demands ((q.setOffset a).setLimit b) = demands q := rfl
  cases parts : identityParts (r.fields.filter (·.isIdentifier)) with
  | error e =>
    rw [parts] at base
    cases base
  | ok parts' =>
    rw [parts] at base
    simp only [bind, Except.bind] at base
    split at base <;> cases base <;> split <;> split <;>
      simp only [paged, ordered, demands_selectFields, selected]

theorem sound_of_demands {q q' : Query} (same : demands q = demands q') (sound : q'.Sound d) :
    q.Sound d := by
  simp only [demands, Prod.mk.injEq] at same
  obtain ⟨predicates, rawWhere, rawHaving, tables⟩ := same
  constructor
  · rw [predicates, tables]
    exact sound.predicates
  · rw [rawWhere, tables]
    exact sound.rawWhere
  · rw [rawHaving, tables]
    exact sound.rawHaving

theorem sound_restricted {q : Query} {rs hs : List Statement} (sound : q.Sound d)
    (inWhere : ∀ r ∈ rs, ReadsTight q.tableRef r.sql)
    (inHaving : ∀ r ∈ hs, ReadsTight q.tableRef r.sql) : (q.restricted (rs, hs)).Sound d := by
  have readable {r : Statement} (tight : ReadsTight q.tableRef r.sql) :
      ∃ is, Reads q.tableRef r.sql is := by
    obtain ⟨is, reads, -⟩ := tight
    exact ⟨is, reads⟩
  constructor
  · exact sound.predicates
  · intro r mem
    rcases List.mem_append.mp mem with own | added
    · exact sound.rawWhere r own
    · exact readable (inWhere r added)
  · intro r mem
    rcases List.mem_append.mp mem with own | added
    · exact sound.rawHaving r own
    · exact readable (inHaving r added)

/-- The clauses of a query imply each fragment that filters contributed to them. -/
structure Enforces (q : Query) (parts : List (Sql.Conjunction × Statement))
    (fragments : List (Clause × Statement)) : Prop where
  inWhere : ∀ f ∈ partsOf .whereClause fragments, q.rawWhere ≠ [] ∧ ∀ atomic,
    Holds atomic (q.expandRefs (q.whereBodySql parts)) → Holds atomic (q.expandRefs f.sql)
  inHaving : ∀ f ∈ partsOf .havingClause fragments, q.rawHaving ≠ [] ∧ ∀ atomic,
    Holds atomic (q.expandRefs q.havingBodySql) → Holds atomic (q.expandRefs f.sql)

open Filter.Collection (renderFilters) in
/-- Whatever a query asks for, its WHERE is the chain of its predicates and each of its raw
conditions, and so is its HAVING; in the query of a report they imply what its filters demand. -/
theorem restrictions_inescapable :
    (∀ (q : Query) (d : Dialect) (n m : Nat) (s : Statement), q.Sound d →
      q.render d n = (.ok s, m) →
      ∃ source k parts, q.sourceStatement d q.source n = (.ok source, k) ∧
        Sql.Clauses.renderPredicates d q.predicates k = (.ok parts, m) ∧
          q.Carries d source.sql parts s) ∧
    ∀ (r : Request) (s t : Session) (q : Query), r.buildQuery s = (.ok q, t) →
      (∀ f ∈ r.filters.filters, f.Plain q.tableRef) →
      ∃ fragments k,
        renderFilters r.dialect r.filters.context r.filters.filters s.drawn = (.ok fragments, k) ∧
        (∀ n, ∃ whole m, q.render r.dialect n = (.ok whole, m)) ∧
        ∀ d n m whole, (r.report.template.setPrefix r.settings.tablePrefix).Sound d →
          q.render d n = (.ok whole, m) →
          ∃ source k parts, q.sourceStatement d q.source n = (.ok source, k) ∧
            Sql.Clauses.renderPredicates d q.predicates k = (.ok parts, m) ∧
            q.Carries d source.sql parts whole ∧ Enforces q parts fragments := by
  constructor
  · intro q d n m s sound rendered
    exact Query.render_carries sound rendered
  · intro r s t q built readable
    obtain ⟨x, k, q₀, first, filters, base, rfl, rendered⟩ := render_of_buildQuery built
    obtain ⟨fragments, parts, rfl⟩ := Filter.Collection.fragments_of_render filters
    refine ⟨fragments, k, parts, fun n => Query.exists_render rendered _ n, ?_⟩
    intro d n m whole template again
    -- The filters add raw conditions to `q₀`, and have no part in what its references stand for.
    have tables : ∀ f ∈ r.filters.filters, f.Plain q₀.tableRef := readable
    have each := Filter.Collection.demand_renderFilters tables parts
    have ofClause (clause : Clause) : ∀ f ∈ partsOf clause fragments,
        Filter.Demand q₀.tableRef f := by
      intro f mem
      obtain ⟨e, inside, rfl⟩ := List.mem_map.mp mem
      exact each e (List.mem_filter.mp inside).1
    obtain ⟨inWhere, impliedWhere⟩ := Filter.effect_implies (ofClause .whereClause)
    obtain ⟨inHaving, impliedHaving⟩ := Filter.effect_implies (ofClause .havingClause)
    have sound := sound_restricted (sound_of_demands (demands_base base) template) inWhere inHaving
    obtain ⟨source, k', parts', given, predicates, carries⟩ := Query.render_carries sound again
    refine ⟨source, k', parts', given, predicates, carries, ?_⟩
    constructor
    · intro f mem
      obtain ⟨restricts, implied⟩ := impliedWhere f mem
      have some := List.append_ne_nil_of_right_ne_nil q₀.rawWhere restricts
      refine ⟨some, fun atomic holds => implied atomic fun r added => ?_⟩
      exact ((carries.whereHolds (.inr some) atomic).mp holds).2 r (List.mem_append_right _ added)
    · intro f mem
      obtain ⟨restricts, implied⟩ := impliedHaving f mem
      have some := List.append_ne_nil_of_right_ne_nil q₀.rawHaving restricts
      refine ⟨some, fun atomic holds => implied atomic fun r added => ?_⟩
      exact (carries.havingHolds some atomic).mp holds r (List.mem_append_right _ added)

def openCourses : Query :=
  { Query.empty.readFrom "course" "c" with
    predicates :=
      [.new "c.visible" [.ofInt 1] .equal, .new "c.category" [.ofInt 3, .ofInt 5] .inList .or]
    rawWhere := [⟨"c.startdate > 0 OR c.startdate IS NULL", ∅⟩]
    groupBy := ["c.id"]
    rawHaving := [⟨"COUNT(*) > 1 OR MAX(c.id) = 3", ∅⟩] }

/-- The open courses of a user, with a part of the name and a number of rows. -/
def ownOpenCourses : Request where
  report :=
    { name := "open", template := openCourses
      fields := [(Field.new "id" (some "c.id") "ID").withAttribute .identifier]
      filters := fun ctx => .ok (.new "open" ctx) }
  storage := { dialect := .sqlite, answer := fun _ _ => .ok [] }
  fields := [(Field.new "id" (some "c.id") "ID").withAttribute .identifier]
  filters :=
    { identifier := "open", context := { userId := 7 }
      filters :=
        [ (Filter.new "enrolled" "c.id").withHandler (.condition .enrolledCourses),
          { (Filter.new "fullname" "c.fullname").withHandler .text with
            raw := some (.string "x' OR 1 = 1 --") },
          { ((Filter.new "rows" "COUNT(*)").withOperator .greaterThan).withClause .havingClause with
            raw := some (.ofInt 4) } ] }

theorem sound_openCourses (tablePrefix : String) : (openCourses.setPrefix tablePrefix).Sound d := by
  have selector {s : String} (mem : s ∈ ["c.visible", "c.category"]) :
      ReadsTight (openCourses.setPrefix tablePrefix).tableRef s := by
    rcases List.mem_pair.mp mem with rfl | rfl <;>
      exact Sql.readsTight_of_isTight (by decide +kernel)
  constructor
  · intro p mem
    rcases List.mem_pair.mp mem with rfl | rfl
    · exact Filter.plain_new (selector List.mem_cons_self) _ _ _
    · exact Filter.plain_new (selector (List.mem_cons_of_mem _ List.mem_cons_self)) _ _ _
  · intro r mem
    rw [List.mem_singleton.mp mem]
    exact Sql.exists_reads (by decide +kernel)
  · intro r mem
    rw [List.mem_singleton.mp mem]
    exact Sql.exists_reads (by decide +kernel)

theorem restrictions_inescapable_openCourses :
    (∃ s m source parts, openCourses.render .sqlite 0 = (.ok s, m) ∧
      openCourses.Sound .sqlite ∧ openCourses.Framed source ∧
        Sql.Clauses.hasOr (Sql.Clauses.partTexts parts) = true ∧
        openCourses.Carries .sqlite source parts s) ∧
    ∃ q t fragments k whole m source parts, ownOpenCourses.buildQuery {} = (.ok q, t) ∧
      (∀ f ∈ ownOpenCourses.filters.filters, f.Plain q.tableRef) ∧
      fragments.length = 3 ∧ q.render .sqlite k = (.ok whole, m) ∧
      q.Carries .sqlite source parts whole ∧ Enforces q parts fragments := by
  obtain ⟨alone, inReport⟩ := restrictions_inescapable
  constructor
  · have sound : openCourses.Sound .sqlite := sound_openCourses ""
    obtain ⟨s, m, rendered⟩ : ∃ s m, openCourses.render .sqlite 0 = (.ok s, m) :=
      ⟨_, _, rfl⟩
    obtain ⟨source, k, parts, given, predicates, carries⟩ :=
      alone openCourses .sqlite 0 m s sound rendered
    cases given
    have alternatives :
        (Sql.Clauses.renderPredicates .sqlite openCourses.predicates 0).1.toOption.map
          (fun parts => Sql.Clauses.hasOr (Sql.Clauses.partTexts parts)) = some true := by
      decide +kernel
    rw [predicates] at alternatives
    refine ⟨s, m, _, parts, rendered, sound, ?_, Option.some.inj alternatives, carries⟩
    constructor <;> decide +kernel
  · have known : (ownOpenCourses.buildQuery {}).1.toOption.map (fun q =>
        (q.tableRef "enrol", q.tableRef "user_enrolments")) =
          some ("enrol", "user_enrolments") := by
      decide +kernel
    rcases built : ownOpenCourses.buildQuery {} with ⟨e | q, t⟩
    · rw [built] at known
      cases known
    · rw [built] at known
      obtain ⟨enrol, users⟩ := Prod.mk.inj (Option.some.inj known)
      have selector {s : String} (mem : s ∈ ["c.id", "c.fullname", "COUNT(*)"]) :
          ReadsTight q.tableRef s := by
        simp only [List.mem_cons, List.not_mem_nil, or_false] at mem
        rcases mem with rfl | rfl | rfl <;> exact Sql.readsTight_of_isTight (by decide +kernel)
      have readable : ∀ f ∈ ownOpenCourses.filters.filters, f.Plain q.tableRef := by
        intro f mem
        constructor
        · exact selector (by revert f; decide)
        · intro _ name named
          rcases List.mem_pair.mp named with rfl | rfl
          · rw [enrol]
            exact Option.isSome_iff_exists.mp (by decide +kernel)
          · rw [users]
            exact Option.isSome_iff_exists.mp (by decide +kernel)
      obtain ⟨fragments, k, parts, renders, implies⟩ :=
        inReport ownOpenCourses {} t q built readable
      obtain ⟨whole, m, rendered⟩ := renders k
      obtain ⟨source, k', parts', -, -, carries, enforces⟩ :=
        implies .sqlite k m whole (sound_openCourses _) rendered
      refine ⟨q, t, fragments, k, whole, m, source.sql, parts', rfl, readable, ?_,
        rendered, carries, enforces⟩
      have three : (Filter.Collection.renderFilters .sqlite ownOpenCourses.filters.context
          ownOpenCourses.filters.filters 0).1.toOption.map List.length = some 3 := by decide +kernel
      have same : Filter.Collection.renderFilters .sqlite ownOpenCourses.filters.context
          ownOpenCourses.filters.filters 0 = (.ok fragments, k) := parts
      rw [same] at three
      exact Option.some.inj three

end Request

end Reports
