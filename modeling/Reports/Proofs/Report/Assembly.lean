import Reports.Report.Request
import Reports.Proofs.Filter.Restriction
import Reports.Proofs.Sql.CounterIndependence

/-! How a request puts its query together: filters add raw conditions to a query that depends on
everything else. -/
namespace Reports

open Sql (Query Dialect Statement Template Outline Name Follows placeholderName)
open Sql.Clauses (outlines holeTotal)
open Reports.Filter (Clause CollectionSql ClauseSql)
open Reports.Filter.Collection (restriction)

namespace Sql.Query

def restricted (q : Query) (x : List Statement × List Statement) : Query :=
  { q with rawWhere := q.rawWhere ++ x.1, rawHaving := q.rawHaving ++ x.2 }

theorem restricted_injective (q : Query) : Function.Injective q.restricted := by
  rintro ⟨w, h⟩ ⟨w', h'⟩ same
  have inWhere : q.rawWhere ++ w = q.rawWhere ++ w' := congrArg (·.rawWhere) same
  have inHaving : q.rawHaving ++ h = q.rawHaving ++ h' := congrArg (·.rawHaving) same
  rw [List.append_cancel_left inWhere, List.append_cancel_left inHaving]

theorem restricted_nil (q : Query) : q.restricted ([], []) = q := by
  simp only [restricted, List.append_nil]

theorem select_restricted (q : Query) (x : List Statement × List Statement)
    (expr column : String) :
    (q.restricted x).select expr column = (q.select expr column).restricted x := rfl

theorem outlineOver_restricted (q : Query) (x : List Statement × List Statement) (d : Dialect)
    (raw having : List Outline) (k : Nat) :
    (q.restricted x).outlineOver d raw having k q.source =
      q.outlineOver d raw having k q.source := by
  cases q.source <;> rfl

theorem exists_render {q : Query} {x : List Statement × List Statement} {d : Dialect} {n m : Nat}
    {s : Statement} (rendered : (q.restricted x).render d n = (.ok s, m))
    (y : List Statement × List Statement) (n' : Nat) :
    ∃ s' m', (q.restricted y).render d n' = (.ok s', m') := by
  have outcome := Clauses.renderOver_outcome d (q.restricted x).toClauses q.source [] [] 0 n
  have other := Clauses.renderOver_outcome d (q.restricted y).toClauses q.source [] [] 0 n'
  rw [outlineOver_restricted] at outcome other
  split at outcome
  · next found =>
    rw [found] at other
    obtain ⟨s', m', rendered', -⟩ := other
    exact ⟨s', m', rendered'⟩
  · obtain ⟨m', failed, -⟩ := outcome
    have ended := rendered.symm.trans failed
    cases ended

/-- Rendered from two counters, two queries fail alike or bind alike in every dialect. -/
def BindsLike (d : Dialect) (q : Query) (n : Nat) (q' : Query) (n' : Nat) : Prop :=
  match (q.render d n).1, (q'.render d n').1 with
  | .ok s, .ok s' => ∀ d', s.bind d' = s'.bind d'
  | .error e, .error e' => e = e'
  | _, _ => False

end Sql.Query

namespace Request

theorem restrict_eq (q : Query) (x : CollectionSql) : restrict q x = q.restricted x.effect := by
  rw [restrict, Query.restricted, CollectionSql.effect, ClauseSql.effect, ClauseSql.effect]
  by_cases inWhere : x.whereSql.isTrivial = true <;>
    by_cases inHaving : x.havingSql.isTrivial = true <;>
    simp [inWhere, inHaving, Query.whereRaw, Query.havingRaw]

theorem selectFields_restricted (q : Query) (x : List Statement × List Statement)
    (fs : List Field) :
    selectFields (q.restricted x) fs = (selectFields q fs).restricted x := by
  induction fs generalizing q with
  | nil => rfl
  | cons f rest ih =>
    rw [selectFields, selectFields, List.foldl_cons, List.foldl_cons]
    cases f.select with
    | none => exact ih q
    | some expr => exact ih (q.select expr f.name)

theorem selectFields_eq (q : Query) (fs : List Field) :
    ∃ selects, selectFields q fs = { q with selects } := by
  induction fs generalizing q with
  | nil => exact ⟨q.selects, rfl⟩
  | cons f rest ih =>
    rw [selectFields, List.foldl_cons]
    cases f.select with
    | none => exact ih q
    | some expr => exact ih (q.select expr f.name)

/-- The query without anything that the filters restrict. -/
def base (r : Request) : Except Error Query := r.arrange ⟨.ofParts [], .ofParts []⟩

theorem arrange_eq (r : Request) (x : CollectionSql) :
    r.arrange x = r.base.map (·.restricted x.effect) := by
  have trivially : CollectionSql.effect ⟨.ofParts [], .ofParts []⟩ = ([], []) := rfl
  simp only [base, arrange, restrict_eq, trivially, Query.restricted_nil]
  cases identityParts (r.fields.filter (·.isIdentifier)) with
  | error e => rfl
  | ok parts =>
    simp only [bind, Except.bind]
    cases identityExpr r.dialect r.settings.delimiter parts <;>
      cases r.resolveSort r.displayFields <;>
        by_cases paginated : r.layout.isPaginated = true <;>
          simp only [paginated, if_true, selectFields_restricted, Query.select_restricted] <;> rfl

theorem buildQuery_of_render {r : Request} {s : Session} {x : CollectionSql}
    {m m' : Nat} {q : Query} {whole : Statement}
    (filters : r.filters.render r.dialect s.drawn = (.ok x, m))
    (base : r.base = .ok q)
    (rendered : (q.restricted x.effect).render r.dialect m = (.ok whole, m')) :
    ∃ s', r.buildQuery s = (.ok (q.restricted x.effect), s') ∧ s'.drawn = m' := by
  have drawn : Session.draw (r.filters.render r.dialect) s = (.ok x, { s with drawn := m }) := by
    rw [Session.draw, filters]
  have arranged : r.arrange x = .ok (q.restricted x.effect) := by
    rw [arrange_eq, base]
    rfl
  let logged : Session := { s with drawn := m, events := s.events ++ r.arrangeEvents }
  have log : (liftM (logAll r.arrangeEvents) : Action Unit) { s with drawn := m } =
      (.ok (), logged) := rfl
  have again : Session.draw ((q.restricted x.effect).render r.dialect) logged =
      (.ok whole, { logged with drawn := m' }) := by
    rw [Session.draw, rendered]
  rw [buildQuery, Effect.bind_ok _ drawn, arranged]
  simp only []
  rw [Effect.bind_ok _ log, Effect.bind_ok _ again]
  exact ⟨_, rfl, rfl⟩

theorem render_of_buildQuery {r : Request} {s s' : Session} {q : Query}
    (built : r.buildQuery s = (.ok q, s')) :
    ∃ x m q₀ whole, r.filters.render r.dialect s.drawn = (.ok x, m) ∧ r.base = .ok q₀ ∧
      q = q₀.restricted x.effect ∧ q.render r.dialect m = (.ok whole, s'.drawn) := by
  rcases filters : r.filters.render r.dialect s.drawn with ⟨x, m⟩
  have drawn : Session.draw (r.filters.render r.dialect) s = (x, { s with drawn := m }) := by
    rw [Session.draw, filters]
  cases x with
  | error e =>
    rw [buildQuery, Effect.bind_error _ drawn] at built
    cases built
  | ok x =>
    have arranged := r.arrange_eq x
    cases base : r.base with
    | error e =>
      rw [base] at arranged
      rw [buildQuery, Effect.bind_ok _ drawn, arranged] at built
      cases built
    | ok q₀ =>
      rcases rendered : (q₀.restricted x.effect).render r.dialect m with ⟨whole, m'⟩
      cases whole with
      | ok whole =>
        obtain ⟨s'', same, counter⟩ := buildQuery_of_render filters base rendered
        rw [same, Prod.mk.injEq, Except.ok.injEq] at built
        obtain ⟨rfl, rfl⟩ := built
        exact ⟨x, m, q₀, whole, rfl, rfl, rfl, by rw [rendered, counter]⟩
      | error e =>
        let logged : Session := { s with drawn := m, events := s.events ++ r.arrangeEvents }
        have log : (liftM (logAll r.arrangeEvents) : Action Unit) { s with drawn := m } =
          (.ok (), logged) := rfl
        have refused : Session.draw ((q₀.restricted x.effect).render r.dialect) logged =
            (.error e, { logged with drawn := m' }) := by
          rw [Session.draw, rendered]
        rw [base] at arranged
        rw [buildQuery, Effect.bind_ok _ drawn, arranged] at built
        simp only [Except.map] at built
        rw [Effect.bind_ok _ log, Effect.bind_error _ refused] at built
        cases built

/-- With other filters a request would have put the same query together exactly when they restrict
the same. -/
theorem buildQuery_iff {r : Request} {c : Filter.Collection} {s s' : Session} {q : Query}
    (built : ({ r with filters := c }).buildQuery s = (.ok q, s')) :
    (∃ s'', r.buildQuery s = (.ok q, s'')) ↔ c.RestrictsLike r.filters r.dialect s.drawn := by
  obtain ⟨x, m, q₀, whole, filters, base, rfl, rendered⟩ := render_of_buildQuery built
  constructor
  · rintro ⟨s'', again⟩
    obtain ⟨y, m', q₁, -, filters', base', same, -⟩ := render_of_buildQuery again
    obtain rfl : q₀ = q₁ := Except.ok.inj (base.symm.trans base')
    exact ⟨x, y, m, m', filters, filters', q₀.restricted_injective same⟩
  · rintro ⟨x', y, m', m'', filters', filters'', same⟩
    obtain rfl : x = x' := by
      have both := filters.symm.trans filters'
      rw [Prod.mk.injEq, Except.ok.injEq] at both
      exact both.1
    obtain ⟨s', n, again⟩ := Query.exists_render rendered y.effect m''
    obtain ⟨s'', built', -⟩ := buildQuery_of_render filters'' base again
    exact ⟨s'', by rw [built', same]⟩

end Request

end Reports
