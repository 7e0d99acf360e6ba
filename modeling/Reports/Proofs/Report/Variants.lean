import Reports.Proofs.Report.Assembly

/-! Requests that differ in what has no part in whether a query renders: when the query of one is
put together so is that of the other, and the counter ends in the same place. -/
namespace Reports

open Sql (Query Dialect Statement)

namespace Sql

def ending {α : Type} (x : Except Error α × Nat) : Except Error Unit × Nat :=
  (x.1.map fun _ => (), x.2)

namespace Clauses

variable {c c' : Clauses}

theorem ending_whereBody (d : Dialect) (n : Nat) :
    ending (c.whereBody d n) = ending (renderPredicates d c.predicates n) := by
  rcases rendered : renderPredicates d c.predicates n with ⟨e | parts, m⟩
  · rw [whereBody, Effect.bind_error _ rendered]
    rfl
  · rw [whereBody, Effect.bind_ok _ rendered]
    split <;> rfl

theorem ending_assemble (d : Dialect) (source : Statement) (n : Nat) :
    ending (c.assemble d source n) = ending (renderPredicates d c.predicates n) := by
  rw [← ending_whereBody]
  rcases body : c.whereBody d n with ⟨e | _ | body, m⟩
  · rw [assemble, Effect.bind_error _ body]
    rfl
  · rw [assemble, Effect.bind_ok _ body]
    rfl
  · rw [assemble, Effect.bind_ok _ body]
    rfl

theorem ending_renderOver (same : c.predicates = c'.predicates) (d : Dialect)
    (source : Source) (n : Nat) :
    ending (c.renderOver d source n) = ending (c'.renderOver d source n) := by
  cases source with
  | none => rfl
  | table name correlation => rw [renderOver, renderOver, ending_assemble, ending_assemble, same]
  | derived inner source correlation =>
    rcases within : inner.renderOver d source n with ⟨e | s, m⟩
    · rw [renderOver, renderOver, Effect.bind_error _ within, Effect.bind_error _ within]
    · rw [renderOver, renderOver, Effect.bind_ok _ within, Effect.bind_ok _ within,
        ending_assemble, ending_assemble, same]

end Clauses

/-- A change to queries that touches neither sources nor conditions. -/
structure Query.Spares (f : Query → Query) : Prop where
  source : ∀ q, (f q).source = q.source
  predicates : ∀ q, (f q).predicates = q.predicates
  restricted : ∀ q x, f (q.restricted x) = (f q).restricted x

theorem Query.ending_render {q q' : Query} (source : q.source = q'.source)
    (predicates : q.predicates = q'.predicates) (d : Dialect) (n : Nat) :
    ending (q.render d n) = ending (q'.render d n) := by
  rw [render, render, source]
  exact Clauses.ending_renderOver predicates d q'.source n

theorem Query.Spares.ending_render {f : Query → Query} (spares : Spares f) (q : Query)
    (d : Dialect) (n : Nat) :
    ending ((f q).render d n) = ending (q.render d n) :=
  Query.ending_render (spares.source q) (spares.predicates q) d n

end Sql

namespace Request

/-- What is put together, or the error, and where the counter is left. -/
def outcome (r : Request) (s : Session) : Except Error Query × Nat :=
  ((r.buildQuery s).1, (r.buildQuery s).2.drawn)

theorem outcome_eq (r : Request) (s : Session) : r.outcome s =
    match r.filters.render r.dialect s.drawn with
    | (.error e, m) => (.error e, m)
    | (.ok x, m) => match r.base with
      | .error e => (.error e, m)
      | .ok q =>
        ((Sql.ending ((q.restricted x.effect).render r.dialect m)).1.map fun _ =>
          q.restricted x.effect, (Sql.ending ((q.restricted x.effect).render r.dialect m)).2) := by
  rcases filters : r.filters.render r.dialect s.drawn with ⟨e | x, m⟩
  · have failed : Session.draw (r.filters.render r.dialect) s =
        (.error e, { s with drawn := m }) := by
      rw [Session.draw, filters]
    rw [outcome, buildQuery, Effect.bind_error _ failed]
  · have drawn : Session.draw (r.filters.render r.dialect) s = (.ok x, { s with drawn := m }) := by
      rw [Session.draw, filters]
    have arranged := r.arrange_eq x
    rcases base : r.base with e | q <;> rw [base] at arranged
    · rw [outcome, buildQuery, Effect.bind_ok _ drawn, arranged]
      rfl
    · let logged : Session := { s with drawn := m, events := s.events ++ r.arrangeEvents }
      have log : (liftM (logAll r.arrangeEvents) : Action Unit) { s with drawn := m } =
          (.ok (), logged) := rfl
      rw [outcome, buildQuery, Effect.bind_ok _ drawn, arranged]
      simp only [Except.map]
      rw [Effect.bind_ok _ log]
      rcases rendered : (q.restricted x.effect).render r.dialect m with ⟨e | whole, m'⟩
      · have refused : Session.draw ((q.restricted x.effect).render r.dialect) logged =
            (.error e, { logged with drawn := m' }) := by
          rw [Session.draw, rendered]
        rw [Effect.bind_error _ refused]
        rfl
      · have done : Session.draw ((q.restricted x.effect).render r.dialect) logged =
            (.ok whole, { logged with drawn := m' }) := by
          rw [Session.draw, rendered]
        rw [Effect.bind_ok _ done]
        rfl

/-- Of two requests with the same filters, one puts together the query of the other with a change
that has no part in whether it renders. -/
theorem outcome_map (r r' : Request) {f : Query → Query} (spares : Query.Spares f)
    (dialect : r.dialect = r'.dialect) (filters : r.filters = r'.filters)
    (base : r.base = r'.base.map f)
    (s : Session) : r.outcome s = ((r'.outcome s).1.map f, (r'.outcome s).2) := by
  rw [outcome_eq, outcome_eq, dialect, filters, base]
  rcases r'.filters.render r'.dialect s.drawn with ⟨e | x, m⟩
  · rfl
  · cases r'.base with
    | error e => rfl
    | ok q =>
      simp only [Except.map]
      rw [← spares.restricted, spares.ending_render]
      cases (Sql.ending ((q.restricted x.effect).render r'.dialect m)).1 <;> rfl

/-- Two requests whose queries have the same source and conditions end in the same way. -/
theorem ending_outcome (r r' : Request) {q q' : Query} (dialect : r.dialect = r'.dialect)
    (filters : r.filters = r'.filters) (base : r.base = .ok q) (base' : r'.base = .ok q')
    (source : q.source = q'.source) (predicates : q.predicates = q'.predicates) (s : Session) :
    Sql.ending (r.outcome s) = Sql.ending (r'.outcome s) := by
  rw [outcome_eq, outcome_eq, dialect, filters, base, base']
  rcases r'.filters.render r'.dialect s.drawn with ⟨e | x, m⟩
  · rfl
  · have same : Sql.ending ((q.restricted x.effect).render r'.dialect m) =
        Sql.ending ((q'.restricted x.effect).render r'.dialect m) := by
      apply Query.ending_render
      · exact source
      · exact predicates
    simp only [same]
    cases (Sql.ending ((q'.restricted x.effect).render r'.dialect m)).1 <;> rfl

end Request

end Reports
