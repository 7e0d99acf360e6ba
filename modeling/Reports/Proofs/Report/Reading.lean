import Reports.Proofs.Session
import Reports.Proofs.Filter.Restriction
import Reports.Report.Request

/-! Operations that read a report: they leave everything alone that the query depends on, and they
put the query together only when there is none. -/
namespace Reports

namespace Request

/-- What the query is put together from. -/
def inputs (r : Request) : Request := { r with query := none, counts := .empty, labels := .empty }

theorem buildQuery_inputs {r r' : Request} (same : r'.inputs = r.inputs) :
    r'.buildQuery = r.buildQuery := by
  have reads (r : Request) : r.inputs.buildQuery = r.buildQuery := rfl
  rw [← reads r', same, reads]

/-- From one request and session to another by reading. -/
structure Reads (r : Request) (s : Session) (r' : Request) (s' : Session) : Prop where
  inputs : r'.inputs = r.inputs
  session : s.Extends s'
  /-- A query that was there stays; a new one was put together on the way. -/
  query : r'.query = r.query ∨ r.query = none ∧ ∃ q before after, r'.query = some q ∧
    s.drawn ≤ before.drawn ∧ r.buildQuery before = (.ok q, after) ∧ after.drawn ≤ s'.drawn

namespace Reads

variable {r r' r'' : Request} {s s' s'' : Session}

theorem refl (r : Request) (s : Session) : Reads r s r s := ⟨rfl, .refl s, Or.inl rfl⟩

theorem of_extends (grows : s.Extends s') : Reads r s r s' := ⟨rfl, grows, Or.inl rfl⟩

theorem filters (h : Reads r s r' s') : r'.filters = r.filters := by
  have same := congrArg Request.filters h.inputs
  exact same

theorem query_of_held (h : Reads r s r' s') {q : Sql.Query} (held : r.query = some q) :
    r'.query = some q := by
  rcases h.query with same | ⟨none, -⟩
  · exact same.trans held
  · rw [held] at none
    cases none

theorem trans (h : Reads r s r' s') (h' : Reads r' s' r'' s'') : Reads r s r'' s'' := by
  refine ⟨h'.inputs.trans h.inputs, h.session.trans h'.session, ?_⟩
  rcases h.query with kept | ⟨none, q, before, after, held, le, built, le'⟩
  · rcases h'.query with kept' | ⟨none', q, before, after, held, le, built, le'⟩
    · exact Or.inl (kept'.trans kept)
    · rw [buildQuery_inputs h.inputs] at built
      exact Or.inr ⟨kept ▸ none', q, before, after, held,
        Nat.le_trans h.session.drawn le, built, le'⟩
  · rcases h'.query with kept' | ⟨none', -⟩
    · exact Or.inr ⟨none, q, before, after, kept'.trans held, le, built,
        Nat.le_trans le' h'.session.drawn⟩
    · rw [held] at none'
      cases none'

end Reads

variable {α β : Type}

def Reading (x : RequestAction α) : Prop := ∀ r s, Reads r s (x r s).1.2 (x r s).2

theorem bind_ok {x : RequestAction α} (f : α → RequestAction β) {r r' : Request}
    {s s' : Session} {a : α} (h : x r s = ((.ok a, r'), s')) : (x >>= f) r s = f a r' s' := by
  change (StateT.bind x (ExceptT.bindCont f) r : StateM Session _) s = _
  rw [StateT.bind]
  change StateT.bind (x r) _ s = _
  rw [StateT.bind, h]
  rfl

theorem bind_error {x : RequestAction α} (f : α → RequestAction β) {r r' : Request}
    {s s' : Session} {e : Error} (h : x r s = ((.error e, r'), s')) :
    (x >>= f) r s = ((.error e, r'), s') := by
  change (StateT.bind x (ExceptT.bindCont f) r : StateM Session _) s = _
  rw [StateT.bind]
  change StateT.bind (x r) _ s = _
  rw [StateT.bind, h]
  rfl

theorem of_bind_ok {x : RequestAction α} {f : α → RequestAction β} {r r' : Request}
    {s s' : Session} {b : β} (h : (x >>= f) r s = ((.ok b, r'), s')) :
    ∃ a r₁ s₁, x r s = ((.ok a, r₁), s₁) ∧ f a r₁ s₁ = ((.ok b, r'), s') := by
  rcases first : x r s with ⟨⟨e | a, r₁⟩, s₁⟩
  · rw [bind_error f first] at h
    cases h
  · rw [bind_ok f first] at h
    exact ⟨a, r₁, s₁, rfl, h⟩

theorem act_eq {x : Action α} {s s' : Session} {result : Except Error α} (h : x s = (result, s'))
    (r : Request) : act x r s = ((result, r), s') := by
  rw [act, h]

theorem of_act {x : Action α} {r r' : Request} {s s' : Session} {result : Except Error α}
    (h : act x r s = ((result, r'), s')) : r' = r ∧ x s = (result, s') := by
  cases h
  exact ⟨rfl, rfl⟩

theorem init_eq {r : Request} {c : Filter.Collection} {s s' : Session}
    {result : Except Error Unit} (h : r.filters.init r.storage s = ((result, c), s')) :
    init r s = ((result, { r with filters := c }), s') := by
  rw [init, h]

theorem of_init {r r' : Request} {s s' : Session} {result : Except Error Unit}
    (h : init r s = ((result, r'), s')) :
    ∃ c, r' = { r with filters := c } ∧ r.filters.init r.storage s = ((result, c), s') := by
  cases h
  exact ⟨_, rfl, rfl⟩

theorem grows_buildQuery (r : Request) : r.buildQuery.Grows := by
  refine (Action.Grows.draw fun n => ?_).bind fun sql => ?_
  · have outcome := Filter.Collection.render_outcome r.dialect r.filters n
    split at outcome
    · obtain ⟨x, rendered⟩ := outcome
      rw [rendered]
      exact Nat.le_add_right _ _
    · obtain ⟨m, failed, le⟩ := outcome
      rw [failed]
      exact le
  · split
    · exact .throw trivial
    · refine (Action.Obeys.logAll _).bind fun _ => (Action.Grows.render _ _).bind fun _ => ?_
      exact (Action.Obeys.log _).bind fun _ => .pure _

theorem obeys_orUnavailable {rule : Session.Rule} (any : ∀ e, rule.Fails e) {x : Action α}
    (hx : x.Obeys rule) : (orUnavailable x).Obeys rule := by
  refine hx.attempt.bind fun result => ?_
  split
  · exact .pure _
  · exact .throw (any _)
  · dsimp only
    split
    · exact (Action.Obeys.log _).bind fun _ => .throw (any _)
    · exact .throw (any _)

theorem ok_of_orUnavailable {x : Action α} {s s' : Session} {a : α}
    (h : orUnavailable x s = (.ok a, s')) : x s = (.ok a, s') := by
  rcases outcome : x s with ⟨e | b, s''⟩
  · have tried : Session.attempt x s = (.ok (.error e), s'') := by rw [Session.attempt, outcome]
    rw [orUnavailable, Effect.bind_ok _ tried] at h
    by_cases fault : e.isFault = true
    · cases e <;> simp only [fault, Bool.not_true, Bool.false_eq_true, if_false] at h <;> cases h
    · cases e <;> simp only [fault, Bool.not_false, if_true] at h <;> cases h
  · have tried : Session.attempt x s = (.ok (.ok b), s'') := by rw [Session.attempt, outcome]
    rw [orUnavailable, Effect.bind_ok _ tried] at h
    exact h

theorem draw_of_orUnavailable {x : Sql.Draw α} {s s' : Session} {a : α}
    (h : orUnavailable (Session.draw x) s = (.ok a, s')) : ∃ m, x s.drawn = (.ok a, m) := by
  have drawn := ok_of_orUnavailable h
  rcases whole : x s.drawn with ⟨result, m⟩
  rw [Session.draw, whole] at drawn
  cases drawn
  exact ⟨m, rfl⟩

theorem getQuery_of_held {r : Request} {q : Sql.Query} (held : r.query = some q) (s : Session) :
    getQuery r s = ((.ok q, r), s) := by
  rw [getQuery, bind_ok _ (rfl : current r s = _), held]
  rfl

/-- The query is there, or it is put together now, or that fails. -/
theorem getQuery_cases (r : Request) (s : Session) :
    (∃ q, r.query = some q ∧ getQuery r s = ((.ok q, r), s)) ∨ r.query = none ∧
      ((∃ q s', orUnavailable r.buildQuery s = (.ok q, s') ∧
          getQuery r s = ((.ok q, { r with query := some q }), s')) ∨
        ∃ e s', orUnavailable r.buildQuery s = (.error e, s') ∧
          getQuery r s = ((.error e, r), s')) := by
  cases held : r.query with
  | some q => exact .inl ⟨q, rfl, getQuery_of_held held s⟩
  | none =>
    refine .inr ⟨rfl, ?_⟩
    rw [getQuery, bind_ok _ (rfl : current r s = _), held]
    rcases outcome : orUnavailable r.buildQuery s with ⟨e | q, s'⟩
    · exact .inr ⟨e, s', rfl, bind_error _ (act_eq outcome r)⟩
    · exact .inl ⟨q, s', rfl, bind_ok _ (act_eq outcome r)⟩

theorem query_of_getQuery {r r' : Request} {s s' : Session} {q : Sql.Query}
    (got : getQuery r s = ((.ok q, r'), s')) : r'.query = some q := by
  rcases getQuery_cases r s with ⟨q', held, there⟩ |
    ⟨-, ⟨q', s'', -, built⟩ | ⟨e, s'', -, failed⟩⟩
  · rw [there] at got
    cases got
    exact held
  · rw [built] at got
    cases got
    rfl
  · rw [failed] at got
    cases got

namespace Reading

theorem pure (a : α) : Reading (pure a) := fun r s => .refl r s

theorem bind {x : RequestAction α} {f : α → RequestAction β} (hx : Reading x)
    (hf : ∀ a, Reading (f a)) : Reading (x >>= f) := by
  intro r s
  have here := hx r s
  rcases outcome : x r s with ⟨⟨_ | a, r'⟩, s'⟩
  · rw [outcome] at here
    rw [bind_error f outcome]
    exact here
  · rw [outcome] at here
    rw [bind_ok f outcome]
    exact here.trans (hf a r' s')

theorem map {x : RequestAction α} (hx : Reading x) (f : α → β) : Reading (f <$> x) :=
  hx.bind fun a => pure (f a)

theorem current : Reading current := fun r s => .refl r s

theorem act {x : Action α} (grows : x.Grows) : Reading (act x) :=
  fun _ s => .of_extends (grows s).1

theorem getQuery : Reading getQuery := by
  intro r s
  have grows := (obeys_orUnavailable (fun _ => trivial) (grows_buildQuery r) s).1
  rcases getQuery_cases r s with ⟨q, -, there⟩ |
    ⟨none, ⟨q, s', outcome, built⟩ | ⟨e, s', outcome, failed⟩⟩
  · rw [there]
    exact .refl r s
  · rw [outcome] at grows
    rw [built]
    have given := ok_of_orUnavailable outcome
    exact ⟨rfl, grows, Or.inr ⟨none, q, s, s', rfl, Nat.le_refl _, given, Nat.le_refl _⟩⟩
  · rw [outcome] at grows
    rw [failed]
    exact .of_extends grows

theorem count (unique : Bool) : Reading (count unique) := by
  refine getQuery.bind fun q => current.bind fun r => ?_
  refine (act (.executeCount r.storage q unique r.counts)).bind fun result => ?_
  exact bind (fun _ s => ⟨rfl, .refl s, Or.inl rfl⟩) fun _ => pure result.1

theorem pageInfo : Reading pageInfo := by
  refine current.bind fun r => (act (.logAll _)).bind fun _ => (count true).bind fun total => ?_
  exact pure _

theorem prefetchAttribute (name : String) (rows : List Row) (a : Field.Attribute) :
    Reading (prefetchAttribute name rows a) := by
  unfold Request.prefetchAttribute
  cases a.lookup? with
  | none => exact pure ()
  | some l =>
    dsimp only
    split
    · exact pure ()
    · refine current.bind fun r => (act (.prefetch r.labels r.storage l _)).bind fun labels => ?_
      exact fun r s => ⟨rfl, .refl s, Or.inl rfl⟩

theorem prefetchAttributes (name : String) (rows : List Row) (as : List Field.Attribute) :
    Reading (prefetchAttributes name rows as) := by
  induction as with
  | nil => exact pure ()
  | cons a rest ih => exact (prefetchAttribute name rows a).bind fun _ => ih

theorem prefetchLabels (rows : List Row) (fs : List Field) : Reading (prefetchLabels rows fs) := by
  induction fs with
  | nil => exact pure ()
  | cons f rest ih => exact (prefetchAttributes f.name rows f.attributes).bind fun _ => ih

end Reading

end Request

end Reports
