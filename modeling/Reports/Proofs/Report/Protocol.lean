import Reports.Proofs.Report.Coherence
import Reports.Proofs.Report.Stages

/-! Which statements a report asks, and in which order: options, counts, the rows of one page, and
labels. A statement that fails for good is the last one. -/
namespace Reports

open Sql (Query Statement Counting)
open Reports.Field (Labelling)

def Error.asUnavailable : Error → Error
  | .unavailable cause => .unavailable cause
  | e => .unavailable e

namespace Request

/-- The query is what the request gives, in some session. -/
def Gives (r : Request) (q : Query) : Prop := ∃ s r' s', getQuery r s = ((.ok q, r'), s')

/-- The page that is shown, with the counts that were asked for it. Only layouts with pages
count. -/
inductive Counted (r : Request) (q : Query) : List Exchange → Option PageInfo → Prop
  | whole : r.layout.isPaginated = false → Counted r q [] none
  | page {n : Nat} {xs : List Exchange} {total : UInt64} {memo : Sql.CountMemo} :
    r.layout.isPaginated = true → Counting r.dialect q true r.counts n xs (.ok (total, memo)) →
      Counted r q xs (some ((Paginator.new r.perPage).paginate r.page total))

/-- The page and the statement for its rows, of a request whose options are loaded. -/
inductive Paging (r : Request) : List Exchange →
    Except Error (Option PageInfo × Statement) → Prop
  | unassembled {s s' : Session} {r' : Request} {e : Error} :
    getQuery r s = ((.error e, r'), s') → Paging r [] (.error e)
  | uncounted {q : Query} {n : Nat} {xs : List Exchange} {e : Error} :
    r.Gives q → r.layout.isPaginated = true →
      Counting r.dialect q true r.counts n xs (.error e) → Paging r xs (.error e)
  | unrendered {q : Query} {xs : List Exchange} {page : Option PageInfo} {n m : Nat} {e : Error} :
    r.Gives q → r.Counted q xs page → (atPage q page).render r.dialect n = (.error e, m) →
      Paging r xs (.error e.asUnavailable)
  | rendered {q : Query} {xs : List Exchange} {page : Option PageInfo} {n m : Nat} {x : Statement} :
    r.Gives q → r.Counted q xs page → (atPage q page).render r.dialect n = (.ok x, m) →
      Paging r xs (.ok (page, x))

/-- How a report ends, with the statements asked for its options, counts, rows and labels. -/
inductive Protocol (r : Request) :
    List Exchange → List Exchange → List Exchange → List Exchange →
    Except Error (Option RowSet) → Prop
  | unloaded {options : List Exchange} {e : Error} :
    Asked r.filters.optionStatements options (.error e) → Protocol r options [] [] [] (.error e)
  | unpaged {options counts : List Exchange} {c : Filter.Collection} {e : Error} :
    Asked r.filters.optionStatements options (.ok ()) → r.filters.LoadedInto c →
      Paging { r with filters := c } counts (.error e) →
      Protocol r options counts [] [] (.error e)
  | unanswered {options counts : List Exchange} {c : Filter.Collection} {page : Option PageInfo}
    {x : Statement} {e : Error} :
    Asked r.filters.optionStatements options (.ok ()) → r.filters.LoadedInto c →
      Paging { r with filters := c } counts (.ok (page, x)) →
        Protocol r options counts [⟨x, .error e⟩] [] (.error e)
  | unlabelled {options counts labels : List Exchange} {c : Filter.Collection}
    {page : Option PageInfo}
    {x : Statement} {rows : List Row} {e : Error} :
    Asked r.filters.optionStatements options (.ok ()) → r.filters.LoadedInto c →
      Paging { r with filters := c } counts (.ok (page, x)) →
        Labelling r.dialect rows r.labels r.lookups labels (.error e) →
          Protocol r options counts [⟨x, .ok rows⟩] labels (.error e)
  | shown {options counts labels : List Exchange} {c : Filter.Collection} {page : Option PageInfo}
    {x : Statement} {rows : List Row} {found : Field.Labels} :
    Asked r.filters.optionStatements options (.ok ()) → r.filters.LoadedInto c →
      Paging { r with filters := c } counts (.ok (page, x)) →
        Labelling r.dialect rows r.labels r.lookups labels (.ok found) →
          Protocol r options counts [⟨x, .ok rows⟩] labels
            (.ok ((rows.mapM (showRow { labels := found, clock := r.clock } r.displayFields)).map
              fun shown => { rows := shown, page }))

variable {α : Type}

theorem quiet_buildQuery (r : Request) : r.buildQuery.Quiet := by
  refine (Action.Quiet.draw _).bind fun sql => ?_
  split
  · exact .throw trivial
  · refine (Action.Obeys.logAll _).bind fun _ => (Action.Quiet.draw _).bind fun _ => ?_
    exact (Action.Obeys.log _).bind fun _ => .pure _

theorem error_of_orUnavailable {x : Action α} {s s' : Session} {e : Error}
    (h : orUnavailable x s = (.error e, s')) :
    ∃ cause s'', x s = (.error cause, s'') ∧ e = cause.asUnavailable := by
  rcases outcome : x s with ⟨cause | a, s''⟩
  · refine ⟨cause, s'', rfl, ?_⟩
    rw [orUnavailable, Effect.bind_ok _ (Sql.attempt_eq outcome)] at h
    by_cases fault : cause.isFault = true
    · cases cause <;> simp only [fault, Bool.not_true, Bool.false_eq_true, if_false] at h <;>
        exact (Except.error.inj (congrArg Prod.fst h)).symm
    · cases cause <;> simp only [fault, Bool.not_false, if_true] at h <;>
        exact (Except.error.inj (congrArg Prod.fst h)).symm
  · rw [orUnavailable, Effect.bind_ok _ (Sql.attempt_eq outcome)] at h
    cases h

theorem getQuery_silent (r : Request) (s : Session) :
    s.Silent (getQuery r s).2 ∧
      ∀ q, (getQuery r s).1.1 = .ok q → (getQuery r s).1.2 = { r with query := some q } := by
  have quiet := (obeys_orUnavailable (fun _ => trivial) (quiet_buildQuery r) s).1
  rcases getQuery_cases r s with ⟨q, held, there⟩ |
    ⟨-, ⟨q, s', outcome, built⟩ | ⟨e, s', outcome, failed⟩⟩
  · rw [there]
    refine ⟨.refl s, fun q' same => ?_⟩
    obtain rfl : q = q' := Except.ok.inj same
    rw [← held]
  · rw [outcome] at quiet
    rw [built]
    refine ⟨quiet, fun q' same => ?_⟩
    obtain rfl : q = q' := Except.ok.inj same
    rfl
  · rw [outcome] at quiet
    rw [failed]
    exact ⟨quiet, fun q never => nomatch never⟩

theorem shownPage_of_whole {r : Request} (whole : r.layout.isPaginated = false) (s : Session) :
    shownPage r r s = ((.ok none, r), s) := by
  rw [shownPage, whole]
  rfl

theorem shownPage_of_paginated {r : Request} (paginated : r.layout.isPaginated = true)
    (s : Session) :
    ∃ s₀, s.Silent s₀ ∧ shownPage r r s = (count true >>= fun total =>
      pure (some ((Paginator.new r.perPage).paginate r.page total))) r s₀ := by
  refine ⟨{ s with events := s.events ++ r.perPageEvents }, ⟨rfl, rfl⟩, ?_⟩
  have log : act (logAll r.perPageEvents) r s =
    ((.ok (), r), { s with events := s.events ++ r.perPageEvents }) := rfl
  rw [shownPage, if_pos paginated, map_eq_pure_bind, pageInfo, bind_assoc,
    bind_ok _ (rfl : current r s = _), bind_assoc, bind_ok _ log, bind_assoc]
  simp only [pure_bind]

theorem count_error {r r' : Request} {s s' : Session} {e : Error} (unique : Bool)
    (got : getQuery r s = ((.error e, r'), s')) : count unique r s = ((.error e, r'), s') := by
  rw [count, bind_error _ got]

theorem count_counting {r : Request} {q : Query} (held : r.query = some q) (unique : Bool)
    (s : Session) :
    ∃ xs result, s.Converses r.storage xs (count unique r s).2 ∧
      Counting r.dialect q unique r.counts s.drawn xs result ∧
        match result with
        | .error e => (count unique r s).1 = (.error e, r)
        | .ok (total, counts) => (count unique r s).1 = (.ok total, { r with counts }) := by
  obtain ⟨xs, converses, counting⟩ := Sql.executeCount_counting r.storage q unique r.counts s
  rw [count, bind_ok _ (getQuery_of_held held s), bind_ok _ (rfl : current r s = _)]
  rcases counted : Sql.executeCount r.storage q unique r.counts s
    with ⟨e | ⟨total, counts⟩, s'⟩
  · rw [counted] at converses counting
    rw [bind_error _ (act_eq counted r)]
    exact ⟨xs, _, converses, counting, rfl⟩
  · rw [counted] at converses counting
    rw [bind_ok _ (act_eq counted r)]
    exact ⟨xs, _, converses, counting, rfl⟩

theorem bind_getQuery {r r' : Request} {q : Query} {s s' : Session} (f : Query → RequestAction α)
    (got : getQuery r s = ((.ok q, r'), s')) : (getQuery >>= f) r s = (getQuery >>= f) r' s' := by
  rw [bind_ok f got, bind_ok f (getQuery_of_held (query_of_getQuery got) s')]

theorem Gives.kept_or_built {r : Request} {q : Query} (gives : r.Gives q) :
    r.query = some q ∨ ∃ s s', r.buildQuery s = (.ok q, s') := by
  obtain ⟨s, r', s', got⟩ := gives
  rcases getQuery_cases r s with ⟨q', held, there⟩ |
    ⟨-, ⟨q', s'', outcome, built⟩ | ⟨e, s'', -, failed⟩⟩
  · rw [there] at got
    cases got
    exact .inl held
  · rw [built] at got
    cases got
    exact .inr ⟨s, _, ok_of_orUnavailable outcome⟩
  · rw [failed] at got
    cases got

theorem paging_rendered {r r' : Request} {q : Query} {xs : List Exchange} {page : Option PageInfo}
    (gives : r.Gives q) (counted : r.Counted q xs page) (held : r'.query = some q) (s : Session) :
    let f := getQuery >>= fun q =>
      act (orUnavailable (Session.draw ((atPage q page).render r.dialect))) >>=
        fun x => pure (page, x)
    s.Silent (f r' s).2 ∧ (f r' s).1.2 = r' ∧ Paging r xs (f r' s).1.1 := by
  intro f
  have quiet := (obeys_orUnavailable (fun _ => trivial)
    (Action.Quiet.draw ((atPage q page).render r.dialect)) s).1
  have start : f r' s = (act (orUnavailable (Session.draw ((atPage q page).render r.dialect))) >>=
      fun x => pure (page, x)) r' s := bind_ok _ (getQuery_of_held held s)
  rw [start]
  rcases rendered : orUnavailable (Session.draw ((atPage q page).render r.dialect)) s
    with ⟨e | x, s'⟩
  · rw [rendered] at quiet
    rw [bind_error _ (act_eq rendered r')]
    obtain ⟨cause, s'', drawn, rfl⟩ := error_of_orUnavailable rendered
    rcases whole : (atPage q page).render r.dialect s.drawn with ⟨y, m⟩
    rw [Sql.draw_eq whole] at drawn
    cases drawn
    exact ⟨quiet, rfl, .unrendered gives counted whole⟩
  · rw [rendered] at quiet
    rw [bind_ok _ (act_eq rendered r')]
    obtain ⟨m, whole⟩ := draw_of_orUnavailable rendered
    exact ⟨quiet, rfl, .rendered gives counted whole⟩

theorem paging_ask_whole {r : Request} (whole : r.layout.isPaginated = false) (s : Session) :
    ∃ xs, s.Converses r.storage xs (ask r r s).2 ∧ Paging r xs (ask r r s).1.1 ∧
      ∃ q counts, (ask r r s).1.1.isOk → (ask r r s).1.2 = { r with query := q, counts } := by
  obtain ⟨silent, same⟩ := getQuery_silent r s
  rw [ask, bind_ok _ (shownPage_of_whole whole s)]
  rcases got : getQuery r s with ⟨⟨e | q, r'⟩, s'⟩
  · rw [got] at silent
    rw [bind_error _ got]
    exact ⟨[], .of_silent silent, .unassembled got, none, r.counts,
      fun never => absurd never Bool.false_ne_true⟩
  · rw [got] at silent same
    obtain rfl : r' = { r with query := some q } := same q rfl
    obtain ⟨silent', same', paging⟩ :=
      paging_rendered ⟨s, _, s', got⟩ (.whole whole) (query_of_getQuery got) s'
    rw [bind_getQuery _ got]
    exact ⟨[], .of_silent (silent.trans silent'), paging, some q, r.counts, fun _ => same'⟩

theorem paging_ask_paginated {r : Request} (paginated : r.layout.isPaginated = true)
    (s : Session) :
    ∃ xs, s.Converses r.storage xs (ask r r s).2 ∧ Paging r xs (ask r r s).1.1 ∧
      ∃ q counts, (ask r r s).1.1.isOk → (ask r r s).1.2 = { r with query := q, counts } := by
  obtain ⟨s₀, silent₀, start⟩ := shownPage_of_paginated paginated s
  obtain ⟨silent, same⟩ := getQuery_silent r s₀
  rw [ask]
  rcases got : getQuery r s₀ with ⟨⟨e | q, r'⟩, s'⟩
  · rw [got] at silent
    have failed : shownPage r r s = ((.error e, r'), s') := by
      rw [start, bind_error _ (count_error true got)]
    rw [bind_error _ failed]
    exact ⟨[], .of_silent (silent₀.trans silent), .unassembled got, none, r.counts,
      fun never => absurd never Bool.false_ne_true⟩
  · rw [got] at silent same
    obtain rfl : r' = { r with query := some q } := same q rfl
    have gives : r.Gives q := ⟨s₀, _, s', got⟩
    have early := silent₀.trans silent
    obtain ⟨xs, result, converses, counting, outcome⟩ :=
      count_counting (query_of_getQuery got) true s'
    rw [count, ← bind_getQuery _ got, ← count] at converses outcome
    rcases counted : count true r s₀ with ⟨⟨e | total, r'⟩, s''⟩
    · rw [counted] at converses outcome
      cases result with
      | ok x => cases outcome
      | error e' =>
        obtain rfl : e = e' := Except.error.inj (congrArg Prod.fst outcome)
        have failed : shownPage r r s = ((.error e, r'), s'') := by
          rw [start, bind_error _ counted]
        rw [bind_error _ failed]
        exact ⟨xs, converses.before early, .uncounted gives paginated counting, none, r.counts,
          fun never => absurd never Bool.false_ne_true⟩
    · rw [counted] at converses outcome
      cases result with
      | error e => cases outcome
      | ok x =>
        obtain ⟨total', counts⟩ := x
        obtain rfl : total = total' := Except.ok.inj (congrArg Prod.fst outcome)
        obtain rfl : r' = { r with query := some q, counts } := congrArg Prod.snd outcome
        have done : shownPage r r s =
            ((.ok (some ((Paginator.new r.perPage).paginate r.page total)),
              { r with query := some q, counts }), s'') := by
          rw [start, bind_ok _ counted]
          rfl
        obtain ⟨silent', same', paging⟩ :=
          paging_rendered gives (.page paginated counting)
            (rfl : ({ r with query := some q, counts } : Request).query = some q) s''
        rw [bind_ok _ done]
        exact ⟨xs, (converses.before early).after silent', paging, some q, counts,
          fun _ => same'⟩

/-- From loaded options to the statement only counts are asked. The layout and the dialect do not
depend on the filters. -/
theorem paging_ask_loaded (r : Request) (c : Filter.Collection) (s : Session) :
    let loaded := { r with filters := c }
    ∃ xs, s.Converses r.storage xs (ask r loaded s).2 ∧ Paging loaded xs (ask r loaded s).1.1 ∧
      ∃ query counts, (ask r loaded s).1.1.isOk →
        (ask r loaded s).1.2 = { r with filters := c, query, counts } := by
  cases paginated : r.layout.isPaginated with
  | false => exact paging_ask_whole (r := { r with filters := c }) paginated s
  | true => exact paging_ask_paginated (r := { r with filters := c }) paginated s

/-- From the statement on, the rows are asked for, and then their labels. -/
theorem converses_present {r r' : Request} {options counts : List Exchange} {c : Filter.Collection}
    {page : Option PageInfo} {x : Statement}
    (asked : Asked r.filters.optionStatements options (.ok ())) (loaded : r.filters.LoadedInto c)
    (paging : Paging { r with filters := c } counts (.ok (page, x))) (labels : r'.labels = r.labels)
    (storage : r'.storage = r.storage) (clock : r'.clock = r.clock) (s : Session) :
    ∃ data labelling, s.Converses r.storage (data ++ labelling) (present r page x r' s).2 ∧
      Protocol r options counts data labelling (present r page x r' s).1.1 := by
  rcases fetched : r.storage.fetch x s with ⟨e | rows, s₁⟩
  · rw [present, bind_error _ (act_eq fetched r')]
    exact ⟨_, [], (List.append_nil _).symm ▸ Action.converses_of_fetch fetched,
      .unanswered asked loaded paging⟩
  · have first := Action.converses_of_fetch fetched
    rw [present, bind_ok _ (act_eq fetched r'), display]
    obtain ⟨xs, result, converses, labelling, outcome⟩ :=
      loads_labels rows r.displayFields r' s₁
    have dialect : r'.dialect = r.dialect := congrArg Storage.dialect storage
    rw [labels, dialect] at labelling
    rw [storage] at converses
    rcases prefetched : prefetchLabels rows r.displayFields r' s₁
      with ⟨⟨e | _, r₂⟩, s₂⟩
    · rw [prefetched] at converses outcome
      rw [bind_error _ prefetched]
      cases result with
      | ok found => cases outcome
      | error e' =>
        obtain rfl : e = e' := Except.error.inj outcome
        exact ⟨_, xs, first.trans converses, .unlabelled asked loaded paging labelling⟩
    · rw [prefetched] at converses outcome
      rw [bind_ok _ prefetched, bind_ok _ (rfl : current r₂ s₂ = _)]
      cases result with
      | error e => cases outcome
      | ok found =>
        obtain rfl : r₂ = { r' with labels := found } := congrArg Prod.snd outcome
        have final := Protocol.shown asked loaded paging labelling
        have both := first.trans converses
        dsimp only
        rw [clock]
        cases shown : rows.mapM (showRow { labels := found, clock := r.clock } r.displayFields) with
        | none =>
          rw [shown] at final
          exact ⟨_, xs, both, final⟩
        | some shown' =>
          rw [shown] at final
          exact ⟨_, xs, both.after ⟨rfl, rfl⟩, final⟩

theorem converses_getData {r : Request} (configured : r.preferences.isSome = true) (s : Session) :
    ∃ options counts data labels,
      s.Converses r.storage (options ++ counts ++ (data ++ labels)) (getData r s).2 ∧
        Protocol r options counts data labels (getData r s).1.1 := by
  obtain ⟨options, converses, asked⟩ := Filter.Collection.asked_init r.filters r.storage s
  obtain ⟨-, loaded⟩ := Filter.Collection.init_loadedInto r.filters r.storage s
  rw [getData_eq configured, dataStatement, bind_assoc,
    bind_ok _ (rfl : current r s = _), bind_assoc]
  rcases outcome : r.filters.init r.storage s with ⟨⟨e | _, c⟩, s₁⟩
  · rw [outcome] at converses asked
    rw [bind_error _ (init_eq outcome)]
    refine ⟨options, [], [], [], ?_, .unloaded asked⟩
    simpa using converses
  · rw [outcome] at converses asked loaded
    rw [bind_ok _ (init_eq outcome)]
    obtain ⟨counts, converses', paging, q, memo, same⟩ := paging_ask_loaded r c s₁
    have both := converses.trans converses'
    rcases statement : ask r { r with filters := c } s₁
      with ⟨⟨e | ⟨page, x⟩, r₂⟩, s₂⟩
    · rw [statement] at both paging
      rw [bind_error _ statement]
      refine ⟨options, counts, [], [], ?_, .unpaged asked loaded paging⟩
      simpa using both
    · rw [statement] at both paging same
      rw [bind_ok _ statement]
      have same : r₂ = _ := same rfl
      obtain ⟨data, labels, rest, protocol⟩ := converses_present asked loaded paging
        (show r₂.labels = r.labels by rw [same]) (by rw [same]) (by rw [same]) s₂
      exact ⟨options, counts, data, labels, both.trans rest, protocol⟩

/-- What a report asks and how it ends. Without preferences it asks nothing and shows nothing; with
them it asks what the protocol says and nothing else. -/
theorem getData_protocol (r : Request) (s : Session) :
    match r.preferences with
    | none => getData r s =
        ((.ok (some {}), r), { s with events := s.events ++ [.notConfigured r.report.name] })
    | some _ => ∃ options counts data labels,
        s.Converses r.storage (options ++ counts ++ (data ++ labels)) (getData r s).2 ∧
          Protocol r options counts data labels (getData r s).1.1 := by
  cases preferences : r.preferences with
  | none =>
    dsimp only
    rw [getData, bind_ok _ (rfl : current r s = _), preferences]
    rfl
  | some p => exact converses_getData (by rw [preferences]; rfl) s

end Request

end Reports
