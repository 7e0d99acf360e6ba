import Reports.Proofs.Report.Protocol
import Reports.Proofs.Sql.Renderable

/-! How a report fails. What is wrong with its query is wrapped; a placeholder without a value and a
lookup with an unsafe name are found later, and their errors come out as they are. -/
namespace Reports

open Sql (Query Statement Dialect)
open Reports.Field (Lookup Labels Labelling)

/-- The errors that a report is meant to fail with. -/
def Error.Reported (e : Error) : Prop :=
  (∃ cause, e = .unavailable cause) ∨ ∃ reason sql params, e = .execution reason sql params

theorem Error.reported_asUnavailable (cause : Error) : cause.asUnavailable.Reported := by
  cases cause <;> exact .inl ⟨_, rfl⟩

theorem Sql.Binding.error_of_resolve {d : Dialect} {params : Params} {seen : List (String × Json)}
    {ts : List Token} {e : Error} (failed : resolve d params seen ts = .error e) :
    ∃ name, e = .configuration (.unboundParameter name) := by
  have later {x : Except Error Bound} {f : Bound → Bound}
    (h : (x >>= fun b => pure (f b)) = .error e) :
      x = .error e := by
    cases x with
    | error e' => exact h
    | ok b => cases h
  induction ts generalizing seen with
  | nil => cases failed
  | cons t rest ih =>
    cases t with
    | char c => exact ih (later failed)
    | parameter chars =>
      rw [resolve] at failed
      split at failed
      · exact ih (later failed)
      · split at failed
        · cases failed
          exact ⟨_, rfl⟩
        · exact ih (later failed)

theorem Storage.error_of_reply {st : Storage} {n : Nat} {x : Statement} {e : Error}
    (failed : st.reply n x = .error e) :
    (∃ name, e = .configuration (.unboundParameter name) ∧ x.bind st.dialect = .error e) ∨
      ∃ reason bound, e = .execution reason x.sql x.params ∧ x.bind st.dialect = .ok bound ∧
        st.answer n bound = .error reason := by
  rw [reply] at failed
  cases bound : x.bind st.dialect with
  | error e' =>
    rw [bound] at failed
    cases failed
    obtain ⟨name, rfl⟩ := Sql.Binding.error_of_resolve bound
    exact .inl ⟨name, rfl, rfl⟩
  | ok b =>
    rw [bound] at failed
    dsimp only at failed
    split at failed
    · cases failed
    · next reason refused =>
      cases failed
      exact .inr ⟨reason, b, rfl, rfl, refused⟩

theorem Storage.reply_of_mem {st : Storage} {n : Nat} {xs : List Exchange} {x : Exchange}
    (answered : st.Answered n xs) (mem : x ∈ xs) : ∃ m, x.reply = st.reply m x.statement := by
  induction xs generalizing n with
  | nil => cases mem
  | cons y rest ih =>
    rcases List.mem_cons.mp mem with rfl | mem
    · exact ⟨n, answered.1⟩
    · exact ih answered.2 mem

theorem Session.Converses.bound {st : Storage} {s s' : Session} {xs : List Exchange}
    (converses : s.Converses st xs s') (bound : ∀ c ∈ s'.calls, c.bound.isSome = true)
    {x : Exchange}
    (mem : x ∈ xs) : ∃ b, x.statement.bind st.dialect = .ok b := by
  have there : st.call x.statement ∈ s'.calls := by
    rw [converses.calls]
    exact List.mem_append_right _ (List.mem_map.mpr ⟨x, mem, rfl⟩)
  have some := bound _ there
  rw [Storage.call] at some
  cases binds : x.statement.bind st.dialect with
  | ok b => exact ⟨b, rfl⟩
  | error e =>
    rw [binds] at some
    cases some

namespace Field

theorem Lookup.error_of_check {l : Lookup} {e : Error} (failed : l.check = .error e) :
    ∃ text, e = .configuration (.unsafeIdentifier text) := by
  rw [check] at failed
  split at failed
  · cases failed
    exact ⟨_, rfl⟩
  · cases failed

theorem Lookup.renders_query (l : Lookup) (d : Dialect) {ids : List String} (some : ids ≠ []) :
    (l.query d ids).Renders d := by
  obtain ⟨id, rest, rfl⟩ := List.exists_cons_of_ne_nil some
  exact ⟨⟨_, rfl⟩, trivial⟩

theorem Lookup.error_of_query {l : Lookup} {d : Dialect} {ids : List String} {n m : Nat} {e : Error}
    (failed : (l.query d ids).render d n = (.error e, m)) : e.isValidation = true := by
  cases ids with
  | nil =>
    cases failed
    rfl
  | cons id rest => exact absurd failed (l.renders_query d (List.cons_ne_nil id rest)).not_error

theorem Labelling.error_inv {d : Dialect} {rows : List Row} {ls : Labels}
    {ps : List (String × Lookup)} {xs : List Exchange} {e : Error}
    (labelling : Labelling d rows ls ps xs (.error e)) :
    (∃ p ∈ ps, p.2.check = .error e) ∨ e.isValidation = true ∨
    ∃ x ∈ xs, x.reply = .error e := by
  generalize same : Except.error e = result at labelling
  induction labelling with
  | nil => cases same
  | known _ _ ih =>
    rcases ih same with ⟨p, mem, failed⟩ | refused | replied
    · exact .inl ⟨p, List.mem_cons_of_mem _ mem, failed⟩
    · exact .inr (.inl refused)
    · exact .inr (.inr replied)
  | refused why =>
    cases same
    rcases why with failed | ⟨missing, n, m, failed⟩
    · exact .inl ⟨_, List.mem_cons_self, failed⟩
    · exact .inr (.inl (Lookup.error_of_query failed))
  | failed _ =>
    cases same
    exact .inr (.inr ⟨_, List.mem_cons_self, rfl⟩)
  | answered _ _ ih =>
    rcases ih same with ⟨p, mem, failed⟩ | refused | ⟨x, mem, failed⟩
    · exact .inl ⟨p, List.mem_cons_of_mem _ mem, failed⟩
    · exact .inr (.inl refused)
    · exact .inr (.inr ⟨x, List.mem_cons_of_mem _ mem, failed⟩)

end Field

def Session.Rule.lenient : Session.Rule where
  Goes _ _ := True
  Fails e := e.isValidation = false
  refl _ := trivial
  trans _ _ := trivial
  heard _ _ := trivial

namespace Action

/-- No value is refused. -/
abbrev Lenient {α : Type} (x : Action α) : Prop := x.Obeys .lenient

namespace Lenient

theorem render {q : Query} {d : Dialect} (renders : q.Renders d) :
    Lenient (Session.draw (q.render d)) := by
  refine fun s => ⟨trivial, fun e failed => ?_⟩
  obtain ⟨x, m, rendered⟩ := renders.render s.drawn
  rw [Sql.draw_eq rendered] at failed
  cases failed

theorem fetch (st : Storage) (x : Statement) : Lenient (st.fetch x) := by
  refine fun s => ⟨trivial, fun e failed => ?_⟩
  rcases fetched : st.fetch x s with ⟨reply, s'⟩
  rw [fetched] at failed
  cases failed
  have replied : st.reply s.served x = .error e := (converses_of_fetch fetched).answered.1.symm
  rcases Storage.error_of_reply replied with ⟨name, rfl, -⟩ |
    ⟨reason, bound, rfl, -, -⟩ <;> rfl

theorem prefetch (ls : Labels) (st : Storage) (l : Lookup) (ids : List String) :
    Lenient (ls.prefetch st l ids) := by
  refine Obeys.prefetch (fun e failed => ?_) (fun ids some => ?_) (fetch st)
  · obtain ⟨text, rfl⟩ := Lookup.error_of_check failed
    rfl
  · exact render (l.renders_query st.dialect some)

end Lenient

end Action

namespace Request

def Lenient {α : Type} (x : RequestAction α) : Prop :=
  ∀ r s e, (x r s).1.1 = .error e → e.isValidation = false

namespace Lenient

variable {α β : Type}

theorem pure (a : α) : Lenient (pure a : RequestAction α) := fun _ _ _ never => nomatch never

theorem bind {x : RequestAction α} {f : α → RequestAction β} (hx : Lenient x)
    (hf : ∀ a, Lenient (f a)) : Lenient (x >>= f) := by
  intro r s e failed
  rcases outcome : x r s with ⟨⟨e' | a, r'⟩, s'⟩
  · rw [bind_error f outcome] at failed
    cases failed
    exact hx r s e (by rw [outcome])
  · rw [bind_ok f outcome] at failed
    exact hf a r' s' e failed

theorem act {x : Action α} (hx : x.Lenient) : Lenient (act x) := fun _ s => (hx s).2

theorem prefetchLabels (rows : List Row) (fs : List Field) : Lenient (prefetchLabels rows fs) := by
  have one (name : String) (a : Field.Attribute) : Lenient (prefetchAttribute name rows a) := by
    unfold prefetchAttribute
    split
    · exact pure ()
    · dsimp only
      split
      · exact pure ()
      · refine Lenient.bind (fun _ _ _ never => nomatch never) fun r => ?_
        exact (act (Action.Lenient.prefetch _ _ _ _)).bind fun _ _ _ _ never => nomatch never
  have all (name : String) (as : List Field.Attribute) :
      Lenient (prefetchAttributes name rows as) := by
    induction as with
    | nil => exact pure ()
    | cons a rest ih => exact (one name a).bind fun _ => ih
  induction fs with
  | nil => exact pure ()
  | cons f rest ih => exact (all f.name f.attributes).bind fun _ => ih

end Lenient

/-- How a report fails, with the statements that it has asked. -/
inductive Failure (r : Request) (asked : List Exchange) : Error → Prop
  | unassembled {c : Filter.Collection} {s s' : Session} {cause : Error} :
    r.query = none → r.filters.LoadedInto c →
      ({ r with filters := c }).buildQuery s = (.error cause, s') →
      Failure r asked cause.asUnavailable
  | unanswered {x : Exchange} {n : Nat} {bound : Sql.Bound} {reason : String} :
    x ∈ asked → x.statement.bind r.dialect = .ok bound →
      r.storage.answer n bound = .error reason →
      Failure r asked (.execution reason x.statement.sql x.statement.params)
  | unbound {x : Exchange} {name : String} :
    x ∈ asked → x.statement.bind r.dialect = .error
      (.configuration (.unboundParameter name)) →
      Failure r asked (.configuration (.unboundParameter name))
  | misdirected {p : String × Lookup} {text : String} :
    p ∈ r.lookups → p.2.check = .error (.configuration (.unsafeIdentifier text)) →
      Failure r asked (.configuration (.unsafeIdentifier text))

variable {r : Request} {asked xs ys zs : List Exchange} {e : Error}

theorem Failure.of_reply {n : Nat} (answered : r.storage.Answered n asked) {x : Exchange}
    (mem : x ∈ asked) (failed : x.reply = .error e) : r.Failure asked e := by
  obtain ⟨m, replied⟩ := Storage.reply_of_mem answered mem
  rcases Storage.error_of_reply (replied.symm.trans failed) with
    ⟨name, rfl, bound⟩ | ⟨reason, bound, rfl, binds, refused⟩
  · exact .unbound mem bound
  · exact .unanswered mem binds refused

/-- Of statements that bind and lookups that are safe nothing but a reported error comes. -/
theorem Failure.reported (failure : r.Failure asked e)
    (bind : ∀ x ∈ asked, ∃ bound, x.statement.bind r.dialect = .ok bound)
    (safe : ∀ p ∈ r.lookups, p.2.check = .ok ()) : e.Reported := by
  cases failure with
  | unassembled _ _ _ => exact Error.reported_asUnavailable _
  | unanswered _ _ _ => exact .inr ⟨_, _, _, rfl⟩
  | unbound mem failed =>
    obtain ⟨bound, binds⟩ := bind _ mem
    cases failed.symm.trans binds
  | misdirected mem failed => cases failed.symm.trans (safe _ mem)

theorem reply_of_asked {xs : List Statement} (options : Asked xs asked (.error e)) :
    ∃ x ∈ asked, x.reply = .error e := by
  generalize same : Except.error e = result at options
  induction options with
  | nil => cases same
  | failed =>
    cases same
    exact ⟨_, List.mem_cons_self, rfl⟩
  | answered _ ih =>
    obtain ⟨x, mem, failed⟩ := ih same
    exact ⟨x, List.mem_cons_of_mem _ mem, failed⟩

theorem renders_atPage {d : Dialect} {q : Query} (renders : q.Renders d) (page : Option PageInfo) :
    (atPage q page).Renders d := by
  cases page <;> exact renders

theorem renders_of_buildQuery {q : Query} {s s' : Session} (built : r.buildQuery s = (.ok q, s')) :
    q.Renders r.dialect := by
  obtain ⟨x, m, q₀, whole, -, -, -, rendered⟩ := render_of_buildQuery built
  exact Query.renders_of_render rendered

theorem renders_of_gives (held : ∀ q, r.query = some q → q.Renders r.dialect) {q : Query}
    (gives : r.Gives q) : q.Renders r.dialect := by
  rcases gives.kept_or_built with there | ⟨s, s', built⟩
  · exact held q there
  · exact renders_of_buildQuery built

theorem Trace.Kept.renders {n : Nat} {t : Trace} (kept : t.Kept n) {q : Query}
    (held : t.request.query = some q) : q.Renders t.request.dialect := by
  obtain ⟨before, after, holds⟩ := kept.query q held
  exact renders_of_buildQuery (r := t.origin) holds.built

theorem failure_of_paging {c : Filter.Collection} {counts : List Exchange}
    (held : ∀ q, r.query = some q → q.Renders r.dialect) (loaded : r.filters.LoadedInto c)
    (paging : Paging { r with filters := c } counts (.error e)) :
    r.Failure asked e ∨ ∃ x ∈ counts, x.reply = .error e := by
  generalize result :
    (Except.error e : Except Error (Option PageInfo × Statement)) = outcome at paging
  cases paging with
  | @unassembled s _ _ _ got =>
    cases result
    rcases getQuery_cases { r with filters := c } s with ⟨q, -, there⟩ |
      ⟨none, ⟨q, s', -, built⟩ | ⟨e', s', outcome, refused⟩⟩
    · rw [there] at got
      cases got
    · rw [built] at got
      cases got
    · rw [refused] at got
      cases got
      obtain ⟨cause, s₀, failed, rfl⟩ := error_of_orUnavailable outcome
      exact .inl (.unassembled none loaded failed)
  | uncounted gives _ counting =>
    cases result
    exact .inr
      (counting.reply_of_error (renders_of_gives (r := { r with filters := c }) held gives))
  | unrendered gives _ failed =>
    have renders := renders_of_gives (r := { r with filters := c }) held gives
    exact absurd failed (renders_atPage renders _).not_error
  | rendered => cases result

theorem failure_of_present {r' : Request} {page : Option PageInfo} {x : Statement} {s : Session}
    (storage : r'.storage = r.storage) (failed : (present r page x r' s).1.1 = .error e) :
    ∃ xs, s.Converses r.storage xs (present r page x r' s).2 ∧
      ((∃ p ∈ r.lookups, p.2.check = .error e) ∨ ∃ y ∈ xs, y.reply = .error e) := by
  rcases fetched : r.storage.fetch x s with ⟨e' | rows, s₁⟩
  · rw [present, bind_error _ (act_eq fetched r')] at failed ⊢
    cases failed
    exact ⟨_, Action.converses_of_fetch fetched, .inr ⟨_, List.mem_cons_self, rfl⟩⟩
  · have first := Action.converses_of_fetch fetched
    obtain ⟨xs, result, converses, labelling, outcome⟩ :=
      loads_labels rows r.displayFields r' s₁
    have lenient := Lenient.prefetchLabels rows r.displayFields r' s₁
    rw [present, bind_ok _ (act_eq fetched r'), display] at failed ⊢
    rw [storage] at converses
    rcases prefetched : prefetchLabels rows r.displayFields r' s₁
      with ⟨⟨e' | _, r₂⟩, s₂⟩
    · rw [prefetched] at converses outcome lenient
      rw [bind_error _ prefetched] at failed ⊢
      cases failed
      cases result with
      | ok found => cases outcome
      | error e' =>
        obtain rfl : e = e' := Except.error.inj outcome
        refine ⟨_, first.trans converses, ?_⟩
        rcases labelling.error_inv with unsafely | refused | ⟨y, mem, replied⟩
        · exact .inl unsafely
        · rw [lenient e rfl] at refused
          cases refused
        · exact .inr ⟨y, List.mem_append_right _ mem, replied⟩
    · rw [bind_ok _ prefetched, bind_ok _ (rfl : current r₂ s₂ = _)] at failed
      cases shown : rows.mapM
        (showRow { labels := r₂.labels, clock := r₂.clock } r.displayFields) <;>
        rw [shown] at failed <;> cases failed

theorem failure_of_getData (configured : r.preferences.isSome = true)
    (held : ∀ q, r.query = some q → q.Renders r.dialect) {s : Session}
    (failed : (getData r s).1.1 = .error e) :
    ∃ asked, s.Converses r.storage asked (getData r s).2 ∧ r.Failure asked e := by
  obtain ⟨options, converses, asked⟩ := Filter.Collection.asked_init r.filters r.storage s
  obtain ⟨-, loaded⟩ := Filter.Collection.init_loadedInto r.filters r.storage s
  rw [getData_eq configured, dataStatement, bind_assoc, bind_ok _ (rfl : current r s = _),
    bind_assoc] at failed ⊢
  rcases outcome : r.filters.init r.storage s with ⟨⟨e' | _, c⟩, s₁⟩
  · rw [outcome] at converses asked
    rw [bind_error _ (init_eq outcome)] at failed ⊢
    cases failed
    obtain ⟨x, mem, replied⟩ := reply_of_asked asked
    exact ⟨options, converses, .of_reply converses.answered mem replied⟩
  · rw [outcome] at converses loaded
    rw [bind_ok _ (init_eq outcome)] at failed ⊢
    obtain ⟨counts, converses', paging, q, memo, same⟩ := paging_ask_loaded r c s₁
    have both := converses.trans converses'
    rcases statement : ask r { r with filters := c } s₁
      with ⟨⟨e' | ⟨page, x⟩, r₂⟩, s₂⟩
    · rw [statement] at both paging
      rw [bind_error _ statement] at failed ⊢
      cases failed
      refine ⟨_, both, ?_⟩
      rcases failure_of_paging held loaded paging with failure | ⟨x, mem, replied⟩
      · exact failure
      · exact .of_reply both.answered (List.mem_append_right _ mem) replied
    · rw [statement] at both same
      rw [bind_ok _ statement] at failed ⊢
      have same : r₂ = _ := same rfl
      obtain ⟨xs, rest, why⟩ := failure_of_present (by rw [same]) failed
      refine ⟨_, both.trans rest, ?_⟩
      rcases why with ⟨p, mem, unsafely⟩ | ⟨y, mem, replied⟩
      · obtain ⟨text, rfl⟩ := Lookup.error_of_check unsafely
        exact .misdirected mem unsafely
      · exact .of_reply (both.trans rest).answered (List.mem_append_right _ mem) replied

/-- In every run, a report fails because its query cannot be put together, with what the storage
says, or because a statement lacks a value or a lookup is not safe. Only the last two are not
reported. -/
theorem getData_fails (report : Report) (storage : Storage) (context : Filter.Context) (clock : Int)
    {r : Request} (made : Request.new report storage context clock = .ok r) (s : Session)
    (ops : List Operation) {e : Error} :
    let t := (Trace.start r s).run ops
    (getData t.request t.session).1.1 = .error e →
      ∃ asked, t.session.Converses t.request.storage asked (getData t.request t.session).2 ∧
        t.request.Failure asked e ∧
        ((∀ x ∈ asked, ∃ bound, x.statement.bind t.request.dialect = .ok bound) →
          (∀ p ∈ t.request.lookups, p.2.check = .ok ()) → e.Reported) := by
  intro t failed
  have kept : t.Kept s.drawn := Trace.kept_run (Trace.kept_start (query_new made) s) ops
  have configured : t.request.preferences.isSome = true := by
    by_contra never
    have none : t.request.preferences.isNone = true := by simpa using never
    rw [getData, bind_ok _ (rfl : current t.request _ = _), if_pos none] at failed
    cases failed
  obtain ⟨asked, converses, failure⟩ :=
    failure_of_getData configured (fun _ held => kept.renders held) failed
  exact ⟨asked, converses, failure, failure.reported⟩

/-- Lists the options, and then nothing. -/
def outage : Storage where
  dialect := .sqlite
  answer := fun n _ => if n = 0 then .ok [.ofList [("id", .ofInt 7)]] else .error "gone"

def configured (r : Request) : Trace := (Trace.start r {}).run [.withPreferences {}]

def complaint {α : Type} : Except Error α → Option String
  | .error e => some e.message
  | .ok _ => none

theorem getData_fails_outage :
    ∃ r e asked, Request.new items outage { userId := 1 } 0 = .ok r ∧
      (getData (configured r).request (configured r).session).1.1 = .error e ∧
        e.message = "query execution failed: gone" ∧ (configured r).request.Failure asked e ∧
          e.Reported := by
  have facts : (Request.new items outage { userId := 1 } 0).toOption.map (fun r =>
      (complaint (getData (configured r).request (configured r).session).1.1,
        (getData (configured r).request (configured r).session).2.calls.all (·.bound.isSome),
        (configured r).request.lookups.length)) =
      some (some "query execution failed: gone", true, 0) := by
    decide +kernel
  rcases made : Request.new items outage { userId := 1 } 0 with e | r
  · rw [made] at facts
    cases facts
  · rw [made] at facts
    simp only [Except.toOption, Option.map_some, Option.some.injEq, Prod.mk.injEq] at facts
    obtain ⟨message, bound, unlinked⟩ := facts
    rcases failed : (getData (configured r).request (configured r).session).1.1 with e | shown
    · rw [failed] at message
      obtain ⟨asked, converses, failure, reported⟩ :=
        getData_fails items outage { userId := 1 } 0 made {} [.withPreferences {}] failed
      refine ⟨r, e, asked, rfl, failed, Option.some.inj message, failure, reported ?_ ?_⟩
      · exact fun x mem => converses.bound (List.all_eq_true.mp bound) mem
      · intro p mem
        change p ∈ (configured r).request.lookups at mem
        rw [List.length_eq_zero_iff.mp unlinked] at mem
        cases mem
    · rw [failed] at message
      cases message

/-- A lookup in a table whose name is not safe fails as it is, and is not wrapped. -/
example :
    let lookup := { table := "bad table", keyColumn := "id", labelColumn := "name" }
    let report :=
      { items with fields := items.fields.map (·.withAttribute (.linkedData lookup ", ")) }
    (Request.new report oneRow { userId := 1 } 0).toOption.bind (fun r =>
      complaint (getData (configured r).request (configured r).session).1.1) =
      some "configuration error: unsafe lookup identifier: bad table" := by
  decide +kernel

end Request

end Reports
