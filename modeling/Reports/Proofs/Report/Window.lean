import Reports.Proofs.Report.Protocol
import Reports.Proofs.Report.Tiling
import Reports.Proofs.Sql.Ending

/-! The page that a report says it shows is the part of the result that it asks for. -/
namespace Reports

open Sql (Query Statement window)

theorem Settings.clampPerPage_le (s : Settings) (requested : UInt32) :
    (s.clampPerPage requested).toNat ≤ max 1 s.maxPerPage.toNat := by
  have one : (1 : UInt32).toNat = 1 := rfl
  unfold clampPerPage
  split
  · omega
  · next fits =>
    have fits : requested.toNat ≤ s.maxPerPage.toNat :=
      UInt32.le_iff_toNat_le.mp (UInt32.not_lt.mp fits)
    rw [UInt32.toNat_max, one]
    omega

theorem Settings.clampPerPage_eq_zero {s : Settings} {requested : UInt32} :
    s.clampPerPage requested = 0 ↔ s.maxPerPage = 0 ∧ requested ≠ 0 := by
  have zero : (0 : UInt32).toNat = 0 := rfl
  have one : (1 : UInt32).toNat = 1 := rfl
  unfold clampPerPage
  split
  · next above =>
    have above := UInt32.lt_iff_toNat_lt.mp above
    refine ⟨fun none => ⟨none, fun never => ?_⟩, And.left⟩
    rw [never, zero] at above
    omega
  · next fits =>
    have fits := UInt32.le_iff_toNat_le.mp (UInt32.not_lt.mp fits)
    constructor
    · intro none
      have none := congrArg UInt32.toNat none
      rw [UInt32.toNat_max, one, zero] at none
      omega
    · rintro ⟨none, some⟩
      refine absurd ?_ some
      rw [none, zero] at fits
      rw [← UInt32.toNat_inj, zero]
      omega

namespace Request

theorem limit_of_base {r : Request} {q : Query} (paginated : r.layout.isPaginated = true)
    (base : r.base = .ok q) : q.limit = r.perPage.toUInt64 := by
  rw [Request.base, arrange] at base
  cases parts : identityParts (r.fields.filter (·.isIdentifier)) with
  | error e =>
    rw [parts] at base
    cases base
  | ok parts' =>
    rw [parts] at base
    simp only [bind, Except.bind, paginated, if_true] at base
    cases base
    rfl

theorem limit_of_buildQuery {r : Request} {q : Query} {s s' : Session}
    (paginated : r.layout.isPaginated = true) (built : r.buildQuery s = (.ok q, s')) :
    q.limit = r.perPage.toUInt64 := by
  obtain ⟨x, m, q₀, whole, -, base, rfl, -⟩ := render_of_buildQuery built
  have limit : q₀.limit = r.perPage.toUInt64 := limit_of_base paginated base
  exact limit

theorem limit_of_gives {r : Request} {q : Query} (paginated : r.layout.isPaginated = true)
    (held : ∀ q, r.query = some q → q.limit = r.perPage.toUInt64) (gives : r.Gives q) :
    q.limit = r.perPage.toUInt64 := by
  rcases gives.kept_or_built with there | ⟨s, s', built⟩
  · exact held q there
  · exact limit_of_buildQuery paginated built

/-- The query that a request keeps cuts pages of the size that the request has now. -/
theorem Trace.Kept.limit {n : Nat} {t : Trace} (kept : t.Kept n)
    (paginated : t.request.layout.isPaginated = true) {q : Query}
    (held : t.request.query = some q) :
    q.limit = t.request.perPage.toUInt64 := by
  obtain ⟨before, after, holds⟩ := kept.query q held
  exact limit_of_buildQuery (r := t.origin) paginated holds.built

/-- The statement for a page ends with the limit and the offset of the page. -/
structure Shows (r : Request) (page : PageInfo) (x : Statement) : Prop where
  statement : ∃ head, x.sql = head ++ window page.perPage.toNat page.offset.toNat
  bound : ∀ b, x.bind r.dialect = .ok b →
    ∃ head, b.sql = head ++ window page.perPage.toNat page.offset.toNat
  size : 1 ≤ page.perPage.toNat ∧ page.perPage.toNat ≤ max 1 r.settings.maxPerPage.toNat
  offset : 0 < page.total.toNat → page.offset.toNat < page.total.toNat

theorem shows_of_render {r : Request} {q : Query} {total : UInt64} {n m : Nat} {x : Statement}
    (sized : r.perPage ≠ 0) (limit : q.limit = r.perPage.toUInt64)
    (rendered : (atPage q (some ((Paginator.new r.perPage).paginate r.page total))).render r.dialect
      n = (.ok x, m)) : r.Shows ((Paginator.new r.perPage).paginate r.page total) x := by
  have one : (1 : UInt32).toNat = 1 := rfl
  have positive : 1 ≤ r.perPage.toNat := by
    rw [Nat.one_le_iff_ne_zero]
    exact fun zero => sized (UInt32.toNat_inj.mp zero)
  obtain ⟨page, there⟩ : ∃ page, (Paginator.new r.perPage).paginate r.page total = page :=
    ⟨_, rfl⟩
  have size : page.perPage.toNat = r.perPage.toNat := by
    rw [← there]
    change (max (max r.perPage 1) 1).toNat = _
    rw [UInt32.toNat_max, UInt32.toNat_max, one]
    omega
  have inside : 0 < page.total.toNat → page.offset.toNat < page.total.toNat := by
    rw [← there]
    exact PageInfo.offset_lt_total
  rw [there] at rendered ⊢
  have cut : (q.setOffset page.offset).limit.toNat = page.perPage.toNat := by
    rw [size, ← UInt32.toNat_toUInt64, ← limit]
    rfl
  have limited : (q.setOffset page.offset).limit ≠ 0 := by
    intro zero
    rw [zero, size] at cut
    exact Nat.ne_of_lt positive cut
  obtain ⟨head, ends⟩ := Sql.render_ending limited rendered
  rw [cut] at ends
  refine ⟨⟨head, ends⟩, fun b bound => Sql.bind_ending ends bound, ?_, inside⟩
  rw [size]
  exact ⟨positive, r.settings.clampPerPage_le r.requestedPerPage⟩

theorem shows_of_paging {r : Request} (paginated : r.layout.isPaginated = true)
    (sized : r.perPage ≠ 0) (held : ∀ q, r.query = some q → q.limit = r.perPage.toUInt64)
    {counts : List Exchange}
    {page : Option PageInfo} {x : Statement} (paging : Paging r counts (.ok (page, x))) :
    ∃ info, page = some info ∧ r.Shows info x := by
  cases paging with
  | rendered gives counted rendered =>
    have limit := limit_of_gives paginated held gives
    cases counted with
    | whole whole =>
      rw [paginated] at whole
      cases whole
    | page => exact ⟨_, rfl, shows_of_render sized limit rendered⟩

/-- The rows asked for are those of the page that is shown: in every run, when a report gives rows
of a page, the statement for them ends with the limit and the offset of that page. -/
theorem getData_window (report : Report) (storage : Storage)
    (context : Filter.Context) (clock : Int) {r : Request}
    (made : Request.new report storage context clock = .ok r) (s : Session)
    (ops : List Operation) {shown : RowSet} :
    let t := (Trace.start r s).run ops
    t.request.preferences.isSome = true → t.request.layout.isPaginated = true →
      ¬ (t.request.settings.maxPerPage = 0 ∧ t.request.requestedPerPage ≠ 0) →
        (getData t.request t.session).1.1 = .ok (some shown) →
          ∃ page options counts x rows labels, shown.page = some page ∧
            t.session.Converses t.request.storage
              (options ++ counts ++ ([⟨x, .ok rows⟩] ++ labels))
              (getData t.request t.session).2 ∧
            Protocol t.request options counts [⟨x, .ok rows⟩] labels (.ok (some shown)) ∧
            t.request.Shows page x := by
  intro t configured paginated sized done
  have fresh := query_new made
  have kept : t.Kept s.drawn := Trace.kept_run (Trace.kept_start fresh s) ops
  have sized : t.request.perPage ≠ 0 := fun zero => sized (Settings.clampPerPage_eq_zero.mp zero)
  obtain ⟨options, counts, data, labels, converses, protocol⟩ :=
    converses_getData configured t.session
  rw [done] at protocol
  obtain ⟨result, outcome⟩ : ∃ result, Except.ok (some shown) = result := ⟨_, rfl⟩
  have ended := protocol
  rw [outcome] at ended
  cases ended with
  | shown asked loaded paging labelling =>
    rename_i c page x rows found
    obtain ⟨page', rfl, shows⟩ :=
      shows_of_paging (r := { t.request with filters := c }) paginated sized
      (fun q held => kept.limit paginated held) paging
    obtain ⟨shown', -, same⟩ := Option.map_eq_some_iff.mp (Except.ok.inj outcome).symm
    rw [← same] at protocol ⊢
    exact ⟨page', options, counts, x, rows, labels, rfl, converses, protocol,
      { shows with }⟩
  | _ => cases outcome

def secondPage (r : Request) : Trace :=
  (Trace.start r {}).run [.withPreferences { perPage := some 3 }, .withPage 2]

theorem getData_window_secondPage :
    ∃ r shown page x, Request.new items oneRow { userId := 1 } 0 = .ok r ∧
      (getData (secondPage r).request (secondPage r).session).1.1 = .ok (some shown) ∧
        shown.page = some page ∧ page.offset = 3 ∧ (secondPage r).request.Shows page x := by
  have facts : (Request.new items oneRow { userId := 1 } 0).toOption.map (fun r =>
      ((secondPage r).request.preferences.isSome && (secondPage r).request.layout.isPaginated &&
          decide ((secondPage r).request.settings.maxPerPage ≠ 0),
        (getData (secondPage r).request (secondPage r).session).1.1.toOption.map
          (·.map fun shown => shown.page.map (·.offset)))) =
      some (true, some (some (some 3))) := by
    decide +kernel
  rcases made : Request.new items oneRow { userId := 1 } 0 with e | r
  · rw [made] at facts
    cases facts
  · rw [made] at facts
    simp only [Except.toOption, Option.map_some, Option.some.injEq, Prod.mk.injEq, Bool.and_eq_true,
      decide_eq_true_eq] at facts
    obtain ⟨⟨⟨configured, paginated⟩, maximum⟩, offset⟩ := facts
    rcases done : (getData (secondPage r).request (secondPage r).session).1.1 with e | none | shown
    · rw [done] at offset
      cases offset
    · rw [done] at offset
      cases offset
    · rw [done] at offset
      obtain ⟨page, -, -, x, -, -, there, -, -, shows⟩ :=
        getData_window items oneRow { userId := 1 } 0 made {}
          [.withPreferences { perPage := some 3 }, .withPage 2] configured paginated
          (fun zero => maximum zero.1) done
      have start : page.offset = 3 := by simpa [there] using offset
      exact ⟨r, shown, page, x, rfl, done, there, start, shows⟩

/-- A maximum of no rows is accepted, and then the rows asked for are all rows while the page has
one. -/
example :
    (Settings.ofVariables fun key => if key = "QUARRY_MAX_PER_PAGE" then some "0"
      else none).toOption.bind
      (fun settings => (Request.new items oneRow { userId := 1 } 0).toOption.map fun r =>
        let t := (Trace.start r {}).run [.withSettings settings, .withPreferences {}]
        let (outcome, s) := getData t.request t.session
        (outcome.1.toOption.map (·.map fun shown => shown.page.map (·.perPage)),
          s.calls.getLast?.map (·.statement.sql))) =
      some (some (some (some 1)),
        some "SELECT i.id AS unique_id, i.id AS id FROM items i WHERE (i.category = :qp1)") := by
  decide +kernel

end Request

end Reports
