import Reports.Proofs.Report.Protocol
import Reports.Proofs.Sql.Memo
import Reports.Proofs.Sql.Renderable

/-! Falling back on a plainer count. What a count asks for, what it gives and what the memo has
afterwards follows from the memo and the replies, and the second statement is asked for only where
the first one has failed. A request keeps the memo from one count to the next. -/
namespace Reports

namespace Sql

/-- What a count asks and what it gives, by what renders, what is known and what is replied. -/
def course (st : Storage) (d : Dialect) (q : Query) (unique : Bool) (memo : CountMemo) (n k : Nat) :
    List Exchange × Except Error (UInt64 × CountMemo) :=
  match (Count.derive q unique).render d n with
  | (.error e, _) => ([], .error e)
  | (.ok x, m) =>
    match memo.get? (memo.key x) with
    | some total => ([], .ok (total, memo))
    | none =>
      match st.reply k x with
      | .ok rows =>
        ([⟨x, .ok rows⟩], .ok (countOfRows rows, memo.insert (memo.key x) (countOfRows rows)))
      | .error e =>
        match (Count.fallback q).render d m with
        | (.error _, _) => ([⟨x, .error e⟩], .error e)
        | (.ok y, _) =>
          match st.reply (st.next k x) y with
          | .ok rows => ([⟨x, .error e⟩, ⟨y, .ok rows⟩],
              .ok (countOfRows rows, memo.insert (memo.key x) (countOfRows rows)))
          | .error e' => ([⟨x, .error e⟩, ⟨y, .error e'⟩], .error e)

namespace Counting

variable {st : Storage} {d : Dialect} {q : Query} {unique : Bool} {memo : CountMemo} {n k : Nat}
  {xs ys : List Exchange} {r r' : Except Error (UInt64 × CountMemo)}

theorem eq_course (counting : Counting d q unique memo n xs r) (answered : st.Answered k xs) :
    (xs, r) = course st d q unique memo n k := by
  cases counting with
  | refused rendered => simp only [course, rendered]
  | remembered rendered known => simp only [course, rendered, known]
  | @counted x m rows rendered fresh =>
    have replied : st.reply k x = .ok rows := answered.1.symm
    simp only [course, rendered, fresh, replied]
  | @unplain x m m' e e' rendered fresh plain =>
    have replied : st.reply k x = .error e := answered.1.symm
    simp only [course, rendered, fresh, replied, plain]
  | @recounted x y m m' e rows rendered fresh plain =>
    have replied : st.reply k x = .error e := answered.1.symm
    have again : st.reply (st.next k x) y = .ok rows := answered.2.1.symm
    simp only [course, rendered, fresh, replied, plain, again]
  | @uncounted x y m m' e e' rendered fresh plain =>
    have replied : st.reply k x = .error e := answered.1.symm
    have again : st.reply (st.next k x) y = .error e' := answered.2.1.symm
    simp only [course, rendered, fresh, replied, plain, again]

/-- Of the ways in which a count can end, what renders, what is known and what is replied leave
one. -/
theorem determined (counting : Counting d q unique memo n xs r)
    (counting' : Counting d q unique memo n ys r') (answered : st.Answered k xs)
    (answered' : st.Answered k ys) : xs = ys ∧ r = r' :=
  Prod.mk.inj ((counting.eq_course answered).trans (counting'.eq_course answered').symm)

end Counting

theorem CountMemo.get?_insert (memo : CountMemo) (key other : String) (n : UInt64) :
    (memo.insert key n).get? other = if key = other then some n else memo.get? other := by
  rw [CountMemo.insert, CountMemo.get?, OrderedMap.get?_insert]
  rfl

namespace CountCall

/-- What a call asks for, what it gives and the memo after it. -/
structure Ends (st : Storage) (memo : CountMemo) (c : CountCall) (asked : List Statement)
    (result : Except Error UInt64) (after : CountMemo) : Prop where
  calls : (c.run st memo).2.calls = c.session.calls ++ asked.map st.call
  result : (c.run st memo).1 = result.map fun n => (n, after)
  memo : next st memo c = after

variable {st : Storage} {memo : CountMemo} {c : CountCall} {xs : List Exchange}

theorem run_of_counting {r : Except Error (UInt64 × CountMemo)}
    (counting : Counting st.dialect c.query c.unique memo c.session.drawn xs r)
    (answered : st.Answered c.session.served xs) :
    (c.run st memo).1 = r ∧
      (c.run st memo).2.calls = c.session.calls ++ xs.map fun x => st.call x.statement := by
  obtain ⟨ys, converses, counting'⟩ := executeCount_counting st c.query c.unique memo c.session
  obtain ⟨rfl, same⟩ := counting'.determined counting converses.answered answered
  exact ⟨same, converses.calls⟩

theorem ends_of_ok {n : UInt64} {after : CountMemo}
    (counting : Counting st.dialect c.query c.unique memo c.session.drawn xs (.ok (n, after)))
    (answered : st.Answered c.session.served xs) :
    c.Ends st memo (xs.map (·.statement)) (.ok n) after := by
  obtain ⟨ran, calls⟩ := run_of_counting counting answered
  exact ⟨by rw [calls, List.map_map]; rfl, ran, next_of_run ran⟩

theorem ends_of_error {e : Error}
    (counting : Counting st.dialect c.query c.unique memo c.session.drawn xs (.error e))
    (answered : st.Answered c.session.served xs) :
    c.Ends st memo (xs.map (·.statement)) (.error e) memo := by
  obtain ⟨ran, calls⟩ := run_of_counting counting answered
  exact ⟨by rw [calls, List.map_map]; rfl, ran, by rw [next, ran]⟩

theorem count_eq_run {r : Request} {q : Query} (held : r.query = some q) (unique : Bool)
    (s : Session) :
    Request.count unique r s =
      (((run r.storage ⟨q, unique, s⟩ r.counts).1.map Prod.fst,
        { r with counts := next r.storage r.counts ⟨q, unique, s⟩ }),
        (run r.storage ⟨q, unique, s⟩ r.counts).2) := by
  rw [Request.count, Request.bind_ok _ (Request.getQuery_of_held held s),
    Request.bind_ok _ (rfl : Request.current r s = _)]
  rcases ran : executeCount r.storage q unique r.counts s with ⟨e | ⟨n, counts⟩, s'⟩
  · have failed : Request.act (executeCount r.storage q unique r.counts) r s =
        ((.error e, r), s') := by
      rw [Request.act, ran]
    rw [Request.bind_error _ failed, next, run, ran]
    rfl
  · have done : Request.act (executeCount r.storage q unique r.counts) r s =
        ((.ok (n, counts), r), s') := by
      rw [Request.act, ran]
    rw [Request.bind_ok _ done, next, run, ran]
    rfl

/-- How a count falls back. Nothing is asked for when the derived statement does not render or its
count is known. Otherwise that statement is asked for, and only when it fails the fallback, which
always renders then. The first count that there is is given, and remembered under the derived
statement; if there is none, the first error is given, and nothing is remembered. Requests count
like this. -/
theorem executeCount_falls_back (st : Storage) (memo : CountMemo) (c : CountCall) :
    (∀ e m, c.derived.render st.dialect c.session.drawn = (.error e, m) →
      c.Ends st memo [] (.error e) memo) ∧
    (∀ x m, c.derived.render st.dialect c.session.drawn = (.ok x, m) →
      (∀ n, memo.get? (memo.key x) = some n → c.Ends st memo [] (.ok n) memo) ∧
      (memo.get? (memo.key x) = none →
        ∃ y m', (Count.fallback c.query).render st.dialect m = (.ok y, m') ∧
          (∀ rows, st.reply c.session.served x = .ok rows →
            c.Ends st memo [x] (.ok (countOfRows rows))
              (memo.insert (memo.key x) (countOfRows rows))) ∧
          ∀ e, st.reply c.session.served x = .error e →
            (∀ rows, st.reply (st.next c.session.served x) y = .ok rows →
              c.Ends st memo [x, y] (.ok (countOfRows rows))
                (memo.insert (memo.key x) (countOfRows rows))) ∧
            ∀ e', st.reply (st.next c.session.served x) y = .error e' →
              c.Ends st memo [x, y] (.error e) memo)) ∧
    (∀ key n other,
      (memo.insert key n).get? other = if key = other then some n else memo.get? other) ∧
    ∀ (r : Request) (q : Query) (unique : Bool) (s : Session), r.query = some q →
      Request.count unique r s =
        (((run r.storage ⟨q, unique, s⟩ r.counts).1.map Prod.fst,
          { r with counts := next r.storage r.counts ⟨q, unique, s⟩ }),
          (run r.storage ⟨q, unique, s⟩ r.counts).2) := by
  refine ⟨fun e m refused => ?_, fun x m rendered => ⟨fun n known => ?_, fun fresh => ?_⟩,
    fun key n other => memo.get?_insert key other n,
    fun r q unique s held => count_eq_run held unique s⟩
  · exact ends_of_error (.refused refused) trivial
  · exact ends_of_ok (.remembered rendered known) trivial
  · have renders : c.query.Renders st.dialect :=
      Query.renders_derive.mp (Query.renders_of_render rendered)
    obtain ⟨y, m', plain⟩ := (Query.renders_fallback.mpr renders).render m
    refine ⟨y, m', plain, fun rows counted => ?_, fun e failed => ⟨fun rows counted => ?_,
      fun e' failed' => ?_⟩⟩
    · exact ends_of_ok (.counted rendered fresh) ⟨counted.symm, trivial⟩
    · exact ends_of_ok (.recounted rendered fresh plain) ⟨failed.symm, counted.symm, trivial⟩
    · exact ends_of_error (.uncounted rendered fresh plain)
        ⟨failed.symm, failed'.symm, trivial⟩

def waking : Storage where
  dialect := .sqlite
  answer := fun n b => if n = 0 then .error "busy" else seven b

theorem reply_waking {x : Statement} (binds : (x.bind .sqlite).toOption.isSome = true) :
    waking.reply 0 x = .error (.execution "busy" x.sql x.params) ∧ waking.next 0 x = 1 ∧
      waking.reply 1 x = .ok [.ofList [("total", .ofInt 7)]] := by
  rcases bound : x.bind .sqlite with e | b
  · rw [bound] at binds
    cases binds
  · simp [Storage.reply, Storage.next, waking, bound, seven]

def logEntries : CountCall := ⟨(Query.withPrefix "").readFrom "log" "l", true, {}⟩

/-- The storage is not ready for the first statement, and answers the second one. -/
theorem executeCount_falls_back_waking :
    let memo : CountMemo := ⟨id, ∅⟩
    ∃ x y, logEntries.Ends waking memo [x, y] (.ok 7) (memo.insert (memo.key x) 7) := by
  intro memo
  have facts : ((logEntries.derived.render .sqlite 0).1.toOption.map fun x =>
        (x.bind .sqlite).toOption.isSome) = some true ∧
      (logEntries.derived.render .sqlite 0).2 = 0 ∧
      (((Count.fallback logEntries.query).render .sqlite 0).1.toOption.map fun y =>
        (y.bind .sqlite).toOption.isSome) = some true := by
    decide +kernel
  obtain ⟨-, rendering, -⟩ := executeCount_falls_back waking memo logEntries
  rcases rendered : logEntries.derived.render .sqlite 0 with ⟨e | x, m⟩
  · rw [rendered] at facts
    cases facts.1
  · rw [rendered] at facts
    obtain ⟨bound, rfl, plainBound⟩ := facts
    obtain ⟨y, m', plain, -, failing⟩ := (rendering x 0 rendered).2 rfl
    have fallback : (Count.fallback logEntries.query).render .sqlite 0 = (.ok y, m') := plain
    rw [fallback] at plainBound
    obtain ⟨failed, next, -⟩ := reply_waking (Option.some.inj bound)
    obtain ⟨-, -, answered⟩ := reply_waking (Option.some.inj plainBound)
    rw [← next] at answered
    exact ⟨x, y, (failing _ failed).1 _ answered⟩

end CountCall

end Sql

end Reports
