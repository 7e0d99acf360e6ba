import Reports.Proofs.Exchange

/-! How a count is asked for: at most two statements, the derived one and a plainer one. -/
namespace Reports.Sql

/-- All ways in which a count ends, with what was asked and what it gives: the statement derived for
the query is rendered at `n`, and the fallback at the counter after it. -/
inductive Counting (d : Dialect) (q : Query) (unique : Bool) (memo : CountMemo) (n : Nat) :
    List Exchange → Except Error (UInt64 × CountMemo) → Prop
  | refused {e : Error} {m : Nat} :
    (Count.derive q unique).render d n = (.error e, m) → Counting d q unique memo n [] (.error e)
  | remembered {x : Statement} {m : Nat} {total : UInt64} :
    (Count.derive q unique).render d n = (.ok x, m) → memo.get? (memo.key x) = some total →
      Counting d q unique memo n [] (.ok (total, memo))
  | counted {x : Statement} {m : Nat} {rows : List Row} :
    (Count.derive q unique).render d n = (.ok x, m) → memo.get? (memo.key x) = none →
      Counting d q unique memo n [⟨x, .ok rows⟩]
        (.ok (countOfRows rows, memo.insert (memo.key x) (countOfRows rows)))
  | unplain {x : Statement} {m m' : Nat} {e e' : Error} :
    (Count.derive q unique).render d n = (.ok x, m) → memo.get? (memo.key x) = none →
      (Count.fallback q).render d m = (.error e', m') →
        Counting d q unique memo n [⟨x, .error e⟩] (.error e)
  | recounted {x y : Statement} {m m' : Nat} {e : Error} {rows : List Row} :
    (Count.derive q unique).render d n = (.ok x, m) → memo.get? (memo.key x) = none →
      (Count.fallback q).render d m = (.ok y, m') →
        Counting d q unique memo n [⟨x, .error e⟩, ⟨y, .ok rows⟩]
          (.ok (countOfRows rows, memo.insert (memo.key x) (countOfRows rows)))
  | uncounted {x y : Statement} {m m' : Nat} {e e' : Error} :
    (Count.derive q unique).render d n = (.ok x, m) → memo.get? (memo.key x) = none →
      (Count.fallback q).render d m = (.ok y, m') →
        Counting d q unique memo n [⟨x, .error e⟩, ⟨y, .error e'⟩] (.error e)

variable {st : Storage} {s s' : Session}

theorem fetchCount_ok {x : Statement} {rows : List Row} (fetched : st.fetch x s = (.ok rows, s')) :
    st.fetchCount x s = (.ok (countOfRows rows), s') := by
  rw [Storage.fetchCount, Effect.bind_ok _ fetched]
  rfl

theorem fetchCount_error {x : Statement} {e : Error} (fetched : st.fetch x s = (.error e, s')) :
    st.fetchCount x s = (.error e, s') := by
  rw [Storage.fetchCount, Effect.bind_error _ fetched]

theorem attempt_eq {α : Type} {x : Action α} {r : Except Error α} (h : x s = (r, s')) :
    Session.attempt x s = (.ok r, s') := by
  rw [Session.attempt, h]

theorem draw_eq {α : Type} {x : Draw α} {r : Except Error α} {m : Nat} (h : x s.drawn = (r, m)) :
    Session.draw x s = (r, { s with drawn := m }) := by
  rw [Session.draw, h]

theorem drawn_fetch (st : Storage) (x : Statement) (s : Session) :
    (st.fetch x s).2.drawn = s.drawn := by
  rw [Storage.fetch]
  split
  · rfl
  · dsimp only
    split <;> rfl

/-- A count asks nothing else, and gives nothing else. -/
theorem executeCount_counting (st : Storage) (q : Query) (unique : Bool) (memo : CountMemo)
    (s : Session) :
    ∃ xs, s.Converses st xs (executeCount st q unique memo s).2 ∧
      Counting st.dialect q unique memo s.drawn xs (executeCount st q unique memo s).1 := by
  rcases rendered : (Count.derive q unique).render st.dialect s.drawn with ⟨e | x, m⟩
  · rw [executeCount, Effect.bind_error _ (draw_eq rendered)]
    exact ⟨[], .of_silent ⟨rfl, rfl⟩, .refused rendered⟩
  · rw [executeCount, Effect.bind_ok _ (draw_eq rendered)]
    cases known : memo.get? (memo.key x) with
    | some total => exact ⟨[], .of_silent ⟨rfl, rfl⟩, .remembered rendered known⟩
    | none =>
      dsimp only
      rcases fetched : st.fetch x { s with drawn := m } with ⟨e | rows, s₁⟩
      · have asked := (Action.converses_of_fetch fetched).before (s := s) ⟨rfl, rfl⟩
        have counter : s₁.drawn = m := by
          have same := drawn_fetch st x { s with drawn := m }
          rw [fetched] at same
          exact same
        let warned : Session := { s₁ with events := s₁.events ++ [.countRetried e] }
        have log : (liftM (Session.log (.countRetried e)) : Action Unit) s₁ = (.ok (), warned) :=
          rfl
        rw [Effect.bind_ok _ (attempt_eq (fetchCount_error fetched))]
        dsimp only
        rw [Effect.bind_ok _ log]
        -- The second statement is asked only when it renders.
        rcases plain : (Count.fallback q).render st.dialect m with ⟨e' | y, m'⟩
        · have drawn : Session.draw ((Count.fallback q).render st.dialect) warned =
              (.error e', { warned with drawn := m' }) := draw_eq (by rw [← plain, ← counter])
          rw [Effect.bind_ok _ (attempt_eq drawn)]
          exact ⟨_, asked.after ⟨rfl, rfl⟩, .unplain rendered known plain⟩
        · have drawn : Session.draw ((Count.fallback q).render st.dialect) warned =
              (.ok y, { warned with drawn := m' }) := draw_eq (by rw [← plain, ← counter])
          rw [Effect.bind_ok _ (attempt_eq drawn)]
          dsimp only
          rcases again : st.fetch y { warned with drawn := m' } with ⟨e' | rows, s₂⟩
          · have both :=
              asked.trans ((Action.converses_of_fetch again).before (s := s₁) ⟨rfl, rfl⟩)
            rw [Effect.bind_ok _ (attempt_eq (fetchCount_error again))]
            exact ⟨_, both.after ⟨rfl, rfl⟩, .uncounted rendered known plain⟩
          · have both :=
              asked.trans ((Action.converses_of_fetch again).before (s := s₁) ⟨rfl, rfl⟩)
            rw [Effect.bind_ok _ (attempt_eq (fetchCount_ok again))]
            exact ⟨_, both, .recounted rendered known plain⟩
      · have asked := (Action.converses_of_fetch fetched).before (s := s) ⟨rfl, rfl⟩
        rw [Effect.bind_ok _ (attempt_eq (fetchCount_ok fetched))]
        exact ⟨_, asked, .counted rendered known⟩

end Reports.Sql
