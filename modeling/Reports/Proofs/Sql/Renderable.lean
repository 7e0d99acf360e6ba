import Reports.Proofs.Sql.Counting

/-! Queries that render. Whether one does depends on its source and its predicates and not on the
names drawn before, so the two statements that count its rows render when it does. -/
namespace Reports.Sql

def Source.Renders (d : Dialect) : Source → Prop
  | .none => False
  | .table _ _ => True
  | .derived inner source _ =>
    (∃ ts, Clauses.templates d inner.predicates = .ok ts) ∧ source.Renders d

theorem Clauses.exists_renderOver (d : Dialect) (c : Clauses) (source : Source) (n : Nat) :
    (∃ s m, c.renderOver d source n = (.ok s, m)) ↔
      (∃ ts, templates d c.predicates = .ok ts) ∧ source.Renders d := by
  have assembles (c : Clauses) (source : Statement) (n : Nat) :
      (∃ s m, c.assemble d source n = (.ok s, m)) ↔
      ∃ ts, templates d c.predicates = .ok ts := by
    have outcome := assemble_outcome d c source n
    split at outcome
    · next ts found =>
      obtain ⟨s, m, assembled, -⟩ := outcome
      exact ⟨fun _ => ⟨ts, found⟩, fun _ => ⟨s, m, assembled⟩⟩
    · next e found =>
      obtain ⟨m, failed, -⟩ := outcome
      constructor
      · rintro ⟨s, m', assembled⟩
        cases failed.symm.trans assembled
      · rintro ⟨ts, found'⟩
        cases found.symm.trans found'
  induction source generalizing c n with
  | none =>
    refine ⟨?_, fun h => h.2.elim⟩
    rintro ⟨s, m, rendered⟩
    cases rendered
  | table name correlation => exact (assembles c _ n).trans (and_iff_left trivial).symm
  | derived inner source correlation ih =>
    have within := ih inner n
    rcases outcome : inner.renderOver d source n with ⟨e | s, m⟩
    · rw [outcome] at within
      constructor
      · rintro ⟨s, m', rendered⟩
        rw [renderOver, Effect.bind_error _ outcome] at rendered
        cases rendered
      · rintro ⟨-, renders⟩
        obtain ⟨s, m', never⟩ := within.mpr renders
        cases never
    · rw [outcome] at within
      rw [renderOver, Effect.bind_ok _ outcome, assembles]
      exact ⟨fun here => ⟨here, within.mp ⟨s, m, rfl⟩⟩, fun both => both.1⟩

namespace Query

def Renders (d : Dialect) (q : Query) : Prop :=
  (∃ ts, Clauses.templates d q.predicates = .ok ts) ∧ q.source.Renders d

variable {d : Dialect} {q : Query}

theorem Renders.render (renders : q.Renders d) (n : Nat) : ∃ s m, q.render d n = (.ok s, m) :=
  (q.exists_renderOver d q.source n).mpr renders

theorem renders_of_render {n m : Nat} {s : Statement} (rendered : q.render d n = (.ok s, m)) :
    q.Renders d :=
  (q.exists_renderOver d q.source n).mp ⟨s, m, rendered⟩

theorem renders_wrap {tablePrefix expr : String} :
    (Count.wrap tablePrefix q expr).Renders d ↔ q.Renders d :=
  and_iff_right ⟨[], rfl⟩

/-- The statement that counts the rows of a query renders exactly when the query does. -/
theorem renders_derive {unique : Bool} : (Count.derive q unique).Renders d ↔ q.Renders d := by
  rw [Count.derive]
  split
  · exact Iff.rfl
  · split
    · exact renders_wrap (q := (Count.clearSelects (Count.strip q)).select _ uniqueId)
    · exact renders_wrap (q := Count.strip q)

theorem renders_fallback : (Count.fallback q).Renders d ↔ q.Renders d := by
  rw [Count.fallback]
  split
  · exact Iff.rfl
  · exact renders_wrap (q := Count.strip q)

theorem Renders.not_error (renders : q.Renders d) {n m : Nat} {e : Error} :
    q.render d n ≠ (.error e, m) := by
  intro failed
  obtain ⟨s, m', rendered⟩ := renders.render n
  cases failed.symm.trans rendered

end Query

/-- A count of a query that renders fails only with a reply. -/
theorem Counting.reply_of_error {d : Dialect} {q : Query} {unique : Bool}
    {memo : CountMemo} {n : Nat} {xs : List Exchange} {e : Error} (renders : q.Renders d)
    (counting : Counting d q unique memo n xs (.error e)) : ∃ x ∈ xs, x.reply = .error e := by
  cases counting with
  | refused failed => exact absurd failed (Query.renders_derive.mpr renders).not_error
  | unplain _ _ _ => exact ⟨_, List.mem_cons_self, rfl⟩
  | uncounted _ _ _ => exact ⟨_, List.mem_cons_self, rfl⟩

end Reports.Sql
