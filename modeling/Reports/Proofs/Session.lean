import Reports.Proofs.Effect
import Reports.Proofs.Sql.Outline
import Reports.Sql.Count
import Reports.Field.Lookup

/-! What a session has done stays done: names are drawn from a counter that only goes up, and calls
stay on record. -/
namespace Reports

structure Session.Extends (s s' : Session) : Prop where
  drawn : s.drawn ≤ s'.drawn
  calls : s.calls <+: s'.calls

namespace Session.Extends

theorem refl (s : Session) : s.Extends s := ⟨Nat.le_refl _, List.prefix_rfl⟩

theorem trans {s s' s'' : Session} (h : s.Extends s') (h' : s'.Extends s'') : s.Extends s'' :=
  ⟨Nat.le_trans h.drawn h'.drawn, h.calls.trans h'.calls⟩

end Session.Extends

def Session.Rule.growing : Session.Rule where
  Goes := Extends
  Fails _ := True
  refl := .refl
  trans := .trans
  heard _ _ := ⟨Nat.le_refl _, List.prefix_rfl⟩

namespace Action

variable {α : Type}

/-- Labels are loaded with the rule that the statement for them is drawn and asked with. -/
theorem Obeys.prefetch {rule : Session.Rule} {labels : Field.Labels} {st : Storage}
    {l : Field.Lookup} {ids : List String} (refused : ∀ e, l.check = .error e → rule.Fails e)
    (rendered : ∀ ids : List String, ids ≠ [] →
      (Session.draw ((l.query st.dialect ids).render st.dialect)).Obeys rule)
    (fetched : ∀ x, (st.fetch x).Obeys rule) : (labels.prefetch st l ids).Obeys rule := by
  rw [Field.Labels.prefetch]
  split
  · exact .pure _
  · next some =>
    split
    · next e failed => exact .throw (refused e failed)
    · refine (rendered _ (by simpa using some)).bind fun x => (fetched x).bind fun rows => ?_
      exact (log _).bind fun _ => .pure _

abbrev Grows (x : Action α) : Prop := x.Obeys .growing

namespace Grows

theorem draw {x : Sql.Draw α} (up : ∀ n, n ≤ (x n).2) : Grows (Session.draw x) := fun s =>
  ⟨⟨up s.drawn, List.prefix_rfl⟩, fun _ _ => trivial⟩

theorem render (q : Sql.Query) (d : Sql.Dialect) : Grows (Session.draw (q.render d)) :=
  draw fun _ => Sql.Query.le_of_render rfl

theorem fetch (st : Storage) (statement : Sql.Statement) : Grows (st.fetch statement) := by
  refine fun s => ⟨?_, fun _ _ => trivial⟩
  rw [Storage.fetch]
  split
  · exact ⟨Nat.le_refl _, List.prefix_append _ _⟩
  · dsimp only
    split
    · exact ⟨Nat.le_refl _, List.prefix_append _ _⟩
    · exact ⟨Nat.le_refl _, List.prefix_append _ _⟩

theorem executeCount (st : Storage) (q : Sql.Query) (unique : Bool) (memo : Sql.CountMemo) :
    Grows (Sql.executeCount st q unique memo) := by
  have fetchCount (x : Sql.Statement) : Grows (st.fetchCount x) :=
    (fetch st x).bind fun rows => .pure (countOfRows rows)
  refine (render _ _).bind fun derived => ?_
  dsimp only
  split
  · exact (Obeys.log _).bind fun _ => .pure _
  · refine (fetchCount derived).attempt.bind fun first => ?_
    split
    · exact .pure _
    · refine (Obeys.log _).bind fun _ => (render _ _).attempt.bind fun plain => ?_
      split
      · exact .throw trivial
      · refine (fetchCount _).attempt.bind fun second => ?_
        split
        · exact .pure _
        · exact (Obeys.log _).bind fun _ => .throw trivial

theorem prefetch (labels : Field.Labels) (st : Storage) (l : Field.Lookup) (ids : List String) :
    Grows (labels.prefetch st l ids) :=
  Obeys.prefetch (fun _ _ => trivial) (fun _ _ => render _ _) (fetch st)

end Grows

theorem mem_calls_fetch (st : Storage) (statement : Sql.Statement) (s : Session) :
    ∃ bound, ⟨statement, bound⟩ ∈ (st.fetch statement s).2.calls := by
  rw [Storage.fetch]
  split
  · exact ⟨_, List.mem_append_right _ List.mem_cons_self⟩
  · dsimp only
    split
    · exact ⟨_, List.mem_append_right _ List.mem_cons_self⟩
    · exact ⟨_, List.mem_append_right _ List.mem_cons_self⟩

end Action

end Reports
