import Reports.Proofs.Filter.Restriction
import Reports.Proofs.Sql.Shape
import Mathlib.Data.List.Forall2

/-! Two states of the filters of one report that restrict by the same comparisons, with other
values: their conditions are one text, with parameters of the same names. -/
namespace Reports.Filter

open Sql (Indistinct Predicate Template Statement Dialect)

theorem similar_new (selector : String) (op : Sql.Operator) {vs ws : List Json}
    (length : (Predicate.flatten vs).length = (Predicate.flatten ws).length) :
    (Predicate.new selector vs op).Similar (.new selector ws op) :=
  ⟨rfl, rfl, length, rfl, rfl, rfl, fun _ given => nomatch given⟩

theorem similar_never (selector : String) :
    (Predicate.never selector).Similar (.never selector) := by
  refine ⟨rfl, rfl, rfl, rfl, rfl, rfl, fun render given => ?_⟩
  cases given
  exact Sql.neverTrue_blind

theorem Handler.predicate?_compared {h : Handler} {selector : String} {op : Sql.Operator}
    {value : Option Json} {ctx : Context} {p : Predicate} (free : h.isCondition = false)
    (unlisted : ∀ s, h ≠ .select s)
    (given : h.predicate? selector op value ctx = .ok (some p)) :
    ∃ vs o, p = .new selector vs o := by
  unfold Handler.predicate? at given
  split at given
  · simp only [Except.ok.injEq, Option.map_eq_some_iff] at given
    obtain ⟨v, -, rfl⟩ := given
    exact ⟨_, _, rfl⟩
  · split at given
    · split at given <;> cases given
      exact ⟨_, _, rfl⟩
    · cases given
  · split at given
    · split at given
      · split at given <;> cases given
        exact ⟨_, _, rfl⟩
      · cases given
    · cases given
  · next s => exact absurd rfl (unlisted s)
  · cases free

theorem Selection.predicate?_cases {s : Selection} {selector : String} {op : Sql.Operator}
    {value : Option Json} {p : Predicate}
    (given : (value.bind fun v => s.predicate? selector op v) = some p) :
    p = .never selector ∨ ∃ vs o, p = .new selector vs o ∧
      (o = .inList ∨ 0 < (Predicate.flatten vs).length) := by
  obtain ⟨v, -, chosen⟩ := Option.bind_eq_some_iff.mp given
  unfold Selection.predicate? at chosen
  split at chosen
  · split at chosen
    · cases chosen
    · split at chosen <;> cases chosen
      · exact .inl rfl
      · exact .inr ⟨_, _, rfl, .inl rfl⟩
  · split at chosen <;> cases chosen
    · exact .inr ⟨_, _, rfl, .inl rfl⟩
    · next single =>
      refine .inr ⟨_, _, rfl, .inr ?_⟩
      cases v <;> simp_all [Predicate.flatten]

theorem Condition.similar (c : Condition) (selector : String) (ctx ctx' : Context)
    (operator : (c.predicate selector ctx).operator = (c.predicate selector ctx').operator)
    (length : (c.predicate selector ctx).values.length =
      (c.predicate selector ctx').values.length) :
    (c.predicate selector ctx).Similar (c.predicate selector ctx') := by
  cases c with
  | loggedInUser => exact similar_new selector .equal rfl
  | currentCourse =>
    unfold Condition.predicate at operator length ⊢
    cases hc : ctx.courseId <;> cases hc' : ctx'.courseId <;> rw [hc, hc'] at operator
    · exact similar_never selector
    · cases operator
    · cases operator
    · exact similar_new selector .equal rfl
  | myGroups =>
    unfold Condition.predicate at operator length ⊢
    cases hg : ctx.groupIds.isEmpty <;> cases hg' : ctx'.groupIds.isEmpty <;>
      simp only [hg, hg', if_true, if_false, Bool.false_eq_true] at operator length ⊢
    · exact similar_new selector .inList length
    · cases operator
    · cases operator
    · exact similar_never selector
  | enrolledCourses =>
    exact ⟨rfl, rfl, rfl, rfl, rfl, rfl, fun _ given => nomatch given⟩

/-- A filter in two states and two contexts contributes the same comparison, or none in both. -/
structure ContributesLike (f : Filter) (ctx : Context) (g : Filter) (ctx' : Context) : Prop where
  both : (∃ p, f.predicate? ctx = .ok (some p)) ↔ ∃ p, g.predicate? ctx' = .ok (some p)
  comparison : ∀ p q, f.predicate? ctx = .ok (some p) → g.predicate? ctx' = .ok (some q) →
    p.operator = q.operator ∧ p.values.length = q.values.length

theorem contributesLike_of_some {f g : Filter} {ctx ctx' : Context} {p q : Predicate}
    (first : f.predicate? ctx = .ok (some p)) (second : g.predicate? ctx' = .ok (some q))
    (operator : p.operator = q.operator) (length : p.values.length = q.values.length) :
    f.ContributesLike ctx g ctx' := by
  refine ⟨⟨fun _ => ⟨q, second⟩, fun _ => ⟨p, first⟩⟩,
    fun p' q' first' second' => ?_⟩
  rw [first] at first'
  rw [second] at second'
  cases first'
  cases second'
  exact ⟨operator, length⟩

/-- The chosen value may differ, and nothing else. -/
structure Twin (f : Filter) (ctx : Context) (g : Filter) (ctx' : Context) : Prop where
  state : ∃ raw, g = { f with raw }
  contributes : f.ContributesLike ctx g ctx'

variable {f g : Filter} {ctx ctx' : Context}

theorem Twin.similar (twin : f.Twin ctx g ctx') {p q : Predicate}
    (first : f.predicate? ctx = .ok (some p)) (second : g.predicate? ctx' = .ok (some q)) :
    p.Similar q := by
  obtain ⟨operator, length⟩ := twin.contributes.comparison p q first second
  obtain ⟨raw, rfl⟩ := twin.state
  unfold Filter.predicate? at first second
  dsimp only [isCondition] at second
  cases handler : f.handler with
  | condition c =>
    simp only [handler, Handler.predicate?, Except.ok.injEq, Option.some.injEq] at first second
    subst first second
    exact c.similar _ _ _ operator length
  | select s =>
    simp only [handler, Handler.predicate?, Except.ok.injEq] at first second
    rcases Selection.predicate?_cases first with rfl | ⟨vs, o, rfl, some⟩ <;>
      rcases Selection.predicate?_cases second with rfl | ⟨ws, o', rfl, some'⟩
    · exact similar_never _
    · -- no values against some, and an operator that no list has
      rcases some' with rfl | some'
      · cases operator
      · exact absurd length (Nat.ne_of_lt some')
    · rcases some with rfl | some
      · cases operator
      · exact absurd length.symm (Nat.ne_of_lt some)
    · cases operator
      exact similar_new _ _ length
  | _ =>
    rw [handler] at first second
    obtain ⟨vs, o, rfl⟩ := Handler.predicate?_compared rfl (by simp) first
    obtain ⟨ws, o', rfl⟩ := Handler.predicate?_compared rfl (by simp) second
    cases operator
    exact similar_new _ _ length

namespace Collection

def Decided (c : Collection) : Prop := ∀ f ∈ c.filters, ∃ p, f.predicate? c.context = .ok p

def Twin (c c' : Collection) : Prop :=
  List.Forall₂ (fun f g => Filter.Twin f c.context g c'.context) c.filters c'.filters

def inClause {α β : Type} (shape : α → β) (e : Clause × α) : Clause × β :=
  (e.1, shape e.2)

variable {d : Dialect} {fs gs : List Filter}

theorem decided_of_templates {ts : List (Clause × Template)}
    (found : templates d ctx fs = .ok ts) :
    ∀ f ∈ fs, ∃ p, f.predicate? ctx = .ok p := by
  induction fs generalizing ts with
  | nil => exact fun f mem => nomatch mem
  | cons f rest ih =>
    rw [templates] at found
    intro g mem
    split at found
    · cases found
    · next given =>
      rcases List.mem_cons.mp mem with rfl | later
      · exact ⟨_, given⟩
      · exact ih found g later
    · next p given =>
      rcases List.mem_cons.mp mem with rfl | later
      · exact ⟨_, given⟩
      · split at found
        · cases found
        · split at found
          · cases found
          · next others => exact ih others g later

theorem templates_twin (twins : List.Forall₂ (fun f g => Filter.Twin f ctx g ctx') fs gs)
    {ts : List (Clause × Template)} (found : templates d ctx fs = .ok ts)
    (decided : ∀ g ∈ gs, ∃ p, g.predicate? ctx' = .ok p) :
    ∃ ts', templates d ctx' gs = .ok ts' ∧
      ts'.map (inClause Template.shape) = ts.map (inClause Template.shape) := by
  induction twins generalizing ts with
  | nil =>
    cases found
    exact ⟨[], rfl, rfl⟩
  | @cons f g fs gs twin _ ih =>
    have later {ts} (found : templates d ctx fs = .ok ts) :=
      ih found fun g mem => decided g (List.mem_cons_of_mem _ mem)
    have clause : g.clause = f.clause := by
      obtain ⟨raw, rfl⟩ := twin.state
      rfl
    obtain ⟨contribution, second⟩ := decided g List.mem_cons_self
    rw [templates] at found ⊢
    split at found
    · cases found
    · next first =>
      obtain ⟨ts', found', same⟩ := later found
      cases contribution with
      | none => exact ⟨ts', by rw [second]; exact found', same⟩
      | some q =>
        obtain ⟨p, contributed⟩ := twin.contributes.both.mpr ⟨q, second⟩
        rw [first] at contributed
        cases contributed
    · next p first =>
      obtain ⟨q, contributed⟩ := twin.contributes.both.mp ⟨p, first⟩
      have shapes := (twin.similar first contributed).template d
      split at found
      · cases found
      · next t template =>
        split at found
        · cases found
        · next others remaining =>
          cases found
          obtain ⟨ts', found', same⟩ := later remaining
          rw [template] at shapes
          cases template' : q.template d with
          | error e =>
            rw [template'] at shapes
            cases shapes
          | ok t' =>
            rw [template'] at shapes
            refine ⟨(g.clause, t') :: ts', ?_, ?_⟩
            · simp only [contributed, template', found']
            · have shape : t.shape = t'.shape := Except.ok.inj shapes
              simp only [List.map_cons, same, inClause, clause, shape]

theorem fillEach_indistinct {ts ts' : List (Clause × Template)}
    (same : ts'.map (inClause Template.shape) = ts.map (inClause Template.shape)) :
    Indistinct (List.map (inClause Statement.shape)) (fillEach ts) (fillEach ts') := by
  induction ts generalizing ts' with
  | nil =>
    cases List.map_eq_nil_iff.mp same
    exact Indistinct.refl _
  | cons e rest ih =>
    cases ts' with
    | nil => simp at same
    | cons e' rest' =>
      simp only [List.map_cons, List.cons.injEq, inClause, Prod.mk.injEq] at same
      obtain ⟨⟨clause, shape⟩, later⟩ := same
      refine (Template.fill_indistinct shape.symm).bind fun s s' here => ?_
      refine (ih later).bind fun ss ss' others => ?_
      apply Indistinct.ok
      simp only [List.map_cons, others, inClause, here, clause]

end Collection

end Reports.Filter
