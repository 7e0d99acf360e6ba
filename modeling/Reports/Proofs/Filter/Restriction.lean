import Reports.Filter.Collection
import Reports.Proofs.Sql.Apart
import Reports.Proofs.Sql.Holes

/-! What the filters of a report add to its query: templates that no counter has numbered, and for
each clause the outline of the condition that they make together. -/
namespace Reports.Filter

open Sql (Template Outline Statement Marked Draw Follows Name Weaves Harmless)
open Sql.Clauses (outlines holeTotal)
open Sql.Marked (ofText Neat)

/-- What a clause restricts: its condition, unless that is trivial. -/
def ClauseSql.effect (c : ClauseSql) : List Statement := if c.isTrivial then [] else [c.statement]

def CollectionSql.effect (x : CollectionSql) : List Statement × List Statement :=
  (x.whereSql.effect, x.havingSql.effect)

namespace Collection

def templates (d : Sql.Dialect) (ctx : Context) : List Filter →
    Except Error (List (Clause × Template))
  | [] => .ok []
  | f :: rest =>
    match f.predicate? ctx with
    | .error e => .error e
    | .ok none => templates d ctx rest
    | .ok (some p) =>
      match p.template d with
      | .error e => .error e
      | .ok t =>
        match templates d ctx rest with
        | .error e => .error e
        | .ok ts => .ok ((f.clause, t) :: ts)

def fillEach : List (Clause × Template) → Draw (List (Clause × Statement))
  | [] => return []
  | (clause, t) :: rest => do
    let s ← t.fill
    let ss ← fillEach rest
    return (clause, s) :: ss

theorem exists_fillEach (ts : List (Clause × Template)) (n : Nat) :
    ∃ parts, fillEach ts n = (.ok parts, n + holeTotal ts) := by
  induction ts generalizing n with
  | nil => exact ⟨[], rfl⟩
  | cons e rest ih =>
    obtain ⟨s, here⟩ := e.2.exists_fill n
    obtain ⟨parts, later⟩ := ih (n + e.2.holeCount)
    refine ⟨(e.1, s) :: parts, ?_⟩
    rw [fillEach, Effect.bind_ok _ here, Effect.bind_ok _ later, holeTotal, ← Nat.add_assoc]
    rfl

theorem fillEach_ok {number : Nat → Nat} {k n : Nat} {ts : List (Clause × Template)}
    (distinct : Function.Injective number)
    (fillable : ∀ o ∈ outlines k ts, Template.Fillable number o.2)
    (follows : Follows number k n (holeTotal ts)) :
    fillEach ts n = (.ok ((outlines k ts).map fun o => (o.1, o.2.fill number)),
      n + holeTotal ts) := by
  induction ts generalizing k n with
  | nil => rfl
  | cons e rest ih =>
    have here := e.2.fill_eq distinct (fillable _ List.mem_cons_self) follows.first
    have later := ih (fun o ho => fillable o (List.mem_cons_of_mem _ ho)) follows.second
    rw [fillEach, Effect.bind_ok _ here, Effect.bind_ok _ later, holeTotal, ← Nat.add_assoc]
    rfl

section Render

variable {d : Sql.Dialect} {ctx : Context} {fs : List Filter}

theorem renderFilters_eq {ts : List (Clause × Template)} (found : templates d ctx fs = .ok ts)
    (n : Nat) : renderFilters d ctx fs n = fillEach ts n := by
  induction fs generalizing ts n with
  | nil =>
    cases found
    rfl
  | cons f rest ih =>
    rw [templates] at found
    have here (x : Option Sql.Predicate) (given : f.predicate? ctx = .ok x) :
        (liftM (f.predicate? ctx) : Draw _) n = (.ok x, n) := by
      rw [given]
      rfl
    cases given : f.predicate? ctx with
    | error e =>
      rw [given] at found
      cases found
    | ok x =>
      rw [renderFilters, Effect.bind_ok _ (here x given)]
      cases x with
      | none =>
        rw [given] at found
        exact ih found n
      | some p =>
        simp only [given] at found
        split at found
        · cases found
        · next t template =>
          split at found
          · cases found
          · next ts' later =>
            cases found
            obtain ⟨s, filled⟩ := t.exists_fill n
            have rendered : p.render d n = (.ok s, n + t.holeCount) := by
              rw [Sql.Predicate.render, template]
              exact filled
            obtain ⟨parts, same⟩ := exists_fillEach ts' (n + t.holeCount)
            have after := (ih later _).trans same
            change (p.render d >>= fun s => renderFilters d ctx rest >>= fun ss =>
              pure ((f.clause, s) :: ss)) n = _
            rw [Effect.bind_ok _ rendered, Effect.bind_ok _ after, fillEach,
              Effect.bind_ok _ filled, Effect.bind_ok _ same]

theorem renderFilters_error {e : Error} (failed : templates d ctx fs = .error e) (n : Nat) :
    ∃ m, renderFilters d ctx fs n = (.error e, m) ∧ n ≤ m := by
  induction fs generalizing n with
  | nil => cases failed
  | cons f rest ih =>
    rw [templates] at failed
    have here (x : Except Error (Option Sql.Predicate)) (given : f.predicate? ctx = x) :
        (liftM (f.predicate? ctx) : Draw _) n = (x, n) := by
      rw [given]
      cases x <;> rfl
    cases given : f.predicate? ctx with
    | error e' =>
      rw [given] at failed
      cases failed
      exact ⟨n, Effect.bind_error _ (here _ given), Nat.le_refl n⟩
    | ok x =>
      rw [renderFilters, Effect.bind_ok _ (here _ given)]
      cases x with
      | none =>
        rw [given] at failed
        exact ih failed n
      | some p =>
        simp only [given] at failed
        change ∃ m, (p.render d >>= fun s => renderFilters d ctx rest >>= fun ss =>
          pure ((f.clause, s) :: ss)) n = (.error e, m) ∧ n ≤ m
        split at failed
        · next e' template =>
          cases failed
          have refused : p.render d n = (.error e, n) := by rw [Sql.Predicate.render, template]
          exact ⟨n, Effect.bind_error _ refused, Nat.le_refl n⟩
        · next t template =>
          obtain ⟨s, filled⟩ := t.exists_fill n
          have rendered : p.render d n = (.ok s, n + t.holeCount) := by
            rw [Sql.Predicate.render, template]
            exact filled
          split at failed
          · next e' later =>
            cases failed
            obtain ⟨m, after, le⟩ := ih later (n + t.holeCount)
            exact ⟨m, by rw [Effect.bind_ok _ rendered, Effect.bind_error _ after], by omega⟩
          · cases failed

end Render

def outlinesOf (clause : Clause) (parts : List (Clause × Outline)) : List Outline :=
  (parts.filter fun e => e.1 == clause).map Prod.snd

def conjunction (os : List Outline) : Outline :=
  if os.isEmpty then ⟨ofText ClauseSql.trivialSql, ∅⟩
  else ⟨Marked.join " AND " (os.map Outline.text),
    (∅ : OrderedMap Name Json).mergeAll (os.map Outline.params)⟩

def restriction (clause : Clause) (parts : List (Clause × Outline)) : List Outline :=
  let o := conjunction (outlinesOf clause parts)
  if o.text = ofText ClauseSql.trivialSql then [] else [o]

section Fill

variable {number : Nat → Nat} (distinct : Function.Injective number)

theorem partsOf_fill (clause : Clause) (parts : List (Clause × Outline)) :
    partsOf clause (parts.map fun o => (o.1, o.2.fill number)) =
      (outlinesOf clause parts).map (Outline.fill number) := by
  simp only [partsOf, outlinesOf, List.filter_map, List.map_map, Function.comp_def]

theorem fill_conjunction_sql (os : List Outline) :
    (ClauseSql.ofParts (os.map (Outline.fill number))).statement.sql =
      ((conjunction os).fill number).sql := by
  cases os with
  | nil => simp [ClauseSql.ofParts, conjunction, Outline.fill]
  | cons o rest =>
    simp only [ClauseSql.ofParts, conjunction, List.map_cons, List.isEmpty_cons, Bool.false_eq_true,
      if_false, Outline.fill]
    rw [← List.map_cons, Marked.fill_join, String.ofList_toList]
    simp only [List.map_cons, List.map_map, Function.comp_def, Outline.fill]

include distinct in
theorem fill_conjunction_params {os : List Outline}
    (clear : ∀ a ∈ (conjunction os).params.keys, a.Clear number) :
    (ClauseSql.ofParts (os.map (Outline.fill number))).statement.params =
      ((conjunction os).fill number).params := by
  cases os with
  | nil => simp [ClauseSql.ofParts, conjunction, Outline.fill]; rfl
  | cons o rest =>
    have inj := fun a b => @Name.text_injective number distinct a b
    simp only [conjunction, List.isEmpty_cons, Bool.false_eq_true, if_false,
      OrderedMap.mem_keys_mergeAll] at clear
    change Sql.Clauses.mergeAll ∅ ((o :: rest).map (Outline.fill number)) =
      ((∅ : OrderedMap Name Json).mergeAll ((o :: rest).map Outline.params)).mapKeys
      (Name.text number)
    rw [Sql.Clauses.mergeAll_eq, OrderedMap.mapKeys_mergeAll _ _ inj, List.map_map, List.map_map]
    · rfl
    · exact fun a ha => absurd ha List.not_mem_nil
    · exact fun m hm a ha => clear a (Or.inr ⟨m, hm, ha⟩)

/-- Whether a condition is trivial does not depend on the numbers in its names. -/
theorem isTrivial_ofParts (os : List Outline) :
    (ClauseSql.ofParts (os.map (Outline.fill number))).isTrivial = true ↔
      (conjunction os).text = ofText ClauseSql.trivialSql := by
  rw [ClauseSql.isTrivial, beq_iff_eq, fill_conjunction_sql, Outline.fill]
  have chars : String.ofList (Marked.fill number (conjunction os).text) = ClauseSql.trivialSql ↔
      Marked.fill number (conjunction os).text = ClauseSql.trivialSql.toList := by
    rw [← String.toList_inj, String.toList_ofList]
  rw [chars]
  exact Marked.fill_eq_iff number (by decide) _

include distinct in
theorem effect_ofParts {clause : Clause} {parts : List (Clause × Outline)}
    (clear : ∀ o ∈ restriction clause parts, ∀ a ∈ o.params.keys, a.Clear number) :
    (ClauseSql.ofParts (partsOf clause (parts.map fun o => (o.1, o.2.fill number)))).effect =
      (restriction clause parts).map (Outline.fill number) := by
  rw [partsOf_fill, ClauseSql.effect]
  have trivially := @isTrivial_ofParts number (outlinesOf clause parts)
  by_cases trivial : (conjunction (outlinesOf clause parts)).text = ofText ClauseSql.trivialSql
  · rw [if_pos (trivially.mpr trivial), restriction, if_pos trivial]
    rfl
  · have mem : conjunction (outlinesOf clause parts) ∈ restriction clause parts := by
      rw [restriction, if_neg trivial]
      exact List.mem_cons_self
    have params := fill_conjunction_params distinct (clear _ mem)
    rw [if_neg (mt trivially.mp trivial), restriction, if_neg trivial, List.map_singleton]
    exact congrArg (fun s : Statement => [s])
      (congrArg₂ Statement.mk (fill_conjunction_sql _) params)

end Fill

theorem mem_outlinesOf {parts : List (Clause × Outline)} {e : Clause × Outline}
    (he : e ∈ parts) :
    e.2 ∈ outlinesOf e.1 parts :=
  List.mem_map_of_mem (List.mem_filter.mpr ⟨he, beq_self_eq_true e.1⟩)

theorem conjunction_of_mem {os : List Outline} {o : Outline} (ho : o ∈ os) :
    conjunction os =
      ⟨Marked.join " AND " (os.map Outline.text),
        (∅ : OrderedMap Name Json).mergeAll (os.map Outline.params)⟩ := by
  cases os with
  | nil => cases ho
  | cons o' rest => rfl

theorem fillable_of_clear {number : Nat → Nat} {parts : List (Clause × Outline)}
    (clear : ∀ clause, ∀ o ∈ restriction clause parts, ∀ a ∈ o.params.keys,
      a.Clear number) :
    ∀ e ∈ parts, Template.Fillable number e.2 := by
  intro e he
  have part := mem_outlinesOf he
  have whole := conjunction_of_mem part
  by_cases trivial : (conjunction (outlinesOf e.1 parts)).text = ofText ClauseSql.trivialSql
  · left
    rw [whole] at trivial
    have none := congrArg Marked.holes trivial
    rw [Marked.holes_join, Marked.holes_ofText, List.flatMap_eq_nil_iff] at none
    exact none _ (List.mem_map_of_mem part)
  · right
    intro a ha
    refine clear e.1 (conjunction (outlinesOf e.1 parts)) ?_ a ?_
    · rw [restriction, if_neg trivial]
      exact List.mem_cons_self
    · rw [whole, OrderedMap.mem_keys_mergeAll]
      exact Or.inr ⟨_, List.mem_map_of_mem part, ha⟩

theorem bound_restriction {clause : Clause} {parts : List (Clause × Outline)}
    (bound : ∀ e ∈ parts, e.2.Bound) : ∀ o ∈ restriction clause parts, o.Bound := by
  intro o ho i
  rw [restriction] at ho
  split at ho
  · cases ho
  · obtain rfl := List.mem_singleton.mp ho
    have parts (o' : Outline) (h : o' ∈ outlinesOf clause parts) : o'.Bound := by
      obtain ⟨e, he, rfl⟩ := List.mem_map.mp h
      exact bound e (List.mem_filter.mp he).1
    rw [conjunction]
    split
    · simp
    · have each := exists_congr fun o' => and_congr_right fun h => parts o' h i
      simpa [Marked.holes_join, List.flatMap_map] using each

theorem worded_restriction {P : Marked → Prop} {T : String → Prop} (w : Weaves P T)
    {clause : Clause} {parts : List (Clause × Outline)} (worded : ∀ e ∈ parts, P e.2.text) :
    ∀ o ∈ restriction clause parts, P o.text := by
  intro o ho
  rw [restriction] at ho
  split at ho
  · cases ho
  · obtain rfl := List.mem_singleton.mp ho
    rw [conjunction]
    split
    · exact w.word (by decide)
    · refine w.join " AND " (by decide) (Sql.startsApart_space "AND ") fun a ha => ?_
      obtain ⟨o', h, rfl⟩ := List.mem_map.mp ha
      obtain ⟨e, he, rfl⟩ := List.mem_map.mp h
      exact worded e (List.mem_filter.mp he).1

section Words

variable {d : Sql.Dialect} {ctx : Context}

theorem neat_new {selector : String} (hs : Neat (ofText selector)) (values : List Json)
    (op : Sql.Operator) : (Sql.Predicate.new selector values op).Worded Neat d :=
  ⟨hs, fun _ hr => (nomatch hr), fun _ ht => (nomatch ht), fun _ _ hr => (nomatch hr)⟩

theorem neat_never {selector : String} (hs : Neat (ofText selector)) :
    (Sql.Predicate.never selector).Worded Neat d := by
  refine ⟨hs, fun _ hr => (nomatch hr), fun _ ht => (nomatch ht),
    fun render t hr rendered k => ?_⟩
  cases hr
  cases rendered
  have word : Neat (ofText "1 = 0") := Marked.weaves_neat.word (by decide)
  simpa [Template.ofText, Template.marked] using word

theorem neat_condition {selector : String} (hs : Neat (ofText selector)) (c : Condition) :
    (c.predicate selector ctx).Worded Neat d := by
  cases c with
  | loggedInUser => exact neat_new hs _ _
  | currentCourse =>
    cases here : ctx.courseId with
    | some id =>
      simp only [Condition.predicate, here]
      exact neat_new hs _ _
    | none =>
      simp only [Condition.predicate, here]
      exact neat_never hs
  | myGroups =>
    rw [Condition.predicate]
    split
    · exact neat_never hs
    · exact neat_new hs _ _
  | enrolledCourses =>
    refine ⟨hs, fun _ hr => (nomatch hr), fun t ht k => ?_, fun _ _ hr => (nomatch hr)⟩
    cases ht
    obtain ⟨s, pieces, closed⟩ : ∃ s, (∀ id, (Condition.enrolments id).pieces =
        [.text s, .hole (.ofInt id)]) ∧ Marked.after .plain (ofText s) = .plain :=
      ⟨_, fun _ => rfl, by decide +kernel⟩
    rw [pieces, Template.marked, Template.marked, Template.marked]
    refine ⟨Marked.apart_ofChars_append _ ⟨closed, trivial, trivial⟩, ?_⟩
    rw [Marked.after_append, closed]
    rfl

theorem neat_predicate {f : Filter} (hs : Neat (ofText f.selector)) {p : Sql.Predicate}
    (given : f.predicate? ctx = .ok (some p)) : p.Worded Neat d := by
  unfold Filter.predicate? Handler.predicate? at given
  split at given
  · simp only [Except.ok.injEq, Option.map_eq_some_iff] at given
    obtain ⟨v, -, rfl⟩ := given
    exact neat_new hs _ _
  · split at given
    · split at given <;> cases given
      exact neat_new hs _ _
    · cases given
  · split at given
    · split at given
      · split at given <;> cases given
        exact neat_new hs _ _
      · cases given
    · cases given
  · simp only [Except.ok.injEq, Option.bind_eq_some_iff] at given
    obtain ⟨v, -, chosen⟩ := given
    unfold Selection.predicate? at chosen
    split at chosen
    · split at chosen
      · cases chosen
      · split at chosen <;> cases chosen
        · exact neat_never hs
        · exact neat_new hs _ _
    · split at chosen <;> cases chosen <;> exact neat_new hs _ _
  · cases given
    exact neat_condition hs _

theorem neat_templates {fs : List Filter} (hs : ∀ f ∈ fs, Neat (ofText f.selector))
    {ts : List (Clause × Template)} (found : templates d ctx fs = .ok ts) (k : Nat) :
    ∀ e ∈ outlines k ts, Neat e.2.text := by
  induction fs generalizing ts k with
  | nil =>
    cases found
    exact fun e he => (nomatch he)
  | cons f rest ih =>
    have later {ts} := @ih (fun g hg => hs g (List.mem_cons_of_mem _ hg)) ts
    rw [templates] at found
    split at found
    · cases found
    · exact later found k
    · next p given =>
      split at found
      · cases found
      · next t template =>
        split at found
        · cases found
        · next ts' remaining =>
          cases found
          have predicate := neat_predicate (d := d) (hs f List.mem_cons_self) given
          intro e he
          rcases List.mem_cons.mp he with rfl | he
          · exact Marked.weaves_neat.template predicate template k
          · exact later remaining _ e he

end Words

section Conditions

variable {d : Sql.Dialect} {c : Collection}

theorem render_outcome (d : Sql.Dialect) (c : Collection) (n : Nat) :
    match templates d c.context c.filters with
    | .ok ts => ∃ x, c.render d n = (.ok x, n + holeTotal ts)
    | .error e => ∃ m, c.render d n = (.error e, m) ∧ n ≤ m := by
  cases found : templates d c.context c.filters with
  | ok ts =>
    obtain ⟨parts, filled⟩ := exists_fillEach ts n
    have rendered := (renderFilters_eq found n).trans filled
    exact ⟨_, Effect.bind_ok _ rendered⟩
  | error e =>
    obtain ⟨m, refused, le⟩ := renderFilters_error found n
    exact ⟨m, Effect.bind_error _ refused, le⟩

/-- Two collections restrict the same, rendered from a counter at `n`. -/
def RestrictsLike (c c' : Collection) (d : Sql.Dialect) (n : Nat) : Prop :=
  ∃ x y m m', c.render d n = (.ok x, m) ∧ c'.render d n = (.ok y, m') ∧ x.effect = y.effect

/-- What filters restrict: the outlines of both clauses, with the numbers of the counter. -/
theorem render_effect {ts : List (Clause × Template)}
    (found : templates d c.context c.filters = .ok ts) {number : Nat → Nat}
    (distinct : Function.Injective number) {n : Nat}
    (clear : ∀ clause, ∀ o ∈ restriction clause (outlines 0 ts), ∀ a ∈ o.params.keys,
      a.Clear number)
    (follows : Follows number 0 n (holeTotal ts)) :
    ∃ x, c.render d n = (.ok x, n + holeTotal ts) ∧
      x.effect = ((restriction .whereClause (outlines 0 ts)).map (Outline.fill number),
        (restriction .havingClause (outlines 0 ts)).map (Outline.fill number)) := by
  have rendered := (renderFilters_eq found n).trans
    (fillEach_ok distinct (fillable_of_clear clear) follows)
  refine ⟨_, Effect.bind_ok _ rendered, ?_⟩
  exact congrArg₂ Prod.mk (effect_ofParts distinct (clear _)) (effect_ofParts distinct (clear _))

end Conditions

end Collection

end Reports.Filter
