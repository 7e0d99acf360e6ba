import Reports.Proofs.Sql.Fragment
import Reports.Proofs.Sql.Holes

/-! Where the parameters of a statement come from: the values that its predicates draw names for,
and the values that its components bind by hand. -/
namespace Reports.Sql

namespace Clauses

/-- The values that a render draws names for, in the order in which it draws them. -/
def drawnValues (d : Dialect) (c : Clauses) : Source → List Json
  | .none => []
  | .table _ _ => c.predicates.flatMap (·.drawnValues d)
  | .derived inner source _ => drawnValues d inner source ++ c.predicates.flatMap (·.drawnValues d)

/-- The fragment of a predicate is written: only when it is empty and the sole condition is WHERE
left out, and its parameters with it. -/
def Shows (c : Clauses) (t : Template) : Prop :=
  Template.marked 0 t.pieces ≠ [] ∨ c.rawWhere ≠ [] ∨ 1 < c.predicates.length

/-- Some component binds the name to the value by hand. -/
inductive Binds (d : Dialect) : Clauses → Source → String → Json → Prop
  | commonTable {c : Clauses} {source : Source} {name : String} {v : Json} {s : Statement} :
    s ∈ c.commonTables.values → (name, v) ∈ s.params.entries → Binds d c source name v
  | source {c inner : Clauses} {source : Source} {correlation name : String} {v : Json} :
    Binds d inner source name v → Binds d c (.derived inner source correlation) name v
  | join {c : Clauses} {source : Source} {name : String} {v : Json} {j : Join} :
    j ∈ c.joins.values → (name, v) ∈ j.params.entries → Binds d c source name v
  | predicate {c : Clauses} {source : Source} {name : String} {v : Json} {p : Predicate}
      {t : Template} :
    p ∈ c.predicates → p.template d = .ok t → c.Shows t → (name, v) ∈ t.params.entries →
      Binds d c source name v
  | rawWhere {c : Clauses} {source : Source} {name : String} {v : Json} {s : Statement} :
    s ∈ c.rawWhere → (name, v) ∈ s.params.entries → Binds d c source name v
  | rawHaving {c : Clauses} {source : Source} {name : String} {v : Json} {s : Statement} :
    s ∈ c.rawHaving → (name, v) ∈ s.params.entries → Binds d c source name v

end Clauses

theorem mem_entries_written {params : Params} {a : Name} {v : Json}
    (mem : (a, v) ∈ (params.mapKeys Name.written).entries) :
    ∃ s, a = .written s ∧ (s, v) ∈ params.entries := by
  obtain ⟨⟨s, w⟩, inside, same⟩ := List.mem_map.mp mem
  cases same
  exact ⟨s, rfl, inside⟩

/-- The name is drawn for a value of a list, the first of which has rank `k`. -/
def DrawnFor (k : Nat) (vs : List Json) (a : Name) (v : Json) : Prop :=
  ∃ j, a = .drawn (k + j) ∧ vs[j]? = some v

theorem DrawnFor.append_right {k : Nat} {vs : List Json} {a : Name} {v : Json}
    (drawn : DrawnFor k vs a v) (ws : List Json) : DrawnFor k (vs ++ ws) a v := by
  obtain ⟨j, rfl, found⟩ := drawn
  obtain ⟨inside, -⟩ := List.getElem?_eq_some_iff.mp found
  exact ⟨j, rfl, by rw [List.getElem?_append_left inside, found]⟩

theorem DrawnFor.append_left {k : Nat} {ws : List Json} {a : Name} {v : Json} (vs : List Json)
    (drawn : DrawnFor (k + vs.length) ws a v) : DrawnFor k (vs ++ ws) a v := by
  obtain ⟨j, rfl, found⟩ := drawn
  refine ⟨vs.length + j, by rw [Nat.add_assoc], ?_⟩
  rw [List.getElem?_append_right (Nat.le_add_right _ _), Nat.add_sub_cancel_left, found]

namespace Template

theorem marked_eq_nil_iff (k k' : Nat) (ps : List Piece) : marked k ps = [] ↔
    marked k' ps = [] := by
  induction ps generalizing k k' with
  | nil => exact Iff.rfl
  | cons p rest ih =>
    cases p with
    | text s => rw [marked, marked, List.append_eq_nil_iff, List.append_eq_nil_iff, ih k k']
    | hole v =>
      exact ⟨fun h => absurd h (List.cons_ne_nil _ _), fun h => absurd h (List.cons_ne_nil _ _)⟩

theorem drawnFor_of_mem_drawn {k : Nat} {ps : List Piece} {a : Name} {v : Json}
    (mem : (a, v) ∈ drawn k ps) : DrawnFor k (holeValues ps) a v := by
  induction ps generalizing k with
  | nil => cases mem
  | cons p rest ih =>
    cases p with
    | text s => exact ih mem
    | hole w =>
      rcases List.mem_cons.mp mem with here | later
      · cases here
        exact ⟨0, rfl, rfl⟩
      · exact DrawnFor.append_left [w] (ih later)

theorem mem_entries_outline {k : Nat} {t : Template} {a : Name} {v : Json}
    (mem : (a, v) ∈ (t.outline k).params.entries) :
    DrawnFor k (holeValues t.pieces) a v ∨ ∃ s, a = .written s ∧
    (s, v) ∈ t.params.entries :=
  (OrderedMap.mem_entries_merge mem).imp drawnFor_of_mem_drawn mem_entries_written

end Template

namespace Clauses

theorem mem_entries_outlines {k : Nat} {ts : List (Conjunction × Template)}
    {e : Conjunction × Outline} (he : e ∈ outlines k ts) {a : Name} {v : Json}
    (mem : (a, v) ∈ e.2.params.entries) :
    DrawnFor k (ts.flatMap fun t => Template.holeValues t.2.pieces) a v ∨
      ∃ s, a = .written s ∧ ∃ t ∈ ts, (s, v) ∈ t.2.params.entries := by
  induction ts generalizing k with
  | nil => cases he
  | cons t rest ih =>
    rcases List.mem_cons.mp he with rfl | later
    · rcases Template.mem_entries_outline mem with drawn | ⟨s, rfl, inside⟩
      · exact Or.inl (drawn.append_right _)
      · exact Or.inr ⟨s, rfl, t, List.mem_cons_self, inside⟩
    · rcases ih later with drawn | ⟨s, rfl, t', ht, inside⟩
      · exact Or.inl (drawn.append_left _)
      · exact Or.inr ⟨s, rfl, t', List.mem_cons_of_mem _ ht, inside⟩

theorem templates_spec {d : Dialect} {ps : List Predicate} {ts : List (Conjunction × Template)}
    (found : templates d ps = .ok ts) :
    (ts.flatMap fun t => Template.holeValues t.2.pieces) = ps.flatMap (·.drawnValues d) ∧
      (∀ t ∈ ts, ∃ p ∈ ps, p.template d = .ok t.2) ∧
      ∀ p ∈ ps, ∃ t, p.template d = .ok t ∧ (p.conjunction, t) ∈ ts := by
  induction ps generalizing ts with
  | nil =>
    cases found
    simp
  | cons p rest ih =>
    obtain ⟨t, ts', template, remaining, rfl⟩ := templates_cons found
    obtain ⟨values, sources, all⟩ := ih remaining
    refine ⟨?_, ?_, ?_⟩
    · rw [List.flatMap_cons, List.flatMap_cons, values, Predicate.holeValues_template template]
    · intro t' ht
      rcases List.mem_cons.mp ht with rfl | later
      · exact ⟨p, List.mem_cons_self, template⟩
      · obtain ⟨q, hq, given⟩ := sources t' later
        exact ⟨q, List.mem_cons_of_mem _ hq, given⟩
    · intro q hq
      rcases List.mem_cons.mp hq with rfl | later
      · exact ⟨t, template, List.mem_cons_self⟩
      · obtain ⟨t', given, ht⟩ := all q later
        exact ⟨t', given, List.mem_cons_of_mem _ ht⟩

theorem holeTotal_eq (ts : List (Conjunction × Template)) :
    holeTotal ts = (ts.flatMap fun t => Template.holeValues t.2.pieces).length := by
  induction ts with
  | nil => rfl
  | cons t rest ih => 
    rw [List.flatMap_cons, List.length_append, ← ih]
    rfl

theorem length_templates {d : Dialect} {ps : List Predicate} {ts : List (Conjunction × Template)}
    (found : templates d ps = .ok ts) : ts.length = ps.length := by
  induction ps generalizing ts with
  | nil =>
    cases found
    rfl
  | cons p rest ih =>
    obtain ⟨t, ts', -, remaining, rfl⟩ := templates_cons found
    rw [List.length_cons, List.length_cons, ih remaining]

theorem conditions_ne_nil_iff {d : Dialect} {c : Clauses} {ts : List (Conjunction × Template)}
    (found : templates d c.predicates = .ok ts) {e : Conjunction × Template}
    (he : e ∈ ts) (k : Nat) :
    conditions (fragments (outlines k ts))
      ((c.rawWhere.map Outline.ofStatement).map Outline.text) ≠ [] ↔
      c.Shows e.2 := by
  have length := length_templates found
  cases ts with
  | nil => cases he
  | cons first rest =>
    cases rest with
    | nil =>
      obtain rfl := List.mem_singleton.mp he
      have alone : ¬ 1 < c.predicates.length := by
        rw [← length]
        exact Nat.lt_irrefl 1
      have silent := Template.marked_eq_nil_iff k 0 e.2.pieces
      by_cases none : Template.marked 0 e.2.pieces = []
      · simp [conditions, fragments, outlines, Template.outline, chained, Shows,
          silent.mpr none, none, alone]
      · have written := mt silent.mp none
        simp [conditions, fragments, outlines, Template.outline, chained, Shows, none, written]
    | cons second rest =>
      have several : 1 < c.predicates.length := by
        rw [← length, List.length_cons, List.length_cons]
        omega
      refine ⟨fun _ => Or.inr (Or.inr several), fun _ none => ?_⟩
      have chain := (List.append_eq_nil_iff.mp (chained_eq_nil_of_conditions none)).2
      simp [outlines, Marked.ofText] at chain

section Weave

variable {c : Clauses} {d : Dialect} {raw having : List Outline} {source : Outline}
  {ps : List (Conjunction × Outline)} {a : Name} {v : Json}

theorem mem_entries_outerParams (mem : (a, v) ∈ (c.outerParams source).entries) :
    (a, v) ∈ source.params.entries ∨
      ∃ s, a = .written s ∧ ((∃ t ∈ c.commonTables.values, (s, v) ∈ t.params.entries) ∨
        ∃ j ∈ c.joins.values, (s, v) ∈ j.params.entries) := by
  rcases OrderedMap.mem_entries_mergeAll mem with before | ⟨n, hn, inside⟩
  · rcases OrderedMap.mem_entries_merge before with tables | inSource
    · rcases OrderedMap.mem_entries_mergeAll tables with none | ⟨n, hn, inside⟩
      · cases none
      · obtain ⟨t, ht, rfl⟩ := List.mem_map.mp hn
        obtain ⟨s, rfl, given⟩ := mem_entries_written inside
        exact Or.inr ⟨s, rfl, Or.inl ⟨t, ht, given⟩⟩
    · exact Or.inl inSource
  · obtain ⟨j, hj, rfl⟩ := List.mem_map.mp hn
    obtain ⟨s, rfl, given⟩ := mem_entries_written inside
    exact Or.inr ⟨s, rfl, Or.inr ⟨j, hj, given⟩⟩

theorem mem_entries_bodyParams (mem : (a, v) ∈ (bodyParams raw ps).entries) :
    (∃ e ∈ ps, (a, v) ∈ e.2.params.entries) ∨
    ∃ o ∈ raw, (a, v) ∈ o.params.entries := by
  rcases OrderedMap.mem_entries_mergeAll mem with parts | ⟨n, hn, inside⟩
  · rcases OrderedMap.mem_entries_mergeAll parts with none | ⟨n, hn, inside⟩
    · cases none
    · obtain ⟨e, he, rfl⟩ := List.mem_map.mp hn
      exact Or.inl ⟨e, he, inside⟩
  · obtain ⟨o, ho, rfl⟩ := List.mem_map.mp hn
    exact Or.inr ⟨o, ho, inside⟩

theorem mem_entries_weave (mem : (a, v) ∈ (c.weave d raw having source ps).params.entries) :
    (a, v) ∈ source.params.entries ∨
      (conditions (fragments ps) (raw.map Outline.text) ≠ [] ∧
        ∃ e ∈ ps, (a, v) ∈ e.2.params.entries) ∨
      (∃ o ∈ raw ++ having, (a, v) ∈ o.params.entries) ∨
      ∃ s, a = .written s ∧ ((∃ t ∈ c.commonTables.values, (s, v) ∈ t.params.entries) ∨
        ∃ j ∈ c.joins.values, (s, v) ∈ j.params.entries) := by
  rw [params_weave, outlineParams] at mem
  have outer (h : (a, v) ∈ (c.outerParams source).entries) := mem_entries_outerParams h
  rcases OrderedMap.mem_entries_mergeAll mem with before | ⟨n, hn, inside⟩
  · split at before
    · exact (outer before).imp_right fun h => Or.inr (Or.inr h)
    · next some =>
      rcases OrderedMap.mem_entries_merge before with given | body
      · exact (outer given).imp_right fun h => Or.inr (Or.inr h)
      · rcases mem_entries_bodyParams body with part | ⟨o, ho, inside⟩
        · exact Or.inr (Or.inl ⟨some, part⟩)
        · exact Or.inr (Or.inr (Or.inl ⟨o, List.mem_append_left _ ho, inside⟩))
  · obtain ⟨o, ho, rfl⟩ := List.mem_map.mp hn
    exact Or.inr (Or.inr (Or.inl ⟨o, List.mem_append_right _ ho, inside⟩))

end Weave

variable {d : Dialect}

theorem mem_entries_of_own {c : Clauses} {source : Source} {ts : List (Conjunction × Template)}
    (found : templates d c.predicates = .ok ts) {k : Nat} {a : Name} {v : Json}
    (own : (conditions (fragments (outlines k ts))
        ((c.rawWhere.map Outline.ofStatement).map Outline.text) ≠ [] ∧
          ∃ e ∈ outlines k ts, (a, v) ∈ e.2.params.entries) ∨
      (∃ o ∈ c.rawWhere.map Outline.ofStatement ++ c.rawHaving.map Outline.ofStatement,
        (a, v) ∈ o.params.entries) ∨
      ∃ s, a = .written s ∧ ((∃ t ∈ c.commonTables.values, (s, v) ∈ t.params.entries) ∨
        ∃ j ∈ c.joins.values, (s, v) ∈ j.params.entries)) :
    DrawnFor k (c.predicates.flatMap (·.drawnValues d)) a v ∨
      ∃ s, a = .written s ∧ c.Binds d source s v := by
  obtain ⟨values, sources, -⟩ := templates_spec found
  rcases own with ⟨some, e, he, inside⟩ | ⟨o, ho, inside⟩ |
    ⟨s, rfl, ⟨t, ht, given⟩ | ⟨j, hj, given⟩⟩
  · rcases mem_entries_outlines he inside with drawn | ⟨s, rfl, t, ht, given⟩
    · exact Or.inl (values ▸ drawn)
    · obtain ⟨p, hp, template⟩ := sources t ht
      have shows := (conditions_ne_nil_iff found ht k).mp some
      exact Or.inr ⟨s, rfl, .predicate hp template shows given⟩
  · rcases List.mem_append.mp ho with inWhere | inHaving
    · obtain ⟨r, hr, rfl⟩ := List.mem_map.mp inWhere
      obtain ⟨s, rfl, given⟩ := mem_entries_written inside
      exact Or.inr ⟨s, rfl, .rawWhere hr given⟩
    · obtain ⟨r, hr, rfl⟩ := List.mem_map.mp inHaving
      obtain ⟨s, rfl, given⟩ := mem_entries_written inside
      exact Or.inr ⟨s, rfl, .rawHaving hr given⟩
  · exact Or.inr ⟨s, rfl, .commonTable ht given⟩
  · exact Or.inr ⟨s, rfl, .join hj given⟩

theorem length_drawnValues {c : Clauses} {source : Source} {raw having : List Outline} {k h : Nat}
    {o : Outline} (outlined : c.outlineOver d raw having k source = .ok (o, h)) :
    h = (c.drawnValues d source).length := by
  induction source generalizing c raw having k h o with
  | none => exact absurd outlined outlineOver_none
  | table name correlation =>
    obtain ⟨ts, found, -, rfl⟩ := outlineOver_table outlined
    rw [holeTotal_eq, (templates_spec found).1]
    rfl
  | derived inner source correlation ih =>
    obtain ⟨o', h', ts, within, found, -, rfl⟩ := outlineOver_derived outlined
    rw [drawnValues, List.length_append, ← ih within, holeTotal_eq, (templates_spec found).1]

theorem mem_entries_outlineOver {c : Clauses} {source : Source} {k h : Nat} {o : Outline}
    (outlined : c.outlineOver d (c.rawWhere.map .ofStatement) (c.rawHaving.map .ofStatement) k
      source = .ok (o, h)) {a : Name} {v : Json} (mem : (a, v) ∈ o.params.entries) :
    DrawnFor k (c.drawnValues d source) a v ∨ ∃ s, a = .written s ∧ c.Binds d source s v := by
  induction source generalizing c k h o with
  | none => exact absurd outlined outlineOver_none
  | table name correlation =>
    obtain ⟨ts, found, rfl, -⟩ := outlineOver_table outlined
    rcases mem_entries_weave mem with table | own
    · cases table
    · exact mem_entries_of_own found own
  | derived inner source correlation ih =>
    obtain ⟨o', h', ts, within, found, rfl, -⟩ := outlineOver_derived outlined
    rcases mem_entries_weave mem with inSource | own
    · rcases ih within inSource with drawn | ⟨s, rfl, binds⟩
      · exact Or.inl (drawn.append_right _)
      · exact Or.inr ⟨s, rfl, .source binds⟩
    · rw [length_drawnValues within] at own
      exact (mem_entries_of_own found own).imp_left fun drawn => drawn.append_left _

end Clauses

namespace Clauses

variable {d : Dialect}

theorem written_mem_keys {params : Params} {s : String} {v : Json}
    (given : (s, v) ∈ params.entries) :
    .written s ∈ (params.mapKeys Name.written).keys := by
  rw [OrderedMap.keys_mapKeys]
  exact List.mem_map_of_mem (List.mem_map_of_mem (f := Prod.fst) given)

theorem written_mem_keys_outline {t : Template} {s : String} {v : Json}
    (given : (s, v) ∈ t.params.entries) (k : Nat) : .written s ∈ (t.outline k).params.keys := by
  rw [Template.outline, OrderedMap.mem_keys_merge]
  exact Or.inr (written_mem_keys given)

theorem mem_outlines {k : Nat} {ts : List (Conjunction × Template)} {t : Conjunction × Template}
    (ht : t ∈ ts) : ∃ k', (t.1, t.2.outline k') ∈ outlines k ts := by
  induction ts generalizing k with
  | nil => cases ht
  | cons t' rest ih =>
    rcases List.mem_cons.mp ht with rfl | later
    · exact ⟨k, List.mem_cons_self⟩
    · obtain ⟨k', inside⟩ := ih (k := k + t'.2.holeCount) later
      exact ⟨k', List.mem_cons_of_mem _ inside⟩

theorem mem_keys_of_binds {c : Clauses} {source : Source} {s : String} {v : Json}
    (binds : c.Binds d source s v) {k h : Nat} {o : Outline}
      (outlined : c.outlineOver d (c.rawWhere.map .ofStatement)
        (c.rawHaving.map .ofStatement) k source = .ok (o, h)) : .written s ∈ o.params.keys := by
  induction binds generalizing k h o with
  | source binds ih =>
    obtain ⟨o', h', ts, within, found, rfl, -⟩ := outlineOver_derived outlined
    have inside := ih within
    rw [params_weave, mem_keys_outlineParams, outerParams, OrderedMap.mem_keys_mergeAll,
      OrderedMap.mem_keys_merge]
    exact Or.inl (Or.inl (Or.inr inside))
  | commonTable hs given =>
    obtain ⟨o', k', ts, -, rfl⟩ := outlineOver_weave outlined
    rw [params_weave, mem_keys_outlineParams, outerParams, OrderedMap.mem_keys_mergeAll,
      OrderedMap.mem_keys_merge, OrderedMap.mem_keys_mergeAll]
    exact Or.inl (Or.inl (Or.inl (Or.inr ⟨_, List.mem_map_of_mem hs, written_mem_keys given⟩)))
  | join hj given =>
    obtain ⟨o', k', ts, -, rfl⟩ := outlineOver_weave outlined
    rw [params_weave, mem_keys_outlineParams, outerParams, OrderedMap.mem_keys_mergeAll]
    exact Or.inl (Or.inr ⟨_, List.mem_map_of_mem hj, written_mem_keys given⟩)
  | predicate hp template shows given =>
    obtain ⟨o', k', ts, found, rfl⟩ := outlineOver_weave outlined
    obtain ⟨t, same, ht⟩ := (templates_spec found).2.2 _ hp
    rw [template, Except.ok.injEq] at same
    subst same
    obtain ⟨k'', inside⟩ := mem_outlines (k := k') ht
    have some := (conditions_ne_nil_iff found ht k').mpr shows
    have bound := written_mem_keys_outline given k''
    rw [params_weave, mem_keys_outlineParams, bodyParams, OrderedMap.mem_keys_mergeAll,
      OrderedMap.mem_keys_mergeAll]
    exact Or.inr (Or.inl ⟨some, Or.inl (Or.inr ⟨_, List.mem_map_of_mem inside, bound⟩)⟩)
  | rawWhere hs given =>
    obtain ⟨o', k', ts, -, rfl⟩ := outlineOver_weave outlined
    have inside := List.mem_map_of_mem (f := Outline.ofStatement) hs
    have some := conditions_ne_nil_of_raw (fragments (outlines k' ts))
      (List.ne_nil_of_mem (List.mem_map_of_mem (f := Outline.text) inside))
    rw [params_weave, mem_keys_outlineParams, bodyParams, OrderedMap.mem_keys_mergeAll]
    exact Or.inr
      (Or.inl ⟨some, Or.inr ⟨_, List.mem_map_of_mem inside, written_mem_keys given⟩⟩)
  | rawHaving hs given =>
    obtain ⟨o', k', ts, -, rfl⟩ := outlineOver_weave outlined
    rw [params_weave, mem_keys_outlineParams]
    exact Or.inr (Or.inr ⟨_, List.mem_map_of_mem hs, written_mem_keys given⟩)

end Clauses

end Reports.Sql
