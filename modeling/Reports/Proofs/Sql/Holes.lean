import Reports.Proofs.Sql.Outline

/-! The holes of an outline: each is bound, and they are numbered from left to right. -/
namespace Reports.Sql

namespace Marked

theorem holes_join (sep : String) (as : List Marked) : (join sep as).holes = as.flatMap holes := by
  induction as with
  | nil => rfl
  | cons a rest ih =>
    cases rest with
    | nil => simp [join]
    | cons b rest => simp [join, ih]

end Marked

/-- The names bound for holes are those of the holes in the text. -/
def Outline.Bound (o : Outline) : Prop := ∀ i, .drawn i ∈ o.params.keys ↔ i ∈ o.text.holes

theorem not_drawn_mem_written (params : Params) (i : Nat) :
    .drawn i ∉ (params.mapKeys Name.written).keys := by
  simp [OrderedMap.keys_mapKeys]

theorem Outline.bound_ofStatement (s : Statement) : (ofStatement s).Bound := by
  intro i
  simp [ofStatement, not_drawn_mem_written]

namespace Template

theorem mem_keys_drawn (k : Nat) (ps : List Piece) (a : Name) :
    a ∈ (⟨drawn k ps⟩ : OrderedMap Name Json).keys ↔
    ∃ i ∈ (marked k ps).holes, a = .drawn i := by
  induction ps generalizing k with
  | nil => simp [OrderedMap.keys, drawn, marked, Marked.holes]
  | cons p rest ih =>
    have later := ih
    simp only [OrderedMap.keys] at later
    cases p with
    | text s => simp [OrderedMap.keys, drawn, marked, later]
    | hole v => simp [OrderedMap.keys, drawn, marked, Marked.holes, later]

theorem bound_outline (k : Nat) (t : Template) : (t.outline k).Bound := by
  intro i
  rw [outline, OrderedMap.mem_keys_merge, mem_keys_drawn]
  simp [not_drawn_mem_written]

end Template

namespace Clauses

open Marked (ofText holes)

theorem holes_chained (parts : List (Conjunction × Marked)) :
    (chained parts).holes = parts.flatMap fun e => e.2.holes := by
  cases parts with
  | nil => rfl
  | cons e rest =>
    rw [chained, Marked.holes_append, List.flatMap_cons]
    congr 1
    induction rest with
    | nil => rfl
    | cons e rest ih =>
      rw [List.flatMap_cons, Marked.holes_append, Marked.holes_append, Marked.holes_ofText, ih]
      rfl

@[simp] theorem holes_parenthesized (a : Marked) : (parenthesized a).holes = a.holes := by
  simp [parenthesized]

theorem holes_conditions (parts : List (Conjunction × Marked)) (raw : List Marked) :
    (conditions parts raw).flatMap holes = (parts.flatMap fun e => e.2.holes) ++
    raw.flatMap holes := by
  have tail : (raw.map parenthesized).flatMap holes = raw.flatMap holes := by
    simp [List.flatMap_map]
  rw [conditions, List.flatMap_append, tail, ← holes_chained]
  by_cases none : chained parts = []
  · simp [none, Marked.holes]
  · by_cases alternatives : hasOr (parts.map fun e => (e.1, "")) = true
    · simp [none, alternatives]
    · simp [none, alternatives]

theorem holes_conditionText (parts : List (Conjunction × Marked)) (raw : List Marked) :
    (conditionText parts raw).holes = (parts.flatMap fun e => e.2.holes) ++ raw.flatMap holes := by
  rw [← holes_conditions]
  unfold conditionText
  split
  · next none => rw [none]; rfl
  · simp [Marked.holes_join]

theorem holes_havingText (raw : List Marked) : (havingText raw).holes = raw.flatMap holes := by
  unfold havingText
  split
  · next none => rw [none]; rfl
  · simp [Marked.holes_join, List.flatMap_map]

variable {c : Clauses} {d : Dialect} {raw having : List Outline} {source : Outline}
  {ps : List (Conjunction × Outline)}

theorem holes_weave : (c.weave d raw having source ps).text.holes =
    source.text.holes ++ (ps.flatMap fun e => e.2.text.holes) ++
      (raw.flatMap fun o => o.text.holes) ++ having.flatMap fun o => o.text.holes := by
  rw [text_weave, TableRef.holes_expandMarked, outlineText]
  simp [holes_conditionText, holes_havingText, fragments, List.flatMap_map]

theorem drawn_mem_outerParams (i : Nat) :
    .drawn i ∈ (c.outerParams source).keys ↔ .drawn i ∈ source.params.keys := by
  simp [outerParams, not_drawn_mem_written]

theorem bound_weave (hs : source.Bound) (hp : ∀ e ∈ ps, e.2.Bound) (hr : ∀ o ∈ raw, o.Bound)
    (hh : ∀ o ∈ having, o.Bound) : (c.weave d raw having source ps).Bound := by
  intro i
  rw [holes_weave, params_weave, mem_keys_outlineParams, drawn_mem_outerParams, hs i]
  have inHaving : (∃ o ∈ having, Name.drawn i ∈ o.params.keys) ↔
      i ∈ having.flatMap fun o => o.text.holes := by
    rw [List.mem_flatMap]
    exact exists_congr fun o => and_congr_right fun ho => hh o ho i
  have inBody : Name.drawn i ∈ (bodyParams raw ps).keys ↔
      i ∈ (ps.flatMap fun e => e.2.text.holes) ∨ i ∈ raw.flatMap fun o => o.text.holes := by
    have parts : (∃ e ∈ ps, Name.drawn i ∈ e.2.params.keys) ↔
        ∃ e ∈ ps, i ∈ e.2.text.holes :=
      exists_congr fun e => and_congr_right fun he => hp e he i
    have raws : (∃ o ∈ raw, Name.drawn i ∈ o.params.keys) ↔
        ∃ o ∈ raw, i ∈ o.text.holes :=
      exists_congr fun o => and_congr_right fun ho => hr o ho i
    rw [List.mem_flatMap, List.mem_flatMap, ← parts, ← raws]
    simp [bodyParams]
  rw [inHaving, inBody, List.mem_append, List.mem_append, List.mem_append]
  by_cases none : conditions (fragments ps) (raw.map Outline.text) = []
  · -- without conditions no fragment has a hole, so no binding is lost
    have empty := holes_conditions (fragments ps) (raw.map Outline.text)
    rw [none, fragments, List.flatMap_map, List.flatMap_map] at empty
    obtain ⟨parts, raws⟩ := List.append_eq_nil_iff.mp empty.symm
    simp [none, parts, raws]
  · simp [none, or_assoc]

theorem bound_outlines {τ : Type} (k : Nat) (ts : List (τ × Template)) :
    ∀ e ∈ outlines k ts, e.2.Bound := by
  induction ts generalizing k with
  | nil => exact fun e he => absurd he List.not_mem_nil
  | cons t rest ih =>
    intro e he
    rcases List.mem_cons.mp he with rfl | he
    · exact t.2.bound_outline k
    · exact ih _ e he

theorem holes_outlines {τ : Type} (k : Nat) (ts : List (τ × Template)) :
    ((outlines k ts).flatMap fun e => e.2.text.holes) = List.range' k (holeTotal ts) := by
  induction ts generalizing k with
  | nil => rfl
  | cons t rest ih =>
    have here : (t.2.outline k).text.holes = List.range' k t.2.holeCount :=
      Template.holes_marked k t.2.pieces
    rw [outlines, List.flatMap_cons, here, ih, List.range'_append_1]
    rfl

theorem bound_written (ss : List Statement) : ∀ o ∈ ss.map Outline.ofStatement, o.Bound := by
  intro o ho
  obtain ⟨s, -, rfl⟩ := List.mem_map.mp ho
  exact Outline.bound_ofStatement s

theorem bound_outlineOver {c : Clauses} {raw having : List Outline} {source : Source} {k h : Nat}
    {o : Outline} (hr : ∀ o ∈ raw, o.Bound) (hh : ∀ o ∈ having, o.Bound)
    (outlined : c.outlineOver d raw having k source = .ok (o, h)) : o.Bound := by
  induction source generalizing c raw having k h o with
  | none => exact absurd outlined outlineOver_none
  | table name correlation =>
    obtain ⟨ts, found, rfl, -⟩ := outlineOver_table outlined
    exact bound_weave (Outline.bound_ofStatement _) (bound_outlines k ts) hr hh
  | derived inner source correlation ih =>
    obtain ⟨o', h', ts, within, found, rfl, -⟩ := outlineOver_derived outlined
    have bound := ih (bound_written _) (bound_written _) within
    refine bound_weave (fun i => ?_) (bound_outlines _ ts) hr hh
    simpa [derivedTable] using bound i

theorem holes_written (ss : List Statement) :
    ((ss.map Outline.ofStatement).flatMap fun o => o.text.holes) = [] := by
  simp [Outline.ofStatement, List.flatMap_map]

/-- The names drawn for predicates stand in the order in which they were drawn, each once. -/
theorem holes_outlineOver {c : Clauses} {raw having : List Outline} {source : Source} {k h : Nat}
    {o : Outline} (outlined : c.outlineOver d raw having k source = .ok (o, h)) :
    o.text.holes = List.range' k h ++ (raw.flatMap fun o => o.text.holes) ++
      having.flatMap fun o => o.text.holes := by
  induction source generalizing c raw having k h o with
  | none => exact absurd outlined outlineOver_none
  | table name correlation =>
    obtain ⟨ts, found, rfl, rfl⟩ := outlineOver_table outlined
    rw [holes_weave, Outline.ofStatement, Marked.holes_ofText, List.nil_append, holes_outlines]
  | derived inner source correlation ih =>
    obtain ⟨o', h', ts, within, found, rfl, rfl⟩ := outlineOver_derived outlined
    have inside := ih within
    rw [holes_written, holes_written, List.append_nil, List.append_nil] at inside
    rw [holes_weave, derivedTable, Marked.holes_append, Marked.holes_ofText, holes_parenthesized,
      inside, List.append_nil, holes_outlines, List.range'_append_1]

end Clauses

theorem Query.bound_outline {q : Query} {d : Dialect} {o : Outline} {h : Nat}
    (outlined : q.outline d = .ok (o, h)) : o.Bound :=
  Clauses.bound_outlineOver (Clauses.bound_written _) (Clauses.bound_written _) outlined

end Reports.Sql
