import Reports.Proofs.Effect
import Reports.Proofs.Sql.Expansion
import Reports.Sql.Rendering

/-! The outline of a query: what rendering writes, before names are drawn. A render is its outline
filled with the numbers that the counter gives, whatever they are. -/
namespace Reports.Sql

/-- The numbers of the `h` names from rank `k` on are those a counter at `n` gives next. -/
def Follows (number : Nat → Nat) (k n h : Nat) : Prop := ∀ i < h, number (k + i) = n + i + 1

namespace Follows

variable {number : Nat → Nat} {k n h h' : Nat}

theorem first (follows : Follows number k n (h + h')) : Follows number k n h := fun i hi =>
  follows i (by omega)

theorem second (follows : Follows number k n (h + h')) : Follows number (k + h) (n + h) h' := by
  intro i hi
  have here := follows (h + i) (by omega)
  rw [← Nat.add_assoc] at here
  omega

end Follows

namespace Template

/-- The text of pieces whose first hole has rank `k`. -/
def marked (k : Nat) : List Piece → Marked
  | [] => []
  | .text s :: rest => .ofText s ++ marked k rest
  | .hole _ :: rest => .hole k :: marked (k + 1) rest

def drawn (k : Nat) : List Piece → List (Name × Json)
  | [] => []
  | .text _ :: rest => drawn k rest
  | .hole v :: rest => (.drawn k, v) :: drawn (k + 1) rest

def holeValues : List Piece → List Json
  | [] => []
  | .text _ :: rest => holeValues rest
  | .hole v :: rest => v :: holeValues rest

def holeCount (t : Template) : Nat := (holeValues t.pieces).length

def outline (k : Nat) (t : Template) : Outline :=
  ⟨marked k t.pieces, (⟨drawn k t.pieces⟩ : OrderedMap Name Json).merge
    (t.params.mapKeys .written)⟩

theorem fillPieces_eq {number : Nat → Nat} {k n : Nat} (ps : List Piece)
    (follows : Follows number k n (holeValues ps).length) :
    fillPieces n ps =
      (⟨String.ofList ((marked k ps).fill number),
        (⟨drawn k ps⟩ : OrderedMap Name Json).mapKeys (Name.text number)⟩,
        n + (holeValues ps).length) := by
  induction ps generalizing k n with
  | nil => rfl
  | cons p rest ih =>
    cases p with
    | text s =>
      rw [fillPieces, ih follows]
      simp only [marked, drawn, holeValues, Marked.fill_append, Marked.fill_ofText,
        String.ofList_append, String.ofList_toList]
    | hole v =>
      have here : number k = n + 1 := follows 0 (Nat.succ_pos _)
      have later : Follows number (k + 1) (n + 1) (holeValues rest).length :=
        Follows.second (Nat.add_comm _ _ ▸ follows)
      rw [fillPieces, ih later]
      simp only [marked, drawn, holeValues, Marked.fill, OrderedMap.mapKeys, List.map_cons,
        Name.text_drawn, here, String.ofList_append, String.ofList_cons, String.ofList_toList,
        List.length_cons, Prod.mk.injEq]
      exact ⟨rfl, by omega⟩

/-- An outline can be filled when no name in it is a placeholder name by accident; one that draws
nothing always can. -/
def Fillable (number : Nat → Nat) (o : Outline) : Prop :=
  o.text.holes = [] ∨ ∀ a ∈ o.params.keys, a.Clear number

theorem holes_marked (k : Nat) (ps : List Piece) :
    (marked k ps).holes = List.range' k (holeValues ps).length := by
  induction ps generalizing k with
  | nil => rfl
  | cons p rest ih => cases p <;> simp [marked, holeValues, Marked.holes, ih, List.range'_succ]

theorem marked_append (k : Nat) (ps qs : List Piece) :
    marked k (ps ++ qs) = marked k ps ++ marked (k + (holeValues ps).length) qs := by
  induction ps generalizing k with
  | nil => rfl
  | cons p rest ih => cases p <;> simp [marked, holeValues, ih, Nat.add_assoc, Nat.add_comm 1]

theorem drawn_of_holes_eq_nil {k : Nat} {ps : List Piece} (none : (marked k ps).holes = []) :
    drawn k ps = [] := by
  induction ps with
  | nil => rfl
  | cons p rest ih =>
    cases p with
    | text s => exact ih (by simpa [marked] using none)
    | hole v => cases none

theorem mapKeys_outline {number : Nat → Nat} {k : Nat} (t : Template)
    (distinct : Function.Injective number) (fillable : Fillable number (t.outline k)) :
    (t.outline k).params.mapKeys (Name.text number) =
      ((⟨drawn k t.pieces⟩ : OrderedMap Name Json).mapKeys (Name.text number)).merge
        t.params := by
  have back : (t.params.mapKeys Name.written).mapKeys (Name.text number) = t.params :=
    OrderedMap.mapKeys_mapKeys_id _ _ _ fun _ => rfl
  rcases fillable with none | clear
  · have inj : ∀ a b : Name, (∃ r, a = .written r) → (∃ s, b = .written s) →
        a.text number = b.text number → a = b := by
      rintro _ _ ⟨r, rfl⟩ ⟨s, rfl⟩ same
      exact congrArg Name.written same
    have written : ∀ a ∈ (t.params.mapKeys Name.written).keys, ∃ r, a = .written r := by
      intro a ha
      rw [OrderedMap.keys_mapKeys, List.mem_map] at ha
      obtain ⟨r, -, rfl⟩ := ha
      exact ⟨r, rfl⟩
    have merged := OrderedMap.mapKeys_merge (Name.text number) _ inj ⟨drawn k t.pieces⟩
      (t.params.mapKeys .written)
      (by rw [drawn_of_holes_eq_nil none]; exact fun a ha => absurd ha List.not_mem_nil) written
    rw [outline, merged, back]
  · have merged := OrderedMap.mapKeys_merge (Name.text number) (Name.Clear number)
      (fun _ _ => Name.text_injective distinct) ⟨drawn k t.pieces⟩ (t.params.mapKeys .written)
      (fun a ha => clear a ((OrderedMap.mem_keys_merge _ _ _).mpr (Or.inl ha)))
      (fun a ha => clear a ((OrderedMap.mem_keys_merge _ _ _).mpr (Or.inr ha)))
    rw [outline, merged, back]

theorem fill_eq {number : Nat → Nat} {k n : Nat} (t : Template)
    (distinct : Function.Injective number) (fillable : Fillable number (t.outline k))
    (follows : Follows number k n t.holeCount) :
    t.fill n = (.ok ((t.outline k).fill number), n + t.holeCount) := by
  rw [Template.fill, fillPieces_eq t.pieces follows, Outline.fill,
    t.mapKeys_outline distinct fillable]
  rfl

theorem exists_fill (t : Template) (n : Nat) : ∃ s, t.fill n = (.ok s, n + t.holeCount) := by
  have follows : Follows (fun i => n + i + 1) 0 n (holeValues t.pieces).length := fun i _ => by
    simp
  rw [Template.fill, fillPieces_eq t.pieces follows]
  exact ⟨_, rfl⟩

end Template

namespace Clauses

def templates (d : Dialect) : List Predicate → Except Error (List (Conjunction × Template))
  | [] => .ok []
  | p :: rest =>
    match p.template d with
    | .error e => .error e
    | .ok t =>
      match templates d rest with
      | .error e => .error e
      | .ok ts => .ok ((p.conjunction, t) :: ts)

theorem templates_cons {d : Dialect} {p : Predicate} {rest : List Predicate}
    {ts : List (Conjunction × Template)} (found : templates d (p :: rest) = .ok ts) :
    ∃ t ts', p.template d = .ok t ∧ templates d rest = .ok ts' ∧
    ts = (p.conjunction, t) :: ts' := by
  rw [templates] at found
  split at found
  · cases found
  · next t template =>
    split at found
    · cases found
    · next ts' later =>
      cases found
      exact ⟨t, ts', template, later, rfl⟩

def outlines {τ : Type} (k : Nat) : List (τ × Template) → List (τ × Outline)
  | [] => []
  | (c, t) :: rest => (c, t.outline k) :: outlines (k + t.holeCount) rest

def holeTotal {τ : Type} : List (τ × Template) → Nat
  | [] => 0
  | (_, t) :: rest => t.holeCount + holeTotal rest

theorem renderPredicates_ok {d : Dialect} {number : Nat → Nat} {k n : Nat} {ps : List Predicate}
    {ts : List (Conjunction × Template)} (rendered : templates d ps = .ok ts)
    (distinct : Function.Injective number)
    (fillable : ∀ o ∈ outlines k ts, Template.Fillable number o.2)
    (follows : Follows number k n (holeTotal ts)) :
    renderPredicates d ps n =
      (.ok ((outlines k ts).map fun o => (o.1, o.2.fill number)), n + holeTotal ts) := by
  induction ps generalizing k n ts with
  | nil =>
    cases rendered
    rfl
  | cons p rest ih =>
    obtain ⟨t, ts', template, remaining, rfl⟩ := templates_cons rendered
    have here : p.render d n = (.ok ((t.outline k).fill number), n + t.holeCount) := by
      rw [Predicate.render, template]
      exact t.fill_eq distinct (fillable _ List.mem_cons_self) follows.first
    have after := ih remaining (fun o ho => fillable o (List.mem_cons_of_mem _ ho)) follows.second
    rw [renderPredicates, Effect.bind_ok _ here, Effect.bind_ok _ after]
    simp only [outlines, holeTotal, List.map_cons, Nat.add_assoc]
    rfl

/-- Predicates fail to render exactly when one of them has no template. -/
theorem renderPredicates_outcome (d : Dialect) (ps : List Predicate) (n : Nat) :
    match templates d ps with
    | .ok _ => ∃ rs m, renderPredicates d ps n = (.ok rs, m) ∧ n ≤ m
    | .error e => ∃ m, renderPredicates d ps n = (.error e, m) ∧ n ≤ m := by
  induction ps generalizing n with
  | nil => exact ⟨[], n, rfl, Nat.le_refl n⟩
  | cons p rest ih =>
    rw [templates]
    cases found : p.template d with
    | error e =>
      have here : p.render d n = (.error e, n) := by rw [Predicate.render, found]
      exact ⟨n, Effect.bind_error _ here, Nat.le_refl n⟩
    | ok t =>
      obtain ⟨s, here⟩ : ∃ s, p.render d n = (.ok s, n + t.holeCount) := by
        rw [Predicate.render, found]
        exact t.exists_fill n
      have later := ih (n + t.holeCount)
      cases remaining : templates d rest with
      | error e =>
        rw [remaining] at later
        obtain ⟨m, after, le⟩ := later
        exact ⟨m,
          by rw [renderPredicates, Effect.bind_ok _ here, Effect.bind_error _ after], by omega⟩
      | ok ts =>
        rw [remaining] at later
        obtain ⟨rs, m, after, le⟩ := later
        exact ⟨_, m, by rw [renderPredicates, Effect.bind_ok _ here, Effect.bind_ok _ after]; rfl,
          by omega⟩

open Marked (ofText)

def chained : List (Conjunction × Marked) → Marked
  | [] => []
  | (_, a) :: rest => a ++ rest.flatMap fun e => ofText (" " ++ e.1.sql ++ " ") ++ e.2

def parenthesized (a : Marked) : Marked := ofText "(" ++ a ++ ofText ")"

def conditions (parts : List (Conjunction × Marked)) (raw : List Marked) : List Marked :=
  (if chained parts = [] then []
    else [if hasOr (parts.map fun e => (e.1, "")) then parenthesized (chained parts)
      else chained parts]) ++ raw.map parenthesized

def conditionText (parts : List (Conjunction × Marked)) (raw : List Marked) : Marked :=
  if conditions parts raw = [] then []
  else ofText " WHERE " ++ Marked.join " AND " (conditions parts raw)

def havingText (raw : List Marked) : Marked :=
  if raw = [] then [] else ofText " HAVING " ++ Marked.join " AND " (raw.map parenthesized)

section Fill

variable (number : Nat → Nat)

def filled (a : Marked) : String := String.ofList (a.fill number)

@[simp] theorem toList_filled (a : Marked) : (filled number a).toList = a.fill number :=
  String.toList_ofList

@[simp] theorem filled_nil : filled number [] = "" := rfl

@[simp] theorem filled_append (a b : Marked) :
    filled number (a ++ b) = filled number a ++ filled number b := by
  simp [filled]

@[simp] theorem filled_ofText (s : String) : filled number (ofText s) = s := by
  simp [filled]

theorem filled_join (sep : String) (as : List Marked) :
    filled number (Marked.join sep as) = Text.join sep (as.map (filled number)) := by
  rw [filled, Marked.fill_join, String.ofList_toList]
  rfl

theorem filled_chained (parts : List (Conjunction × Marked)) :
    filled number (chained parts) = chain (parts.map fun e => (e.1, filled number e.2)) := by
  cases parts with
  | nil => rfl
  | cons e rest =>
    simp only [chained, chain, List.map_cons, filled_append, String.append_right_inj]
    induction rest with
    | nil => rfl
    | cons e rest ih =>
      rw [List.flatMap_cons, filled_append, filled_append, filled_ofText, ih, List.map_cons,
        List.map_cons, String.join_cons]

theorem hasOr_map (parts : List (Conjunction × Marked)) :
    hasOr (parts.map fun e => (e.1, filled number e.2)) =
      hasOr (parts.map fun e => (e.1, "")) := by
  simp [hasOr, ← List.map_tail, List.any_map, Function.comp_def]

theorem filled_parenthesized (a : Marked) :
    filled number (parenthesized a) = "(" ++ filled number a ++ ")" := by
  rw [parenthesized, filled_append, filled_append, filled_ofText, filled_ofText]

theorem filled_conditions (parts : List (Conjunction × Marked)) (raw : List Outline) :
    (conditions parts (raw.map Outline.text)).map (filled number) =
      whereParts (parts.map fun e => (e.1, filled number e.2)) (raw.map (Outline.fill number)) := by
  have empty : (filled number (chained parts)).isEmpty = true ↔ chained parts = [] := by
    rw [String.isEmpty_iff, ← String.toList_eq_nil_iff, toList_filled, Marked.fill_eq_nil_iff]
  have tails : (raw.map Outline.text).map (fun a => filled number (parenthesized a)) =
      (raw.map (Outline.fill number)).map fun r => "(" ++ r.sql ++ ")" := by
    simp only [List.map_map, Function.comp_def, filled_parenthesized]
    rfl
  rw [whereParts, ← filled_chained, hasOr_map, ← tails]
  by_cases none : chained parts = []
  · simp [conditions, none, Function.comp_def]
  · have some : ¬(filled number (chained parts)).isEmpty = true := mt empty.mp none
    by_cases alternatives : hasOr (parts.map fun e => (e.1, "")) = true
    · simp [conditions, none, some, alternatives, Function.comp_def, filled_parenthesized]
    · simp [conditions, none, some, alternatives, Function.comp_def]

theorem filled_havingText (c : Clauses) (raw : List Outline)
    (same : c.rawHaving = raw.map (Outline.fill number)) :
    filled number (havingText (raw.map Outline.text)) = c.havingSql := by
  rw [havingSql, same]
  cases raw with
  | nil => rfl
  | cons r rest =>
    have parts : ((r :: rest).map Outline.text).map (fun a => filled number (parenthesized a)) =
        ((r :: rest).map (Outline.fill number)).map fun s => "(" ++ s.sql ++ ")" := by
      simp only [List.map_map, Function.comp_def, filled_parenthesized]
      rfl
    rw [← parts]
    simp [havingText, filled_join, Function.comp_def]

end Fill

def head (c : Clauses) : String :=
  c.withClause ++ "SELECT " ++ (if c.emitsDistinct then "DISTINCT " else "") ++ c.selectList ++
    " FROM "

section Weave

variable (c : Clauses) (d : Dialect) (raw having : List Outline) (source : Outline)
  (ps : List (Conjunction × Outline))

def fragments : List (Conjunction × Marked) := ps.map fun e => (e.1, e.2.text)

def outlineText : Marked :=
  ofText c.head ++ source.text ++ ofText c.joinsSql ++
    conditionText (fragments ps) (raw.map Outline.text) ++ ofText c.groupSql ++
    havingText (having.map Outline.text) ++ ofText (c.orderSql ++ c.limitSql d)

def outerParams : OrderedMap Name Json :=
  (((∅ : OrderedMap Name Json).mergeAll (c.commonTables.values.map fun s =>
    s.params.mapKeys .written)).merge source.params).mergeAll
      (c.joins.values.map fun j => j.params.mapKeys .written)

def bodyParams : OrderedMap Name Json :=
  ((∅ : OrderedMap Name Json).mergeAll (ps.map fun e => e.2.params)).mergeAll
    (raw.map Outline.params)

def outlineParams : OrderedMap Name Json :=
  (if conditions (fragments ps) (raw.map Outline.text) = [] then c.outerParams source
    else (c.outerParams source).merge (bodyParams raw ps)).mergeAll (having.map Outline.params)

/-- The clauses around the outline of their source, with outlines for the raw conditions. -/
def weave : Outline :=
  ⟨TableRef.expandMarked c.tableRef .plain (c.outlineText d raw having source ps),
    c.outlineParams raw having source ps⟩

@[simp] theorem text_weave : (c.weave d raw having source ps).text =
    TableRef.expandMarked c.tableRef .plain (c.outlineText d raw having source ps) := by
  simp only [weave]

@[simp] theorem params_weave : (c.weave d raw having source ps).params =
    c.outlineParams raw having source ps := by
  simp only [weave]

end Weave

def derivedTable (o : Outline) (correlation : String) : Outline :=
  ⟨parenthesized o.text ++ ofText (" " ++ correlation), o.params⟩

/-- Clauses over a source, and the number of names drawn. Names get ranks from `k` on. -/
def outlineOver (d : Dialect) (c : Clauses) (raw having : List Outline) (k : Nat) :
    Source → Except Error (Outline × Nat)
  | .none => .error (.configuration .noSource)
  | .table name correlation =>
    match templates d c.predicates with
    | .error e => .error e
    | .ok ts =>
      .ok (c.weave d raw having (.ofStatement ⟨c.tableRef name ++ " " ++ correlation, ∅⟩)
        (outlines k ts), holeTotal ts)
  | .derived inner source correlation =>
    match outlineOver d inner (inner.rawWhere.map .ofStatement) (inner.rawHaving.map .ofStatement)
        k source with
    | .error e => .error e
    | .ok (o, h) =>
      match templates d c.predicates with
      | .error e => .error e
      | .ok ts =>
        .ok (c.weave d raw having (derivedTable o correlation) (outlines (k + h) ts),
          h + holeTotal ts)

section Inversion

variable {d : Dialect} {c : Clauses} {raw having : List Outline} {k h : Nat} {o : Outline}

theorem outlineOver_none : c.outlineOver d raw having k .none ≠ .ok (o, h) := by
  rw [outlineOver]
  exact fun h => nomatch h

theorem outlineOver_table {name correlation : String}
    (outlined : c.outlineOver d raw having k (.table name correlation) = .ok (o, h)) :
    ∃ ts, templates d c.predicates = .ok ts ∧
      o = c.weave d raw having (.ofStatement ⟨c.tableRef name ++ " " ++ correlation, ∅⟩)
        (outlines k ts) ∧ h = holeTotal ts := by
  rw [outlineOver] at outlined
  split at outlined
  · cases outlined
  · next ts found =>
    rw [Except.ok.injEq, Prod.mk.injEq] at outlined
    exact ⟨ts, found, outlined.1.symm, outlined.2.symm⟩

theorem outlineOver_derived {inner : Clauses} {source : Source} {correlation : String}
    (outlined : c.outlineOver d raw having k (.derived inner source correlation) = .ok (o, h)) :
    ∃ o' h' ts, inner.outlineOver d (inner.rawWhere.map .ofStatement)
        (inner.rawHaving.map .ofStatement) k source = .ok (o', h') ∧
      templates d c.predicates = .ok ts ∧
      o = c.weave d raw having (derivedTable o' correlation) (outlines (k + h') ts) ∧
      h = h' + holeTotal ts := by
  rw [outlineOver] at outlined
  split at outlined
  · cases outlined
  · next o' h' within =>
    split at outlined
    · cases outlined
    · next ts found =>
      rw [Except.ok.injEq, Prod.mk.injEq] at outlined
      exact ⟨o', h', ts, within, found, outlined.1.symm, outlined.2.symm⟩

theorem outlineOver_weave {source : Source}
    (outlined : c.outlineOver d raw having k source = .ok (o, h)) :
    ∃ o' k' ts, templates d c.predicates = .ok ts ∧
    o = c.weave d raw having o' (outlines k' ts) := by
  cases source with
  | none => exact absurd outlined outlineOver_none
  | table name correlation =>
    obtain ⟨ts, found, rfl, -⟩ := outlineOver_table outlined
    exact ⟨_, _, ts, found, rfl⟩
  | derived inner source correlation =>
    obtain ⟨o', h', ts, -, found, rfl, -⟩ := outlineOver_derived outlined
    exact ⟨_, _, ts, found, rfl⟩

end Inversion

theorem eq_nil_of_chained_eq_nil {parts : List (Conjunction × Marked)}
    (none : chained parts = []) :
    ∀ e ∈ parts, e.2 = [] := by
  cases parts with
  | nil => exact fun e he => absurd he List.not_mem_nil
  | cons e rest =>
    obtain ⟨first, others⟩ := List.append_eq_nil_iff.mp none
    cases rest with
    | nil => simpa using first
    | cons e rest => simp [ofText] at others

theorem chained_eq_nil_of_conditions {parts : List (Conjunction × Marked)} {raw : List Marked}
    (none : conditions parts raw = []) : chained parts = [] := by
  by_contra some
  simp [conditions, some] at none

theorem conditions_ne_nil_of_raw (parts : List (Conjunction × Marked)) {raw : List Marked}
    (some : raw ≠ []) : conditions parts raw ≠ [] := by
  intro none
  exact some (List.map_eq_nil_iff.mp (List.append_eq_nil_iff.mp none).2)

section Fill

variable {number : Nat → Nat} {c : Clauses} {d : Dialect} {raw having : List Outline}
  {source : Outline} {ps : List (Conjunction × Outline)}

theorem filled_outlineText (sameHaving : c.rawHaving = having.map (Outline.fill number)) :
    filled number (c.outlineText d raw having source ps) =
      c.text d (filled number source.text)
        (filled number (conditionText (fragments ps) (raw.map Outline.text))) := by
  simp only [outlineText, filled_append, filled_ofText,
    filled_havingText number c having sameHaving, text, head, String.append_assoc]

theorem mem_keys_outlineParams (a : Name) :
    a ∈ (c.outlineParams raw having source ps).keys ↔
      a ∈ (c.outerParams source).keys ∨
        (conditions (fragments ps) (raw.map Outline.text) ≠ [] ∧
          a ∈ (bodyParams raw ps).keys) ∨ ∃ o ∈ having, a ∈ o.params.keys := by
  rw [outlineParams, OrderedMap.mem_keys_mergeAll]
  by_cases none : conditions (fragments ps) (raw.map Outline.text) = []
  · simp [none]
  · simp [none, or_assoc]

/-- Where nothing is a placeholder name by accident, every fragment can be filled: either its
parameters are among those of the query or there is no text at all. -/
theorem fillable_of_clear
    (clear : ∀ a ∈ (c.outlineParams raw having source ps).keys, a.Clear number) :
    ∀ o ∈ ps, Template.Fillable number o.2 := by
  intro o ho
  by_cases none : conditions (fragments ps) (raw.map Outline.text) = []
  · left
    have empty : o.2.text = [] := eq_nil_of_chained_eq_nil (chained_eq_nil_of_conditions none)
      (o.1, o.2.text) (List.mem_map_of_mem ho)
    rw [empty]
    rfl
  · right
    intro a ha
    apply clear a
    rw [mem_keys_outlineParams]
    refine Or.inr (Or.inl ⟨none, ?_⟩)
    simp only [bodyParams, OrderedMap.mem_keys_mergeAll, List.mem_map, exists_exists_and_eq_and]
    exact Or.inl (Or.inr ⟨o, ho, ha⟩)

theorem mapKeys_written (number : Nat → Nat) (params : Params) :
    (params.mapKeys Name.written).mapKeys (Name.text number) = params :=
  OrderedMap.mapKeys_mapKeys_id _ _ _ fun _ => rfl

theorem mergeAll_eq (params : Params) (parts : List Statement) :
    mergeAll params parts = params.mergeAll (parts.map (·.params)) := by
  rw [mergeAll, OrderedMap.mergeAll, List.foldl_map]

theorem mapKeys_outerParams (distinct : Function.Injective number)
    (clear : ∀ a ∈ (c.outerParams source).keys, a.Clear number) :
    (c.outerParams source).mapKeys (Name.text number) =
      c.joins.values.foldl (fun acc j => acc.merge j.params)
        ((mergeAll ∅ c.commonTables.values).merge (source.fill number).params) := by
  have inj := fun a b => @Name.text_injective number distinct a b
  simp only [outerParams, OrderedMap.mem_keys_mergeAll, OrderedMap.mem_keys_merge] at clear
  rw [outerParams, OrderedMap.mapKeys_mergeAll _ _ inj, OrderedMap.mapKeys_merge _ _ inj,
    OrderedMap.mapKeys_mergeAll _ _ inj, mergeAll_eq]
  · simp only [List.map_map, Function.comp_def, mapKeys_written, OrderedMap.mergeAll,
      List.foldl_map]
    rfl
  · exact fun a ha => absurd ha List.not_mem_nil
  · exact fun n hn a ha => clear a (Or.inl (Or.inl (Or.inr ⟨n, hn, ha⟩)))
  · intro a ha
    rw [OrderedMap.mem_keys_mergeAll] at ha
    exact clear a (Or.inl (Or.inl ha))
  · exact fun a ha => clear a (Or.inl (Or.inr ha))
  · intro a ha
    rw [OrderedMap.mem_keys_merge, OrderedMap.mem_keys_mergeAll] at ha
    exact clear a (Or.inl ha)
  · exact fun n hn a ha => clear a (Or.inr ⟨n, hn, ha⟩)

theorem mapKeys_bodyParams (distinct : Function.Injective number)
    (clear : ∀ a ∈ (bodyParams raw ps).keys, a.Clear number) :
    (bodyParams raw ps).mapKeys (Name.text number) =
      mergeAll (mergeAll ∅ (ps.map fun e => e.2.fill number))
        (raw.map (Outline.fill number)) := by
  have inj := fun a b => @Name.text_injective number distinct a b
  simp only [bodyParams, OrderedMap.mem_keys_mergeAll] at clear
  rw [bodyParams, OrderedMap.mapKeys_mergeAll _ _ inj, OrderedMap.mapKeys_mergeAll _ _ inj,
    mergeAll_eq, mergeAll_eq]
  · simp only [List.map_map, Function.comp_def]
    rfl
  · exact fun a ha => absurd ha List.not_mem_nil
  · exact fun n hn a ha => clear a (Or.inl (Or.inr ⟨n, hn, ha⟩))
  · intro a ha
    rw [OrderedMap.mem_keys_mergeAll] at ha
    exact clear a (Or.inl ha)
  · exact fun n hn a ha => clear a (Or.inr ⟨n, hn, ha⟩)

theorem mapKeys_outlineParams (distinct : Function.Injective number)
    (clear : ∀ a ∈ (c.outlineParams raw having source ps).keys, a.Clear number) :
    (c.outlineParams raw having source ps).mapKeys (Name.text number) =
      mergeAll (if conditions (fragments ps) (raw.map Outline.text) = []
        then (c.outerParams source).mapKeys (Name.text number)
        else ((c.outerParams source).mapKeys (Name.text number)).merge
          ((bodyParams raw ps).mapKeys (Name.text number))) (having.map (Outline.fill number)) := by
  have inj := fun a b => @Name.text_injective number distinct a b
  have outer : ∀ a ∈ (c.outerParams source).keys, a.Clear number := fun a ha =>
    clear a ((mem_keys_outlineParams a).mpr (Or.inl ha))
  have last : ∀ o ∈ having, ∀ a ∈ o.params.keys, a.Clear number := fun o ho a ha =>
    clear a ((mem_keys_outlineParams a).mpr (Or.inr (Or.inr ⟨o, ho, ha⟩)))
  rw [mergeAll_eq, outlineParams, OrderedMap.mapKeys_mergeAll _ _ inj]
  · congr 1
    · split
      · rfl
      · next some =>
        exact OrderedMap.mapKeys_merge _ _ inj _ _ outer fun a ha =>
          clear a ((mem_keys_outlineParams a).mpr (Or.inr (Or.inl ⟨some, ha⟩)))
    · simp only [List.map_map]
      rfl
  · intro a ha
    apply clear a
    rw [mem_keys_outlineParams]
    split at ha
    · exact Or.inl ha
    · next some =>
      rw [OrderedMap.mem_keys_merge] at ha
      exact ha.imp_right fun h => Or.inl ⟨some, h⟩
  · intro n hn a ha
    obtain ⟨o, ho, rfl⟩ := List.mem_map.mp hn
    exact last o ho a ha

theorem whereBody_eq {n m : Nat}
    (sameWhere : c.rawWhere = raw.map (Outline.fill number))
    (rendered : renderPredicates d c.predicates n =
      (.ok (ps.map fun o => (o.1, o.2.fill number)), m)) :
    c.whereBody d n =
      (.ok (if conditions (fragments ps) (raw.map Outline.text) = [] then none
        else some ⟨Text.join " AND "
            ((conditions (fragments ps) (raw.map Outline.text)).map (filled number)),
          mergeAll (mergeAll ∅ (ps.map fun e => e.2.fill number))
            (raw.map (Outline.fill number))⟩),
        m) := by
  have parts : whereParts ((ps.map fun o => (o.1, o.2.fill number)).map fun e => (e.1, e.2.sql))
      c.rawWhere = (conditions (fragments ps) (raw.map Outline.text)).map (filled number) := by
    rw [filled_conditions, sameWhere]
    simp only [fragments, List.map_map]
    rfl
  rw [whereBody, Effect.bind_ok _ rendered, parts, sameWhere]
  by_cases none : conditions (fragments ps) (raw.map Outline.text) = []
  · simp [none]
    rfl
  · simp [none]
    rfl

theorem fill_weave (sameHaving : c.rawHaving = having.map (Outline.fill number)) :
    (c.weave d raw having source ps).fill number =
      ⟨c.expandRefs (c.text d (filled number source.text)
          (filled number (conditionText (fragments ps) (raw.map Outline.text)))),
        (c.outlineParams raw having source ps).mapKeys (Name.text number)⟩ := by
  rw [Outline.fill, weave, TableRef.fill_expandMarked _ (show TableRef.Sound .plain from trivial),
    expandRefs, TableRef.expandWith, ← filled_outlineText sameHaving, toList_filled]

theorem assemble_eq {n m : Nat} (distinct : Function.Injective number)
    (sameWhere : c.rawWhere = raw.map (Outline.fill number))
    (sameHaving : c.rawHaving = having.map (Outline.fill number))
    (clear : ∀ a ∈ (c.outlineParams raw having source ps).keys, a.Clear number)
    (rendered : renderPredicates d c.predicates n =
      (.ok (ps.map fun o => (o.1, o.2.fill number)), m)) :
    c.assemble d (source.fill number) n =
      (.ok ((c.weave d raw having source ps).fill number), m) := by
  have outerClear : ∀ a ∈ (c.outerParams source).keys, a.Clear number := fun a ha =>
    clear a ((mem_keys_outlineParams a).mpr (Or.inl ha))
  have outer := mapKeys_outerParams distinct outerClear
  rw [assemble, Effect.bind_ok _ (whereBody_eq sameWhere rendered),
    fill_weave sameHaving, mapKeys_outlineParams distinct clear, sameHaving, outer]
  by_cases none : conditions (fragments ps) (raw.map Outline.text) = []
  · simp only [conditionText, none, if_true]
    rfl
  · have bodyClear : ∀ a ∈ (bodyParams raw ps).keys, a.Clear number := fun a ha =>
      clear a ((mem_keys_outlineParams a).mpr (Or.inr (Or.inl ⟨none, ha⟩)))
    have body := mapKeys_bodyParams distinct bodyClear
    simp only [conditionText, none, if_false, body, filled_append, filled_ofText, filled_join]
    rfl

end Fill

section Render

variable {number : Nat → Nat} {d : Dialect}

theorem fill_map_ofStatement (ss : List Statement) :
    ss = (ss.map Outline.ofStatement).map (Outline.fill number) := by
  simp [Function.comp_def]

theorem fill_derivedTable (o : Outline) (correlation : String) :
    (derivedTable o correlation).fill number =
      ⟨"(" ++ (o.fill number).sql ++ ") " ++ correlation, (o.fill number).params⟩ := by
  have joined : ")" ++ (" " ++ correlation) = ") " ++ correlation := by
    rw [← String.append_assoc]
    rfl
  have same : filled number (parenthesized o.text ++ ofText (" " ++ correlation)) =
      "(" ++ filled number o.text ++ ") " ++ correlation := by
    simp only [filled_append, filled_parenthesized, filled_ofText, String.append_assoc, joined]
  exact congrArg (Statement.mk · _) same

theorem renderOver_ok (distinct : Function.Injective number) {c : Clauses} {source : Source}
    {raw having : List Outline} {k n h : Nat} {o : Outline}
    (outlined : c.outlineOver d raw having k source = .ok (o, h))
    (sameWhere : c.rawWhere = raw.map (Outline.fill number))
    (sameHaving : c.rawHaving = having.map (Outline.fill number))
    (clear : ∀ a ∈ o.params.keys, a.Clear number) (follows : Follows number k n h) :
    c.renderOver d source n = (.ok (o.fill number), n + h) := by
  induction source generalizing c raw having k n h o with
  | none => exact absurd outlined outlineOver_none
  | table name correlation =>
    obtain ⟨ts, found, rfl, rfl⟩ := outlineOver_table outlined
    have rendered := renderPredicates_ok found distinct (fillable_of_clear clear) follows
    have assembled := assemble_eq distinct sameWhere sameHaving clear rendered
    rwa [Outline.fill_ofStatement] at assembled
  | derived inner source correlation ih =>
    obtain ⟨o', h', ts, within, found, rfl, rfl⟩ := outlineOver_derived outlined
    have innerClear : ∀ a ∈ o'.params.keys, a.Clear number := by
      intro a ha
      apply clear a
      rw [params_weave, mem_keys_outlineParams]
      left
      simp only [outerParams, OrderedMap.mem_keys_mergeAll, OrderedMap.mem_keys_merge]
      exact Or.inl (Or.inr ha)
    have first :=
      ih within (fill_map_ofStatement _) (fill_map_ofStatement _) innerClear follows.first
    have rendered := renderPredicates_ok found distinct (fillable_of_clear clear) follows.second
    have assembled := assemble_eq distinct sameWhere sameHaving clear rendered
    rw [renderOver, Effect.bind_ok _ first, ← fill_derivedTable, assembled, Nat.add_assoc]

theorem assemble_outcome (d : Dialect) (c : Clauses) (source : Statement) (n : Nat) :
    match templates d c.predicates with
    | .ok _ => ∃ s m, c.assemble d source n = (.ok s, m) ∧ n ≤ m
    | .error e => ∃ m, c.assemble d source n = (.error e, m) ∧ n ≤ m := by
  have rendered := renderPredicates_outcome d c.predicates n
  split at rendered
  · next ts found =>
    obtain ⟨rs, m, rendered, le⟩ := rendered
    obtain ⟨b, body⟩ : ∃ b, c.whereBody d n = (.ok b, m) := by
      rw [whereBody, Effect.bind_ok _ rendered]
      split <;> exact ⟨_, rfl⟩
    rw [assemble, Effect.bind_ok _ body]
    cases b <;> exact ⟨_, m, rfl, le⟩
  · next e found =>
    obtain ⟨m, rendered, le⟩ := rendered
    have body : c.whereBody d n = (.error e, m) := Effect.bind_error _ rendered
    exact ⟨m, Effect.bind_error _ body, le⟩

theorem renderOver_outcome (d : Dialect) (c : Clauses) (source : Source)
    (raw having : List Outline) (k n : Nat) :
    match c.outlineOver d raw having k source with
    | .ok _ => ∃ s m, c.renderOver d source n = (.ok s, m) ∧ n ≤ m
    | .error e => ∃ m, c.renderOver d source n = (.error e, m) ∧ n ≤ m := by
  induction source generalizing c raw having k n with
  | none => exact ⟨n, rfl, Nat.le_refl n⟩
  | table name correlation =>
    have assembled := assemble_outcome d c ⟨c.tableRef name ++ " " ++ correlation, ∅⟩ n
    rw [outlineOver]
    split at assembled
    · next ts found => rw [found]; exact assembled
    · next e found => rw [found]; exact assembled
  | derived inner source correlation ih =>
    have within := ih inner (inner.rawWhere.map .ofStatement) (inner.rawHaving.map .ofStatement) k n
    rw [outlineOver]
    split at within
    · next found =>
      obtain ⟨s, m, first, le⟩ := within
      have assembled := assemble_outcome d c ⟨"(" ++ s.sql ++ ") " ++ correlation, s.params⟩ m
      rw [found, renderOver]
      split at assembled
      · next ts found =>
        obtain ⟨s, m', second, le'⟩ := assembled
        simp only [found]
        exact ⟨s, m', by rw [Effect.bind_ok _ first, second], by omega⟩
      · next e found =>
        obtain ⟨m', second, le'⟩ := assembled
        simp only [found]
        exact ⟨m', by rw [Effect.bind_ok _ first, second], by omega⟩
    · next e found =>
      obtain ⟨m, first, le⟩ := within
      rw [found]
      exact ⟨m, Effect.bind_error _ first, le⟩

end Render

end Clauses

theorem Outline.get?_fill {number : Nat → Nat}
    (distinct : Function.Injective number) {o : Outline} {a : Name} (ha : a.Clear number)
    (hk : ∀ b ∈ o.params.keys, b.Clear number) :
    (o.fill number).params.get? (a.text number) = o.params.get? a :=
  OrderedMap.get?_mapKeys (Name.text number) (Name.Clear number)
    (fun _ _ => Name.text_injective distinct) ha o.params hk

namespace Query

/-- The outline of a query, and how many names a render draws. -/
def outline (q : Query) (d : Dialect) : Except Error (Outline × Nat) :=
  q.outlineOver d (q.rawWhere.map .ofStatement) (q.rawHaving.map .ofStatement) 0 q.source

def counted (n i : Nat) : Nat := n + i + 1

theorem counted_injective (n : Nat) : Function.Injective (counted n) := by
  intro i j h
  simp only [counted] at h
  omega

theorem follows_counted (n h : Nat) : Follows (counted n) 0 n h := by
  intro i _
  simp only [counted, Nat.zero_add]

theorem render_ok {q : Query} {d : Dialect} {o : Outline} {h : Nat}
    (outlined : q.outline d = .ok (o, h)) {n : Nat}
    (clear : ∀ a ∈ o.params.keys, a.Clear (counted n)) :
    q.render d n = (.ok (o.fill (counted n)), n + h) :=
  Clauses.renderOver_ok (counted_injective n) outlined (Clauses.fill_map_ofStatement _)
    (Clauses.fill_map_ofStatement _) clear (follows_counted n h)

theorem render_error {q : Query} {d : Dialect} {e : Error} (failed : q.outline d = .error e)
    (n : Nat) : (q.render d n).1 = .error e := by
  have outcome := Clauses.renderOver_outcome d q.toClauses q.source (q.rawWhere.map .ofStatement)
    (q.rawHaving.map .ofStatement) 0 n
  rw [outline] at failed
  rw [failed] at outcome
  obtain ⟨m, rendered, -⟩ := outcome
  rw [render, rendered]

theorem le_of_render {q : Query} {d : Dialect} {n m : Nat} {x : Except Error Statement}
    (rendered : q.render d n = (x, m)) : n ≤ m := by
  have outcome := Clauses.renderOver_outcome d q.toClauses q.source [] [] 0 n
  split at outcome
  · obtain ⟨s, m', ended, le⟩ := outcome
    cases rendered.symm.trans ended
    exact le
  · obtain ⟨m', ended, le⟩ := outcome
    cases rendered.symm.trans ended
    exact le

end Query

end Reports.Sql
