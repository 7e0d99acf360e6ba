import Reports.Proofs.Sql.Fragment

/-! How a render puts texts together. What is written by hand stands between words of the renderer,
so a property of texts that those words cannot spoil passes from the parts to the whole. -/
namespace Reports.Sql

/-- Nothing that a name could go on with, and no reference. -/
def isApart (c : Char) : Bool := !Text.isWordChar c && c != '\x7b'

/-- What may come right after a hole. -/
def Marked.StartsApart : Marked → Prop
  | [] => True
  | .char c :: _ => isApart c = true
  | .hole _ :: _ => False

open Marked (ofText StartsApart)

theorem Marked.startsApart_append {a b : Marked} (ha : StartsApart a) (hb : StartsApart b) :
    StartsApart (a ++ b) := by
  cases a with
  | nil => exact hb
  | cons x rest => cases x <;> exact ha

theorem startsApart_space (s : String) (b : Marked) : StartsApart (ofText (" " ++ s) ++ b) := by
  rw [Marked.ofText_append, List.append_assoc]
  rfl

/-- A property of texts that lasts when a renderer puts them together; `T` is what the prefix of
tables has to meet. -/
structure Weaves (P : Marked → Prop) (T : String → Prop) : Prop where
  nil : P []
  hole (i : Nat) : P [.hole i]
  /-- The words of the renderer may stand before any text. -/
  lead {s : String} {a : Marked} : Harmless s → P a → P (ofText s ++ a)
  append {a b : Marked} : P a → P b → StartsApart b → P (a ++ b)
  escape : P (ofText " ESCAPE '\\'")
  expand {c : Clauses} {a : Marked} : T c.tablePrefix → P a →
    P (TableRef.expandMarked c.tableRef .plain a)

namespace Weaves

variable {P : Marked → Prop} {T : String → Prop} (w : Weaves P T)

include w

theorem word {s : String} (hs : Harmless s) : P (ofText s) := by
  simpa using w.lead hs w.nil

theorem trail {a : Marked} {s : String} (ha : P a) (hs : Harmless s)
    (starts : StartsApart (ofText s)) :
    P (a ++ ofText s) := w.append ha (w.word hs) starts

theorem between {a b : Marked} {s : String} (ha : P a) (hs : Harmless s)
    (starts : StartsApart (ofText s ++ b)) (hb : P b) : P (a ++ (ofText s ++ b)) :=
  w.append ha (w.lead hs hb) starts

theorem parenthesized {a : Marked} (ha : P a) : P (Clauses.parenthesized a) := by
  rw [Clauses.parenthesized, List.append_assoc]
  exact w.lead (by decide) (w.trail ha (by decide) rfl)

theorem join (sep : String) (hs : Harmless sep) (starts : ∀ b, StartsApart (ofText sep ++ b))
    {as : List Marked} (all : ∀ a ∈ as, P a) : P (Marked.join sep as) := by
  induction as with
  | nil => exact w.nil
  | cons a rest ih =>
    cases rest with
    | nil => exact all a List.mem_cons_self
    | cons b rest =>
      rw [Marked.join, List.append_assoc]
      exact w.between (all a List.mem_cons_self) hs (starts _)
        (ih fun x hx => all x (List.mem_cons_of_mem _ hx))

end Weaves

/-- Every text of a predicate that is written by hand has a property, and so have the fragments that
a sub-query or a renderer contributes. -/
structure Predicate.Worded (P : Marked → Prop) (d : Dialect) (p : Predicate) : Prop where
  selector : P (ofText p.selector)
  raw : ∀ r ∈ p.rawConditions, P (ofText r.sql)
  subquery : ∀ t, p.subquery = some t → ∀ k, P (Template.marked k t.pieces)
  renderer : ∀ render t, p.renderer = some render → render p.selector p.values d = .ok t →
    ∀ k, P (Template.marked k t.pieces)

namespace Weaves

variable {P : Marked → Prop} {T : String → Prop} (w : Weaves P T)

include w

theorem listPieces (vs : List Json) (k : Nat) (tail : Marked) (hp : P tail)
    (starts : StartsApart tail) : P (Template.marked k (Sql.listPieces vs) ++ tail) := by
  fun_induction Sql.listPieces vs generalizing k with
  | case1 => exact hp
  | case2 v => exact w.append (w.hole k) hp starts
  | case3 v v' rest ih =>
    simp only [Template.marked, List.cons_append, List.append_assoc]
    exact w.between (w.hole k) (s := ", ") (by decide) rfl (ih (k + 1))

theorem comparison {selector : String} (hs : P (ofText selector)) (s : String)
    (harmless : Harmless s) (starts : ∀ b, StartsApart (ofText s ++ b)) (k : Nat) :
    P (ofText (selector ++ s) ++ [.hole k]) := by
  rw [Marked.ofText_append, List.append_assoc]
  exact w.between hs harmless (starts _) (w.hole k)

theorem inOrEqual {selector : String} (hs : P (ofText selector)) (vs : List Json) (negate : Bool)
    (k : Nat) : P (Template.marked k (Sql.inOrEqual selector vs negate).pieces) := by
  unfold Sql.inOrEqual
  split
  · next v =>
    cases negate with
    | false => exact w.comparison hs " = " (by decide) (fun _ => rfl) k
    | true => exact w.comparison hs " <> " (by decide) (fun _ => rfl) k
  · have list := w.listPieces vs k (ofText ")") (w.word (by decide)) rfl
    rw [List.cons_append, Template.marked, Template.marked_append]
    simp only [Template.marked, List.append_nil, Marked.ofText_append, List.append_assoc]
    cases negate with
    | false => exact w.between hs (s := " IN (") (by decide) rfl list
    | true => exact w.between hs (s := " NOT IN (") (by decide) rfl list

theorem keyword {selector : String} (hs : P (ofText selector)) {s : String} (harmless : Harmless s)
    (k : Nat) : P (ofText (selector ++ " " ++ s ++ " ") ++ [.hole k]) := by
  have spaced : Harmless (" " ++ (s ++ " ")) :=
    Harmless.append (by decide) (harmless.append (by decide))
  rw [String.append_assoc, String.append_assoc]
  exact w.comparison hs _ spaced (startsApart_space _) k

theorem base {d : Dialect} {p : Predicate} (worded : p.Worded P d) {t : Template}
    (found : p.base d = .ok t) (k : Nat) : P (Template.marked k t.pieces) := by
  have form := Predicate.base_form found
  generalize p.drawnValues d = vs at form
  cases form with
  | list negate => exact w.inOrEqual worded.selector _ _ k
  | comparison v word =>
    exact w.keyword worded.selector (Predicate.harmless_of_mem_comparisonWords word) k
  | pattern v word =>
    have compared := w.keyword worded.selector (Predicate.harmless_of_mem_comparisonWords word) k
    rw [Template.marked, Template.marked, List.append_cons]
    exact w.append compared w.escape rfl
  | @subquery q negation given word =>
    have harmless : Harmless (negation ++ "IN (") := by
      rcases List.mem_pair.mp word with rfl | rfl <;> decide
    have inner : P (Template.marked k q.pieces ++ ofText ")") :=
      w.trail (worded.subquery q given k) (by decide) rfl
    have words : Harmless (" " ++ (negation ++ "IN (")) := Harmless.append (by decide) harmless
    rw [List.cons_append, Template.marked, Template.marked_append]
    simp only [Template.marked, List.append_nil, String.append_assoc]
    rw [Marked.ofText_append, List.append_assoc]
    exact w.between worded.selector words (startsApart_space _ _) inner
  | renderer given rendered => exact worded.renderer _ t given rendered k

theorem rawConditions {rs : List Statement} (raw : ∀ r ∈ rs, P (ofText r.sql)) :
    P (ofText (String.join (rs.map fun r => " AND " ++ r.sql) ++ ")")) ∧
      StartsApart (ofText (String.join (rs.map fun r => " AND " ++ r.sql) ++ ")")) := by
  induction rs with
  | nil => exact ⟨w.word (by decide), rfl⟩
  | cons r rest ih =>
    obtain ⟨tail, starts⟩ := ih fun x hx => raw x (List.mem_cons_of_mem _ hx)
    rw [List.map_cons, String.join_cons, String.append_assoc, String.append_assoc,
      Marked.ofText_append]
    refine ⟨w.lead (by decide) ?_, rfl⟩
    rw [Marked.ofText_append]
    exact w.append (raw r List.mem_cons_self) tail starts

theorem template {d : Dialect} {p : Predicate} (worded : p.Worded P d) {t : Template}
    (found : p.template d = .ok t) (k : Nat) : P (Template.marked k t.pieces) := by
  rw [Predicate.template] at found
  cases comparison : p.base d with
  | error e => rw [comparison] at found; cases found
  | ok t' =>
    have inner := w.base worded comparison k
    obtain ⟨tail, starts⟩ := w.rawConditions worded.raw
    rw [comparison] at found
    by_cases none : p.rawConditions.isEmpty = true
    · simp only [bind, Except.bind, none, if_true] at found
      cases found
      exact inner
    · simp only [bind, Except.bind, none] at found
      cases found
      rw [List.cons_append, Template.marked, Template.marked_append]
      simp only [Template.marked, List.append_nil]
      exact w.lead (by decide) (w.append inner tail starts)

end Weaves

/-- The texts of clauses that are written by hand, their raw conditions apart. -/
structure Clauses.Pieces (P : Marked → Prop) (T : String → Prop) (d : Dialect) (c : Clauses) :
    Prop where
  tablePrefix : T c.tablePrefix
  selects : ∀ e ∈ c.selects.entries, P (ofText e.1) ∧ P (ofText e.2)
  joins : ∀ e ∈ c.joins.entries, P (ofText e.1) ∧ P (ofText (c.tableRef e.2.table)) ∧
    ∀ s ∈ e.2.conditions, P (ofText s)
  commonTables : ∀ e ∈ c.commonTables.entries, P (ofText e.1) ∧ P (ofText e.2.sql)
  predicates : ∀ p ∈ c.predicates, p.Worded P d
  groupBy : ∀ s ∈ c.groupBy, P (ofText s)
  orderBy : ∀ e ∈ c.orderBy.entries, P (ofText e.1)

def Clauses.Worded (P : Marked → Prop) (T : String → Prop) (d : Dialect) (c : Clauses)
    (raw having : List Outline) : Source → Prop
  | .none => True
  | .table name correlation =>
    c.Pieces P T d ∧ (∀ o ∈ raw, P o.text) ∧ (∀ o ∈ having, P o.text) ∧
      P (ofText (c.tableRef name)) ∧ P (ofText correlation)
  | .derived inner source correlation =>
    c.Pieces P T d ∧ (∀ o ∈ raw, P o.text) ∧ (∀ o ∈ having, P o.text) ∧
      Clauses.Worded P T d inner (inner.rawWhere.map .ofStatement)
        (inner.rawHaving.map .ofStatement) source ∧ P (ofText correlation)

/-- Every text written by hand has a property, and the prefixes of tables have another. -/
def Query.Worded (P : Marked → Prop) (T : String → Prop) (d : Dialect) (q : Query) : Prop :=
  q.toClauses.Worded P T d (q.rawWhere.map .ofStatement) (q.rawHaving.map .ofStatement) q.source

namespace Weaves

variable {P : Marked → Prop} {T : String → Prop} (w : Weaves P T)

include w

theorem textJoin (sep : String) (hs : Harmless sep) (starts : ∀ b, StartsApart (ofText sep ++ b))
    {ss : List String} (all : ∀ s ∈ ss, P (ofText s)) : P (ofText (Text.join sep ss)) := by
  rw [Marked.ofText_join]
  refine w.join sep hs starts fun a ha => ?_
  obtain ⟨s, hs, rfl⟩ := List.mem_map.mp ha
  exact all s hs

theorem column {name expr : String} (hn : P (ofText name)) (he : P (ofText expr)) :
    P (ofText (Clauses.column name expr)) := by
  unfold Clauses.column
  split
  · exact he
  · rw [String.append_assoc, Marked.ofText_append, Marked.ofText_append]
    exact w.between he (by decide) rfl hn

theorem selectList {d : Dialect} {c : Clauses} (pieces : c.Pieces P T d) :
    P (ofText c.selectList) := by
  unfold Clauses.selectList
  split
  · exact w.word (by decide)
  · refine w.textJoin ", " (by decide) (fun _ => rfl) ?_
    intro s hs
    rcases List.mem_append.mp hs with identity | other
    · split at identity
      · next expr found =>
        obtain rfl := List.mem_singleton.mp identity
        have given := pieces.selects _ (OrderedMap.mem_entries_of_get? found)
        exact w.column given.1 given.2
      · cases identity
    · obtain ⟨e, he, rfl⟩ := List.mem_map.mp other
      have given := pieces.selects e (List.mem_of_mem_filter he)
      exact w.column given.1 given.2

theorem withClause {d : Dialect} {c : Clauses} (pieces : c.Pieces P T d) {a : Marked} (ha : P a) :
    P (ofText c.withClause ++ a) := by
  unfold Clauses.withClause
  split
  · exact ha
  · have tables : P (ofText (Text.join ", " (c.commonTables.entries.map fun e =>
        e.1 ++ " AS (" ++ e.2.sql ++ ")"))) := by
      refine w.textJoin ", " (by decide) (fun _ => rfl) fun s hs => ?_
      obtain ⟨e, he, rfl⟩ := List.mem_map.mp hs
      obtain ⟨name, sql⟩ := pieces.commonTables e he
      rw [String.append_assoc, String.append_assoc, Marked.ofText_append, Marked.ofText_append,
        Marked.ofText_append]
      exact w.between name (by decide) rfl (w.trail sql (by decide) rfl)
    rw [String.append_assoc, Marked.ofText_append, Marked.ofText_append, List.append_assoc,
      List.append_assoc]
    exact w.lead (by decide) (w.between tables (by decide) rfl ha)

theorem head {d : Dialect} {c : Clauses} (pieces : c.Pieces P T d) {a : Marked} (ha : P a) :
    P (ofText c.head ++ a) := by
  have columns : P (ofText c.selectList ++ (ofText " FROM " ++ a)) :=
    w.between (w.selectList pieces) (by decide) rfl ha
  have select : Harmless ("SELECT " ++ if c.emitsDistinct then "DISTINCT " else "") := by
    split <;> decide
  have parts : c.head = c.withClause ++
      (("SELECT " ++ if c.emitsDistinct then "DISTINCT " else "") ++
        (c.selectList ++ " FROM ")) := by
    simp only [Clauses.head, String.append_assoc]
  rw [parts, Marked.ofText_append, List.append_assoc]
  refine w.withClause pieces ?_
  rw [Marked.ofText_append, List.append_assoc]
  refine w.lead select ?_
  rw [Marked.ofText_append, List.append_assoc]
  exact columns

theorem joinSql {d : Dialect} {c : Clauses} (pieces : c.Pieces P T d) {e : String × Join}
    (he : e ∈ c.joins.entries) : P (ofText (" " ++ c.joinSql e.1 e.2)) := by
  obtain ⟨correlation, table, conditions⟩ := pieces.joins e he
  have kind : Harmless (" " ++ (e.2.kind.sql ++ " ")) := by cases e.2.kind <;> decide
  have condition : P (ofText (if e.2.conditions.isEmpty then "1=1"
      else Text.join " AND " e.2.conditions)) := by
    split
    · exact w.word (by decide)
    · exact w.textJoin " AND " (by decide) (fun _ => rfl) conditions
  have parts : " " ++ c.joinSql e.1 e.2 = (" " ++ (e.2.kind.sql ++ " ")) ++ (c.tableRef e.2.table ++
      (" " ++ (e.1 ++ (" ON " ++ if e.2.conditions.isEmpty then "1=1"
        else Text.join " AND " e.2.conditions)))) := by
    simp only [Clauses.joinSql, String.append_assoc]
  rw [parts, Marked.ofText_append]
  refine w.lead kind ?_
  rw [Marked.ofText_append, Marked.ofText_append]
  refine w.between table (by decide) rfl ?_
  rw [Marked.ofText_append, Marked.ofText_append]
  exact w.between correlation (by decide) rfl condition

theorem joinsSql {d : Dialect} {c : Clauses} (pieces : c.Pieces P T d) :
    P (ofText c.joinsSql) ∧ StartsApart (ofText c.joinsSql) := by
  have each : ∀ es : List (String × Join), (∀ e ∈ es, e ∈ c.joins.entries) →
      P (ofText (String.join (es.map fun e => " " ++ c.joinSql e.1 e.2))) ∧
        StartsApart (ofText (String.join (es.map fun e => " " ++ c.joinSql e.1 e.2))) := by
    intro es inside
    induction es with
    | nil => exact ⟨w.nil, trivial⟩
    | cons e rest ih =>
      obtain ⟨tail, starts⟩ := ih fun x hx => inside x (List.mem_cons_of_mem _ hx)
      rw [List.map_cons, String.join_cons, Marked.ofText_append]
      exact ⟨w.append (w.joinSql pieces (inside e List.mem_cons_self)) tail starts,
        startsApart_space _ _⟩
  exact each _ fun _ he => he

theorem chained {parts : List (Conjunction × Marked)} (hp : ∀ e ∈ parts, P e.2) :
    P (Clauses.chained parts) := by
  cases parts with
  | nil => exact w.nil
  | cons e rest =>
    have others : P (rest.flatMap fun e => ofText (" " ++ e.1.sql ++ " ") ++ e.2) ∧
        StartsApart (rest.flatMap fun e => ofText (" " ++ e.1.sql ++ " ") ++ e.2) := by
      have later := fun x hx => hp x (List.mem_cons_of_mem _ hx)
      clear hp
      induction rest with
      | nil => exact ⟨w.nil, trivial⟩
      | cons e rest ih =>
        obtain ⟨tail, starts⟩ := ih fun x hx => later x (List.mem_cons_of_mem _ hx)
        have conjunction : Harmless (" " ++ (e.1.sql ++ " ")) := by cases e.1 <;> decide
        rw [List.flatMap_cons, String.append_assoc, List.append_assoc]
        exact ⟨w.lead conjunction (w.append (later e List.mem_cons_self) tail starts),
          startsApart_space _ _⟩
    exact w.append (hp e List.mem_cons_self) others.1 others.2

theorem conditionText {parts : List (Conjunction × Marked)} {raw : List Marked}
    (hp : ∀ e ∈ parts, P e.2) (hr : ∀ a ∈ raw, P a) :
    P (Clauses.conditionText parts raw) ∧ StartsApart (Clauses.conditionText parts raw) := by
  have each : ∀ a ∈ Clauses.conditions parts raw, P a := by
    intro a ha
    rcases List.mem_append.mp ha with group | single
    · split at group
      · cases group
      · obtain rfl := List.mem_singleton.mp group
        split
        · exact w.parenthesized (w.chained hp)
        · exact w.chained hp
    · obtain ⟨b, hb, rfl⟩ := List.mem_map.mp single
      exact w.parenthesized (hr b hb)
  unfold Clauses.conditionText
  split
  · exact ⟨w.nil, trivial⟩
  · exact ⟨w.lead (by decide) (w.join " AND " (by decide) (fun _ => rfl) each), rfl⟩

theorem havingText {raw : List Marked} (hr : ∀ a ∈ raw, P a) :
    P (Clauses.havingText raw) ∧ StartsApart (Clauses.havingText raw) := by
  have each : ∀ a ∈ raw.map Clauses.parenthesized, P a := by
    intro a ha
    obtain ⟨b, hb, rfl⟩ := List.mem_map.mp ha
    exact w.parenthesized (hr b hb)
  unfold Clauses.havingText
  split
  · exact ⟨w.nil, trivial⟩
  · exact ⟨w.lead (by decide) (w.join " AND " (by decide) (fun _ => rfl) each), rfl⟩

theorem groupSql {d : Dialect} {c : Clauses} (pieces : c.Pieces P T d) :
    P (ofText c.groupSql) ∧ StartsApart (ofText c.groupSql) := by
  unfold Clauses.groupSql
  split
  · exact ⟨w.nil, trivial⟩
  · rw [Marked.ofText_append]
    exact ⟨w.lead (by decide) (w.textJoin ", " (by decide) (fun _ => rfl) pieces.groupBy), rfl⟩

theorem orderSql {d : Dialect} {c : Clauses} (pieces : c.Pieces P T d) :
    P (ofText c.orderSql) ∧ StartsApart (ofText c.orderSql) := by
  unfold Clauses.orderSql
  split
  · exact ⟨w.nil, trivial⟩
  · rw [Marked.ofText_append]
    refine ⟨w.lead (by decide) (w.textJoin ", " (by decide) (fun _ => rfl) fun s hs => ?_), rfl⟩
    obtain ⟨e, he, rfl⟩ := List.mem_map.mp hs
    have direction : Harmless (" " ++ e.2.sql) := by cases e.2 <;> decide
    rw [String.append_assoc, Marked.ofText_append]
    exact w.trail (pieces.orderBy e he) direction (by simpa using startsApart_space e.2.sql [])

omit w in
theorem harmless_limitOffset (d : Dialect) (limit : Option UInt64) (offset : UInt64) :
    Harmless (d.limitOffset limit offset) := by
  have number (n : Nat) : Harmless (Text.decimal n) := harmless_decimal n
  cases limit with
  | some n =>
    have rows : Harmless ("LIMIT " ++ Text.decimal n.toNat) :=
      Harmless.append (by decide) (number _)
    refine rows.append ?_
    by_cases start : offset = 0
    · rw [if_pos start]
      decide
    · rw [if_neg start]
      exact Harmless.append (by decide) (number _)
  | none =>
    by_cases start : offset = 0
    · simp only [Dialect.limitOffset, start, if_true]
      decide
    · simp only [Dialect.limitOffset, start, if_false]
      cases d with
      | sqlite =>
        have words : Harmless "LIMIT -1 OFFSET " := by decide
        exact words.append (number _)
      | postgres =>
        have words : Harmless "OFFSET " := by decide
        exact words.append (number _)

theorem limitSql (d : Dialect) (c : Clauses) :
    P (ofText (c.limitSql d)) ∧ StartsApart (ofText (c.limitSql d)) := by
  have cut := harmless_limitOffset d (if c.limit = 0 then none else some c.limit) c.offset
  unfold Clauses.limitSql
  generalize d.limitOffset (if c.limit = 0 then none else some c.limit) c.offset = tail at cut ⊢
  by_cases none : tail.isEmpty = true
  · simp only [none, if_true]
    exact ⟨w.nil, trivial⟩
  · simp only [none]
    exact ⟨w.word (Harmless.append (by decide) cut), by simpa using startsApart_space tail []⟩

section Outlined

variable {d : Dialect} {c : Clauses} (pieces : c.Pieces P T d) {raw having : List Outline}
  {source : Outline} {ps : List (Conjunction × Outline)} (hr : ∀ o ∈ raw, P o.text)
  (hh : ∀ o ∈ having, P o.text) (hs : P source.text) (hp : ∀ e ∈ ps, P e.2.text)

include hr hp in
theorem wovenCondition : P (Clauses.conditionText (Clauses.fragments ps) (raw.map Outline.text)) ∧
    StartsApart (Clauses.conditionText (Clauses.fragments ps) (raw.map Outline.text)) := by
  refine w.conditionText (fun e he => ?_) fun a ha => ?_
  · obtain ⟨o, ho, rfl⟩ := List.mem_map.mp he
    exact hp o ho
  · obtain ⟨o, ho, rfl⟩ := List.mem_map.mp ha
    exact hr o ho

include hh in
theorem wovenHaving : P (Clauses.havingText (having.map Outline.text)) ∧
    StartsApart (Clauses.havingText (having.map Outline.text)) := by
  refine w.havingText fun a ha => ?_
  obtain ⟨o, ho, rfl⟩ := List.mem_map.mp ha
  exact hh o ho

include pieces hr hh hs hp

theorem outlineText : P (c.outlineText d raw having source ps) := by
  obtain ⟨joins, joinsStart⟩ := w.joinsSql pieces
  obtain ⟨condition, conditionStart⟩ := w.wovenCondition hr hp
  obtain ⟨groups, groupsStart⟩ := w.groupSql pieces
  obtain ⟨filter, filterStart⟩ := w.wovenHaving hh
  obtain ⟨order, orderStart⟩ := w.orderSql pieces
  obtain ⟨limit, limitStart⟩ := w.limitSql d c
  have tail : P (ofText (c.orderSql ++ c.limitSql d)) := by
    rw [Marked.ofText_append]
    exact w.append order limit limitStart
  have tailStart : StartsApart (ofText (c.orderSql ++ c.limitSql d)) := by
    rw [Marked.ofText_append]
    exact Marked.startsApart_append orderStart limitStart
  have beginning := w.append (w.head pieces hs) joins joinsStart
  have toGroups := w.append (w.append beginning condition conditionStart) groups groupsStart
  have toHaving := w.append toGroups filter filterStart
  exact w.append toHaving tail tailStart

theorem weave : P (c.weave d raw having source ps).text := by
  rw [Clauses.text_weave]
  exact w.expand pieces.tablePrefix (w.outlineText pieces hr hh hs hp)

end Outlined

theorem outlines {d : Dialect} {ps : List Predicate} (worded : ∀ p ∈ ps, p.Worded P d)
    {ts : List (Conjunction × Template)} (found : Clauses.templates d ps = .ok ts) (k : Nat) :
    ∀ e ∈ Clauses.outlines k ts, P e.2.text := by
  induction ps generalizing ts k with
  | nil =>
    cases found
    exact fun e he => absurd he List.not_mem_nil
  | cons p rest ih =>
    obtain ⟨t, ts', template, later, rfl⟩ := Clauses.templates_cons found
    have here := w.template (worded p List.mem_cons_self) template k
    have others := ih (fun x hx => worded x (List.mem_cons_of_mem _ hx)) later
    intro e he
    rcases List.mem_cons.mp he with rfl | he
    · exact here
    · exact others _ e he

/-- A property that renderers cannot spoil holds of an outline when it holds of every text that is
written by hand. -/
theorem outlineOver {d : Dialect} {c : Clauses} {raw having : List Outline} {source : Source}
    (worded : c.Worded P T d raw having source) {k h : Nat} {o : Outline}
    (outlined : c.outlineOver d raw having k source = .ok (o, h)) : P o.text := by
  induction source generalizing c raw having k h o with
  | none => exact absurd outlined Clauses.outlineOver_none
  | table name correlation =>
    obtain ⟨pieces, raws, havings, table, named⟩ := worded
    obtain ⟨ts, found, rfl, -⟩ := Clauses.outlineOver_table outlined
    refine w.weave pieces raws havings ?_ (w.outlines pieces.predicates found k)
    rw [Outline.ofStatement, String.append_assoc, Marked.ofText_append, Marked.ofText_append]
    exact w.between table (by decide) rfl named
  | derived inner source correlation ih =>
    obtain ⟨pieces, raws, havings, innerWorded, named⟩ := worded
    obtain ⟨o', h', ts, within, found, rfl, -⟩ := Clauses.outlineOver_derived outlined
    refine w.weave pieces raws havings ?_ (w.outlines pieces.predicates found _)
    rw [Clauses.derivedTable, Marked.ofText_append]
    exact w.between (w.parenthesized (ih innerWorded within)) (by decide) rfl named

end Weaves

end Reports.Sql
