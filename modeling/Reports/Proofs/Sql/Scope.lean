import Reports.Proofs.List
import Reports.Proofs.Sql.Embedding
import Reports.Proofs.Sql.JoinCondition
import Reports.Proofs.Sql.Spaced

/-! Which names of tables stay bare. A statement is a row of parts, each written by one query of the
nest; that query puts tables for the names in it, and every query around it expands the result once
more. -/
namespace Reports.Sql

open Marked (ofText ClosedText closedText_ofText weaves_closedText namedTables_tableRef)
open TableRef (Closed Named NamedTables Tidy closed_joined expandWith references)

/-- A text with references, or the name of a table behind FROM or JOIN. -/
inductive Content
  | text (sql : String)
  | target (name : String)

/-- A part, the query that writes it, and the queries around that one, the nearest first. -/
structure Part where
  content : Content
  own : Clauses
  enclosing : List Clauses := []

namespace Part

/-- The part with a table for each name in it. -/
def putting (table : String → String) (part : Part) : String :=
  match part.content with
  | .text sql => expandWith table sql
  | .target name => table name

/-- The part with the tables that its own query knows. -/
def once (part : Part) : String := part.putting part.own.tableRef

/-- The queries that expand it after that. A name behind FROM is part of what its own query
expands. -/
def later (part : Part) : List Clauses :=
  match part.content with
  | .text _ => part.enclosing
  | .target _ => part.own :: part.enclosing

def emitted (part : Part) : String := part.later.foldl (fun sql c => c.expandRefs sql) part.once

def mentions (part : Part) : List String :=
  match part.content with
  | .text sql => references sql
  | .target name => [name]

/-- Whether a name is that of a common table of the query or of one around it. -/
def registered (part : Part) (name : String) : Bool :=
  (part.own :: part.enclosing).any fun c => c.commonTables.contains name

/-- The name of a table in the scope of a part: common tables have no prefix. -/
def scopedRef (part : Part) (name : String) : String :=
  if part.registered name then name else part.own.tablePrefix ++ name

/-- The part with the tables of its scope. -/
def intended (part : Part) : String := part.putting part.scopedRef

def isStray (part : Part) (name : String) : Bool :=
  part.registered name && !part.own.commonTables.contains name

def strays (part : Part) : List String := part.mentions.filter part.isStray

/-- References that are still there when a query around comes to expand them. -/
def again (part : Part) : List String := if part.later.isEmpty then [] else references part.once

/-- Braces outside of quotes only open references. -/
def IsTidy (part : Part) : Prop :=
  match part.content with
  | .text sql => Tidy sql.toList
  | .target name => Named name

def within (c : Clauses) (part : Part) : Part := { part with enclosing := part.enclosing ++ [c] }

theorem emitted_within (c : Clauses) (part : Part) :
    (part.within c).emitted = c.expandRefs part.emitted := by
  obtain ⟨content, own, enclosing⟩ := part
  cases content <;> simp [emitted, within, later, once, putting]

end Part

namespace Clauses

def written (c : Clauses) : Content → String
  | .text sql => sql
  | .target name => c.tableRef name

theorem emitted_own (c : Clauses) (content : Content) :
    (Part.mk content c []).emitted = c.expandRefs (c.written content) := by
  cases content <;> rfl

def joinContents (e : String × Join) : List Content :=
  [.text (" " ++ e.2.kind.sql ++ " "), .target e.2.table, .text (" " ++ e.1 ++ " ON " ++ e.2.on)]

def behindContents (c : Clauses) (d : Dialect) (body : Option Statement) : List Content :=
  c.joins.entries.flatMap joinContents ++
    [.text (whereText body), .text c.groupSql, .text c.havingSql,
      .text (c.orderSql ++ c.limitSql d)]

def ownParts (c : Clauses) (contents : List Content) : List Part :=
  contents.map fun content => ⟨content, c, []⟩

def tableParts (c : Clauses) (d : Dialect) (name correlation : String) (body : Option Statement) :
    List Part :=
  c.ownParts (.text c.head :: .target name :: .text (" " ++ correlation) :: c.behindContents d body)

def derivedParts (c : Clauses) (d : Dialect) (inside : List Part) (correlation : String)
    (body : Option Statement) : List Part :=
  c.ownParts [.text (c.head ++ "(")] ++ inside.map (Part.within c) ++
    c.ownParts (.text (") " ++ correlation) :: c.behindContents d body)

def parts (d : Dialect) (c : Clauses) : Source → Draw (List Part)
  | .none => throw (.configuration .noSource)
  | .table name correlation => do
    let body ← c.whereBody d
    return c.tableParts d name correlation body
  | .derived inner source correlation => do
    let inside ← parts d inner source
    let body ← c.whereBody d
    return c.derivedParts d inside correlation body

section Rows

variable {c : Clauses} {d : Dialect}

theorem startsSeparate_of_apart {s : String} (apart : Apart s) : StartsSeparate s := by
  rcases apart with rfl | ⟨rest, rfl⟩
  · exact .inl rfl
  · exact .inr ⟨' ', rest.toList, rfl, by simp⟩

theorem spaced_of_starts {ts : List String}
    (each : ∀ t ∈ ts, Closed t.toList ∧ StartsSeparate t) :
    Spaced ts ∧ StartsSeparate (String.join ts) := by
  induction ts with
  | nil => exact ⟨trivial, .inl rfl⟩
  | cons t rest ih =>
    obtain ⟨⟨closed, starts⟩, later⟩ := List.forall_mem_cons.mp each
    obtain ⟨spaced, begins⟩ := ih later
    rw [String.join_cons]
    exact ⟨⟨closed, .inr begins, spaced⟩, starts.append begins⟩

theorem map_emitted_ownParts (c : Clauses) (contents : List Content) :
    (c.ownParts contents).map Part.emitted = (contents.map c.written).map c.expandRefs := by
  simp [ownParts, emitted_own]

theorem map_emitted_within (c : Clauses) (inside : List Part) :
    (inside.map (Part.within c)).map Part.emitted = (inside.map Part.emitted).map c.expandRefs := by
  simp [Part.emitted_within]

theorem join_joinContents (c : Clauses) (es : List (String × Join)) :
    String.join ((es.flatMap joinContents).map c.written) = c.joinTexts es := by
  induction es with
  | nil => rfl
  | cons e rest ih =>
    have here : String.join ((joinContents e).map c.written) = " " ++ c.joinSql e.1 e.2 := by
      simp [joinContents, written, joinSql, Join.on, String.join_cons, String.append_assoc]
    rw [List.flatMap_cons, List.map_append, String.join_append, here, ih]
    rw [joinTexts, joinTexts, List.map_cons, String.join_cons]

theorem join_behindContents (c : Clauses) (d : Dialect) (body : Option Statement) :
    String.join ((c.behindContents d body).map c.written) =
      c.joinsSql ++ c.behindJoins d body := by
  rw [behindContents, List.map_append, String.join_append, join_joinContents]
  simp [written, String.join_cons, String.append_assoc, joinTexts, joinsSql, behindJoins]

theorem startsSeparate_joinContents (c : Clauses) (es : List (String × Join)) :
    StartsSeparate (String.join ((es.flatMap joinContents).map c.written)) := by
  rw [join_joinContents]
  exact startsSeparate_of_apart (c.apart_joinTexts es)

theorem startsSeparate_behindContents (c : Clauses) (d : Dialect) (body : Option Statement) :
    StartsSeparate (String.join ((c.behindContents d body).map c.written)) := by
  rw [join_behindContents]
  exact startsSeparate_of_apart ((c.apart_joinTexts _).append (c.apart_behindJoins d body))

variable {T : String → Prop} (w : Weaves ClosedText T) (pieces : c.Pieces ClosedText T d)

include w pieces

theorem closed_on {e : String × Join} (inside : e ∈ c.joins.entries) : Closed e.2.on.toList := by
  obtain ⟨-, -, conditions⟩ := pieces.joins e inside
  unfold Join.on
  split
  · decide
  · exact closedText_ofText.mp (w.textJoin " AND " (by decide) (fun _ => rfl) conditions)

theorem spaced_joinContents {es : List (String × Join)}
    (inside : ∀ e ∈ es, e ∈ c.joins.entries) :
    Spaced ((es.flatMap joinContents).map c.written) := by
  induction es with
  | nil => trivial
  | cons e rest ih =>
    obtain ⟨here, later⟩ := List.forall_mem_cons.mp inside
    obtain ⟨correlation, table, -⟩ := pieces.joins e here
    have kind : Closed (" " ++ e.2.kind.sql ++ " ").toList ∧
        EndsSeparate (" " ++ e.2.kind.sql ++ " ") := by
      refine ⟨by cases e.2.kind <;> decide, (" " ++ e.2.kind.sql).toList, ' ', rfl, by simp⟩
    have blank : Closed " ".toList := by decide
    have word : Closed " ON ".toList := by decide
    have condition :=
      closed_joined (closed_joined (closed_joined blank (closedText_ofText.mp correlation))
      word) (closed_on w pieces here)
    have behind : StartsSeparate (" " ++ e.1 ++ " ON " ++ e.2.on) :=
      .inr ⟨' ', (e.1 ++ " ON " ++ e.2.on).toList, rfl, by simp⟩
    have begins := c.startsSeparate_joinContents rest
    refine ⟨kind.1, .inl kind.2, closedText_ofText.mp table, .inr ?_, condition,
      .inr begins, ih later⟩
    exact String.join_cons ▸ behind.append begins

omit pieces in
theorem closed_havingSql (having : ∀ o ∈ c.rawHaving.map Outline.ofStatement,
    ClosedText o.text) :
    Closed c.havingSql.toList := by
  rw [← filled_havingText id c _ (fill_map_ofStatement c.rawHaving), toList_filled]
  exact (w.wovenHaving having).1 id

theorem spaced_behindContents (raw : ∀ o ∈ c.rawWhere.map Outline.ofStatement,
    ClosedText o.text)
    (having : ∀ o ∈ c.rawHaving.map Outline.ofStatement, ClosedText o.text) {n m : Nat}
    {body : Option Statement} (given : c.whereBody d n = (.ok body, m)) :
    Spaced ((c.behindContents d body).map c.written) := by
  have condition := closedText_ofText.mp
    (woven_whereText w Marked.fills_closedText pieces.predicates raw given)
  have groups := closedText_ofText.mp (w.groupSql pieces).1
  have order := closed_joined (closedText_ofText.mp (w.orderSql pieces).1)
    (closedText_ofText.mp (w.limitSql d c).1)
  have each : ∀ t ∈ [whereText body, c.groupSql, c.havingSql, c.orderSql ++ c.limitSql d],
      Closed t.toList ∧ StartsSeparate t := by
    simp only [List.forall_mem_cons, List.not_mem_nil, false_implies, implies_true, and_true]
    exact ⟨⟨condition, startsSeparate_of_apart (apart_whereText body)⟩,
      ⟨groups, startsSeparate_of_apart c.apart_groupSql⟩,
      ⟨closed_havingSql w having, startsSeparate_of_apart c.apart_havingSql⟩,
      order, startsSeparate_of_apart (c.apart_orderSql.append (c.apart_limitSql d))⟩
  obtain ⟨tail, starts⟩ := spaced_of_starts each
  rw [behindContents, List.map_append]
  exact (spaced_joinContents w pieces fun _ inside => inside).append tail starts

omit w pieces in
theorem endsSeparate_head (c : Clauses) : EndsSeparate c.head := by
  refine ⟨(c.withClause ++ "SELECT " ++ (if c.emitsDistinct then "DISTINCT " else "") ++
    c.selectList ++ " FROM").toList, ' ', rfl, ?_⟩
  simp [head]

theorem closed_head : Closed c.head.toList := by
  have whole := w.head pieces w.nil
  rw [List.append_nil] at whole
  exact closedText_ofText.mp whole

omit w pieces in
theorem text_eq_behind (c : Clauses) (d : Dialect) (source : String) (body : Option Statement) :
    c.text d source (whereText body) =
      c.head ++ source ++ String.join ((c.behindContents d body).map c.written) := by
  rw [join_behindContents]
  simp only [text, head, behindJoins, String.append_assoc]

end Rows

section Sources

variable {d : Dialect} {c : Clauses} {body : Option Statement} {correlation : String}

theorem expandRefs_row (named : Named c.tablePrefix) {front : List String} {source : String}
    (read : String.join front = c.head ++ source)
    (row : Spaced (front ++ (c.behindContents d body).map c.written)) :
    c.expandRefs (c.text d source (whereText body)) =
        String.join ((front ++ (c.behindContents d body).map c.written).map c.expandRefs) ∧
      Spaced ((front ++ (c.behindContents d body).map c.written).map c.expandRefs) := by
  have whole := row.expandWith (namedTables_tableRef named)
  rwa [String.join_append, read, ← text_eq_behind] at whole

theorem expandRefs_table (named : Named c.tablePrefix) {name : String} (head : Closed c.head.toList)
    (table : Closed (c.tableRef name).toList) (known : Closed correlation.toList)
    (behind : Spaced ((c.behindContents d body).map c.written)) :
    c.expandRefs (c.text d (c.tableRef name ++ " " ++ correlation) (whereText body)) =
        String.join ((c.tableParts d name correlation body).map Part.emitted) ∧
      Spaced ((c.tableParts d name correlation body).map Part.emitted) := by
  have begins := c.startsSeparate_behindContents d body
  have blank : Closed " ".toList := by decide
  have starts : StartsSeparate (" " ++ correlation) :=
    .inr ⟨' ', correlation.toList, rfl, by simp⟩
  have row : Spaced ([c.head, c.tableRef name, " " ++ correlation] ++
      (c.behindContents d body).map c.written) := by
    refine ⟨head, .inl c.endsSeparate_head, table, .inr ?_, closed_joined blank known,
      .inr begins, behind⟩
    exact String.join_cons ▸ starts.append begins
  have read : String.join [c.head, c.tableRef name, " " ++ correlation] =
      c.head ++ (c.tableRef name ++ " " ++ correlation) := by
    simp [String.join_cons, String.append_assoc]
  have emitted : (c.tableParts d name correlation body).map Part.emitted =
      ([c.head, c.tableRef name, " " ++ correlation] ++
        (c.behindContents d body).map c.written).map c.expandRefs := by
    rw [tableParts, map_emitted_ownParts]
    simp only [List.map_cons, written, List.cons_append, List.nil_append]
  rw [emitted]
  exact expandRefs_row named read row

theorem expandRefs_derived (named : Named c.tablePrefix) {inside : List Part} {sql : String}
    (nested : sql = String.join (inside.map Part.emitted))
    (spaced : Spaced (inside.map Part.emitted))
    (head : Closed c.head.toList) (known : Closed correlation.toList)
    (behind : Spaced ((c.behindContents d body).map c.written)) :
    c.expandRefs (c.text d ("(" ++ sql ++ ") " ++ correlation) (whereText body)) =
        String.join ((c.derivedParts d inside correlation body).map Part.emitted) ∧
      Spaced ((c.derivedParts d inside correlation body).map Part.emitted) := by
  have begins := c.startsSeparate_behindContents d body
  have opening : Closed "(".toList := by decide
  have closing : Closed ") ".toList := by decide
  have opened : EndsSeparate (c.head ++ "(") := ⟨c.head.toList, '(', rfl, by simp⟩
  have starts : StartsSeparate (") " ++ correlation) :=
    .inr ⟨')', ' ' :: correlation.toList, rfl, by simp⟩
  have rest : Spaced ((") " ++ correlation) :: (c.behindContents d body).map c.written) :=
    ⟨closed_joined closing known, .inr begins, behind⟩
  have row : Spaced (([c.head ++ "("] ++ inside.map Part.emitted ++ [") " ++ correlation]) ++
      (c.behindContents d body).map c.written) := by
    have whole := spaced.append rest (String.join_cons ▸ starts.append begins)
    rw [List.append_assoc, List.append_assoc]
    exact ⟨closed_joined head opening, .inl opened, whole⟩
  have read : String.join ([c.head ++ "("] ++ inside.map Part.emitted ++ [") " ++ correlation]) =
      c.head ++ ("(" ++ sql ++ ") " ++ correlation) := by
    simp [String.join_cons, String.join_append, nested, String.append_assoc]
  have emitted : (c.derivedParts d inside correlation body).map Part.emitted =
      (([c.head ++ "("] ++ inside.map Part.emitted ++ [") " ++ correlation]) ++
        (c.behindContents d body).map c.written).map c.expandRefs := by
    simp only [derivedParts, List.map_append, map_emitted_ownParts, map_emitted_within,
      List.map_cons, List.map_nil, written, List.append_assoc, List.cons_append, List.nil_append]
  rw [emitted]
  exact expandRefs_row named read row

theorem prefixes_ownParts {T : String → Prop} (here : T c.tablePrefix) (contents : List Content) :
    ∀ part ∈ c.ownParts contents, ∀ c ∈ part.own :: part.enclosing, T c.tablePrefix := by
  simp [ownParts, here]

theorem prefixes_within {T : String → Prop} (here : T c.tablePrefix) {inside : List Part}
    (each : ∀ part ∈ inside, ∀ c ∈ part.own :: part.enclosing, T c.tablePrefix) :
    ∀ part ∈ inside.map (Part.within c), ∀ c ∈ part.own :: part.enclosing,
    T c.tablePrefix := by
  intro part mem
  obtain ⟨part', listed, rfl⟩ := List.mem_map.mp mem
  obtain ⟨own, enclosing⟩ := List.forall_mem_cons.mp (each part' listed)
  refine List.forall_mem_cons.mpr ⟨own, fun c' around => ?_⟩
  rcases List.mem_append.mp around with nearer | outermost
  · exact enclosing c' nearer
  · exact List.mem_singleton.mp outermost ▸ here

end Sources

section Render

variable {d : Dialect} {T : String → Prop} (w : Weaves ClosedText T)
  (plain : ∀ t, T t → Named t)

include w plain

theorem renderOver_parts {c : Clauses} {source : Source} {n m : Nat} {s : Statement}
    (worded : c.Worded ClosedText T d (c.rawWhere.map .ofStatement)
      (c.rawHaving.map .ofStatement) source)
    (rendered : c.renderOver d source n = (.ok s, m)) :
    ∃ parts, c.parts d source n = (.ok parts, m) ∧
      s.sql = String.join (parts.map Part.emitted) ∧ Spaced (parts.map Part.emitted) ∧
      ∀ part ∈ parts, ∀ c ∈ part.own :: part.enclosing, T c.tablePrefix := by
  induction source generalizing c n m s with
  | none => cases rendered
  | table name correlation =>
    obtain ⟨pieces, raw, having, table, known⟩ := worded
    obtain ⟨body, given, text⟩ := of_assemble rendered
    have behind := spaced_behindContents w pieces raw having given
    obtain ⟨joined, spaced⟩ :=
      expandRefs_table (plain _ pieces.tablePrefix) (closed_head w pieces)
      (closedText_ofText.mp table) (closedText_ofText.mp known) behind
    refine ⟨c.tableParts d name correlation body, ?_, text.trans joined, spaced,
      prefixes_ownParts pieces.tablePrefix _⟩
    rw [parts, Effect.bind_ok _ given]
    rfl
  | derived inner source correlation ih =>
    obtain ⟨pieces, raw, having, within, known⟩ := worded
    rw [renderOver_eq] at rendered
    obtain ⟨given, k, found, assembled⟩ := Effect.of_bind_ok rendered
    rw [sourceStatement] at found
    obtain ⟨s', k', nested, found⟩ := Effect.of_bind_ok found
    cases found
    obtain ⟨inside, shown, whole, row, prefixes⟩ := ih within nested
    obtain ⟨body, condition, text⟩ := of_assemble assembled
    have behind := spaced_behindContents w pieces raw having condition
    obtain ⟨joined, spaced⟩ := expandRefs_derived (plain _ pieces.tablePrefix) whole row
      (closed_head w pieces) (closedText_ofText.mp known) behind
    refine ⟨c.derivedParts d inside correlation body, ?_, text.trans joined, spaced,
      fun part mem => ?_⟩
    · rw [parts, Effect.bind_ok _ shown, Effect.bind_ok _ condition]
      rfl
    · rcases List.mem_append.mp mem with front | own
      · rcases List.mem_append.mp front with own | nested
        · exact prefixes_ownParts pieces.tablePrefix _ part own
        · exact prefixes_within pieces.tablePrefix prefixes part nested
      · exact prefixes_ownParts pieces.tablePrefix _ part own

end Render

end Clauses

namespace TableRef

theorem length_expandWith {table table' : String → String} {longer : String → Bool} {k : Nat}
    (differ : ∀ name, (table name).length = (table' name).length + if longer name then k else 0)
    (sql : String) : (expandWith table sql).length =
      (expandWith table' sql).length + ((references sql).filter longer).length * k := by
  have items (is : List Item) : (is.flatMap (Item.expanded table)).length =
      (is.flatMap (Item.expanded table')).length +
        ((is.filterMap Item.name?).filter longer).length * k := by
    induction is with
    | nil => simp
    | cons item rest ih =>
      rw [List.flatMap_cons, List.flatMap_cons, List.length_append, List.length_append, ih]
      cases item with
      | char c => simp only [Item.expanded, List.filterMap_cons, Item.name?]; omega
      | reference name =>
        have here := differ (String.ofList name)
        simp only [Item.expanded, List.filterMap_cons, Item.name?, List.filter_cons,
          String.length_toList]
        split
        · next long =>
          rw [if_pos long] at here
          rw [List.length_cons, Nat.succ_mul]
          omega
        · next short =>
          rw [if_neg short] at here
          omega
  rw [← String.length_toList, ← String.length_toList, toList_expandWith_readings,
    toList_expandWith_readings]
  exact items _

end TableRef

def braces (s : String) : Nat := s.toList.count '\x7b'

theorem braces_join (ts : List String) : braces (String.join ts) = (ts.map braces).sum := by
  induction ts with
  | nil => rfl
  | cons t rest ih =>
    rw [String.join_cons, List.map_cons, List.sum_cons, ← ih]
    simp [braces]

/-- A prefix of tables: some letters, digits and underscores. -/
def IsPrefix (t : String) : Prop := Named t ∧ t ≠ ""

namespace Part

variable {part : Part} (prefixes : ∀ c ∈ part.own :: part.enclosing, IsPrefix c.tablePrefix)

/-- The queries themselves put a prefix before strays, and are right about all other names. -/
theorem tableRef_own (part : Part) (name : String) : part.own.tableRef name =
    (if part.isStray name then part.own.tablePrefix else "") ++ part.scopedRef name := by
  unfold isStray scopedRef Clauses.tableRef
  by_cases own : part.own.commonTables.contains name = true
  · have known : part.registered name = true := by simp [registered, own]
    simp [own, known]
  · by_cases known : part.registered name = true <;> simp [own, known]

include prefixes

theorem namedTables_own : NamedTables part.own.tableRef :=
  namedTables_tableRef (prefixes _ List.mem_cons_self).1

theorem namedTables_scopedRef : NamedTables part.scopedRef := by
  intro name letters
  unfold scopedRef
  split
  · exact letters
  · intro c mem
    rw [String.toList_append] at mem
    exact (List.mem_append.mp mem).elim ((prefixes _ List.mem_cons_self).1 c) (letters c)

omit prefixes in
theorem once_eq_intended (none : part.strays = []) : part.once = part.intended := by
  have right : ∀ name ∈ part.mentions, part.own.tableRef name = part.scopedRef name := by
    intro name mem
    have known : part.isStray name = false := by
      simpa using List.filter_eq_nil_iff.mp none name mem
    rw [tableRef_own, known]
    simp
  obtain ⟨content, own, enclosing⟩ := part
  cases content with
  | text sql => exact TableRef.expandWith_congr right
  | target name => exact right name List.mem_cons_self

omit prefixes in
theorem length_once (part : Part) : part.once.length =
    part.intended.length + part.strays.length * part.own.tablePrefix.length := by
  have differ (name : String) : (part.own.tableRef name).length = (part.scopedRef name).length +
      if part.isStray name then part.own.tablePrefix.length else 0 := by
    rw [tableRef_own, String.length_append]
    split <;> simp [Nat.add_comm]
  cases content : part.content with
  | text sql =>
    simpa only [once, intended, putting, strays, mentions, content] using
      TableRef.length_expandWith differ sql
  | target name =>
    have here := differ name
    simp only [once, intended, putting, strays, mentions, content, List.filter_cons,
      List.filter_nil]
    split <;> simp_all

theorem braces_once : braces part.once = braces part.intended := by
  cases content : part.content with
  | text sql =>
    have own := TableRef.count_brace_expandWith (namedTables_own prefixes) sql
    have inScope := TableRef.count_brace_expandWith (namedTables_scopedRef prefixes) sql
    simp only [once, intended, putting, braces, content]
    omega
  | target name =>
    have none : part.own.tablePrefix.toList.count '\x7b' = 0 := by
      refine List.count_eq_zero.mpr fun mem => ?_
      exact absurd ((prefixes _ List.mem_cons_self).1 _ mem) (by decide)
    simp only [once, intended, putting, braces, content, tableRef_own, String.toList_append,
      List.count_append]
    split <;> simp [none]

omit prefixes in
theorem braces_foldl {cs : List Clauses} (named : ∀ c ∈ cs, IsPrefix c.tablePrefix)
    (sql : String) :
    braces (cs.foldl (fun sql c => c.expandRefs sql) sql) ≤ braces sql := by
  induction cs generalizing sql with
  | nil => exact Nat.le_refl _
  | cons c rest ih =>
    obtain ⟨here, later⟩ := List.forall_mem_cons.mp named
    have step := TableRef.count_brace_expandWith (namedTables_tableRef here.1) sql
    have whole := ih later (c.expandRefs sql)
    simp only [braces, Clauses.expandRefs, List.foldl_cons] at whole ⊢
    omega

omit prefixes in
theorem foldl_of_settled {cs : List Clauses} (named : ∀ c ∈ cs, IsPrefix c.tablePrefix)
    {sql : String} (settled : references sql = []) :
    cs.foldl (fun sql c => c.expandRefs sql) sql = sql := by
  induction cs with
  | nil => rfl
  | cons c rest ih =>
    obtain ⟨here, later⟩ := List.forall_mem_cons.mp named
    have step : c.expandRefs sql = sql :=
      (TableRef.expandWith_eq_self_iff (namedTables_tableRef here.1) sql).mpr settled
    rw [List.foldl_cons, step, ih later]

theorem prefixes_later : ∀ c ∈ part.later, IsPrefix c.tablePrefix := by
  intro c mem
  unfold later at mem
  split at mem
  · exact prefixes c (List.mem_cons_of_mem _ mem)
  · exact prefixes c mem

theorem braces_emitted : braces part.emitted ≤ braces part.intended := by
  rw [← braces_once prefixes]
  exact braces_foldl (prefixes_later prefixes) _

theorem emitted_eq_once (none : part.again = []) : part.emitted = part.once := by
  unfold again at none
  split at none
  · next alone => rw [emitted, List.isEmpty_iff.mp alone, List.foldl_nil]
  · exact foldl_of_settled (prefixes_later prefixes) none

theorem again_of_braces (same : braces part.emitted = braces part.intended) : part.again = [] := by
  rw [← braces_once prefixes] at same
  unfold again
  split
  · rfl
  · next some =>
    obtain ⟨c, rest, shape⟩ := List.exists_cons_of_ne_nil (mt List.isEmpty_iff.mpr some)
    obtain ⟨here, later⟩ := List.forall_mem_cons.mp (shape ▸ prefixes_later prefixes)
    have step := TableRef.count_brace_expandWith (namedTables_tableRef here.1) part.once
    have whole := braces_foldl later (c.expandRefs part.once)
    rw [emitted, shape, List.foldl_cons] at same
    simp only [braces, Clauses.expandRefs] at same whole
    exact List.eq_nil_of_length_eq_zero (by omega)

theorem strays_of_length (settled : part.again = [])
    (same : part.emitted.length = part.intended.length) : part.strays = [] := by
  have lengths := length_once part
  rw [← emitted_eq_once prefixes settled, same] at lengths
  have long : part.own.tablePrefix.length ≠ 0 := fun none =>
    (prefixes _ List.mem_cons_self).2 (String.length_eq_zero_iff.mp none)
  have product : part.strays.length * part.own.tablePrefix.length = 0 := by omega
  exact List.eq_nil_of_length_eq_zero ((Nat.mul_eq_zero.mp product).resolve_right long)

/-- A part is as its scope has it exactly if nothing in it is expanded again and it has no stray. -/
theorem emitted_eq_intended_iff :
    part.emitted = part.intended ↔ part.again = [] ∧ part.strays = [] := by
  constructor
  · intro same
    have settled := again_of_braces prefixes (congrArg braces same)
    exact ⟨settled, strays_of_length prefixes settled (congrArg String.length same)⟩
  · rintro ⟨settled, none⟩
    rw [emitted_eq_once prefixes settled, once_eq_intended none]

theorem again_of_isTidy (tidy : part.IsTidy) : part.again = [] := by
  have tables := namedTables_own prefixes
  have settled : references part.once = [] := by
    cases content : part.content with
    | text sql =>
      simp only [IsTidy, content] at tidy
      have fixed :=
        (tidy.settled tables (show TableRef.Begun .plain from trivial)).fixed part.own.tableRef
      simp only [once, putting, content]
      rw [← TableRef.expandWith_eq_self_iff tables, ← String.toList_inj,
        TableRef.toList_expandWith, TableRef.toList_expandWith]
      exact fixed
    | target name =>
      simp only [IsTidy, content] at tidy
      have braceless : '\x7b' ∉ (part.own.tableRef name).toList := fun mem =>
        absurd (tables name tidy _ mem) (by decide)
      simp only [once, putting, content]
      exact (TableRef.expandWith_eq_self_iff tables _).mp
        (TableRef.expandWith_of_braceless braceless)
  rw [again, settled, ite_self]

omit prefixes in
theorem strays_of_outermost (outermost : part.enclosing = []) : part.strays = [] := by
  refine List.filter_eq_nil_iff.mpr fun name _ => ?_
  simp [isStray, registered, outermost]

end Part

/-- A row is as scopes have it exactly if all its parts are: what is too much in one of them is not
made up for by another. -/
theorem join_emitted_eq_iff {parts : List Part}
    (prefixes : ∀ part ∈ parts, ∀ c ∈ part.own :: part.enclosing, IsPrefix c.tablePrefix) :
    String.join (parts.map Part.emitted) = String.join (parts.map Part.intended) ↔
      ∀ part ∈ parts, part.again = [] ∧ part.strays = [] := by
  constructor
  · intro same
    have opened := congrArg braces same
    have lengths := congrArg String.length same
    have fewer : ∀ part ∈ parts, (braces ∘ Part.emitted) part ≤
        (braces ∘ Part.intended) part :=
      fun part mem => Part.braces_emitted (prefixes part mem)
    rw [braces_join, braces_join, List.map_map, List.map_map, List.sum_map_eq_iff fewer] at opened
    have settled : ∀ part ∈ parts, part.again = [] := fun part mem =>
      Part.again_of_braces (prefixes part mem) (opened part mem)
    have longer : ∀ part ∈ parts,
        (String.length ∘ Part.intended) part ≤ (String.length ∘ Part.emitted) part := by
      intro part mem
      rw [Function.comp_apply, Function.comp_apply,
        Part.emitted_eq_once (prefixes part mem) (settled part mem), Part.length_once]
      omega
    rw [String.length_join, String.length_join, List.map_map, List.map_map, eq_comm,
      List.sum_map_eq_iff longer] at lengths
    intro part mem
    exact ⟨settled part mem,
      Part.strays_of_length (prefixes part mem) (settled part mem) (lengths part mem).symm⟩
  · intro right
    refine congrArg String.join (List.map_congr_left fun part mem => ?_)
    exact (Part.emitted_eq_intended_iff (prefixes part mem)).mpr (right part mem)

theorem Marked.weaves_closedText_isPrefix : Weaves ClosedText IsPrefix :=
  { weaves_closedText with expand := fun named ha => weaves_closedText.expand named.1 ha }

/-- A statement has every name of a table as the scope of its part has it, bare for common tables of
the query and of those around it and with one prefix else, exactly if no part has a stray and none
has references left for the queries around it. -/
theorem Query.render_scoped {d : Dialect} {q : Query} (worded : q.Worded ClosedText IsPrefix d)
    {n m : Nat} {s : Statement} (rendered : q.render d n = (.ok s, m)) :
    ∃ parts, q.toClauses.parts d q.source n = (.ok parts, m) ∧
      s.sql = String.join (parts.map Part.emitted) ∧
      (∀ part ∈ parts,
        (part.emitted = part.intended ↔ part.again = [] ∧ part.strays = []) ∧
        (part.IsTidy → part.again = []) ∧ (part.enclosing = [] → part.strays = [])) ∧
      (s.sql = String.join (parts.map Part.intended) ↔
        ∀ part ∈ parts, part.again = [] ∧ part.strays = []) := by
  obtain ⟨parts, shown, whole, -, prefixes⟩ :=
    Clauses.renderOver_parts Marked.weaves_closedText_isPrefix
      (fun _ named => named.1) worded rendered
  refine ⟨parts, shown, whole, fun part mem => ⟨?_, ?_, ?_⟩, ?_⟩
  · exact Part.emitted_eq_intended_iff (prefixes part mem)
  · exact Part.again_of_isTidy (prefixes part mem)
  · exact Part.strays_of_outermost
  · rw [whole]
    exact join_emitted_eq_iff prefixes

/-- A common table that a derived table reads, and the join beside it too. -/
def recentTwice : Query :=
  let inner := ((Query.withPrefix "mdl_").readFrom "recent" "r").whereRaw
    ⟨"r.id IN (SELECT x.id FROM {recent} x)", ∅⟩
  (((Query.withPrefix "mdl_").setCommonTable "recent" ⟨"SELECT r.id FROM {log} r", ∅⟩).readFromQuery
    inner "q").join "recent" "rr" "rr.id = q.id" .inner

theorem worded_recentTwice (d : Dialect) : recentTwice.Worded ClosedText IsPrefix d := by
  have given : IsPrefix "mdl_" := ⟨by decide, by decide⟩
  refine ⟨⟨given, nofun, ?_, ?_, nofun, nofun, nofun⟩, nofun, nofun,
    ⟨⟨given, nofun, nofun, nofun, nofun, nofun, nofun⟩, ?_, nofun, ?_, ?_⟩, ?_⟩
  · refine List.forall_mem_singleton.mpr ⟨closedText_ofText.mpr ?_, closedText_ofText.mpr ?_,
      List.forall_mem_singleton.mpr (closedText_ofText.mpr ?_)⟩ <;> decide +kernel
  · exact List.forall_mem_singleton.mpr
      ⟨closedText_ofText.mpr (by decide +kernel), closedText_ofText.mpr (by decide +kernel)⟩
  · exact List.forall_mem_singleton.mpr (closedText_ofText.mpr (by decide +kernel))
  all_goals exact closedText_ofText.mpr (by decide +kernel)

theorem Query.render_scoped_recentTwice : ∃ s m parts,
    recentTwice.render .sqlite 0 = (.ok s, m) ∧
    recentTwice.toClauses.parts .sqlite recentTwice.source 0 = (.ok parts, m) ∧
    s.sql =
      "WITH recent AS (SELECT r.id FROM mdl_log r) SELECT DISTINCT * FROM (SELECT DISTINCT * " ++
      "FROM mdl_recent r WHERE (r.id IN (SELECT x.id FROM mdl_recent x))) q JOIN recent rr ON rr.id = q.id" ∧
    String.join (parts.map Part.intended) =
      "WITH recent AS (SELECT r.id FROM mdl_log r) SELECT DISTINCT * FROM (SELECT DISTINCT * " ++
      "FROM recent r WHERE (r.id IN (SELECT x.id FROM recent x))) q JOIN recent rr ON rr.id = q.id" ∧
    (∃ part ∈ parts, part.strays = ["recent"] ∧ part.emitted = "mdl_recent" ∧
      part.intended = "recent") ∧
    s.sql ≠ String.join (parts.map Part.intended) := by
  obtain ⟨parts, shown, whole, -, law⟩ :=
    Query.render_scoped (worded_recentTwice .sqlite) (n := 0) rfl
  have stray : ∃ part ∈ parts, part.strays = ["recent"] ∧ part.emitted = "mdl_recent" ∧
      part.intended = "recent" := by
    cases shown
    exact ⟨_, List.mem_of_getElem?
      (i := 2) rfl, by decide +kernel, by decide +kernel, by decide +kernel⟩
  refine ⟨_, _, parts, rfl, shown, ?_, ?_, stray, fun same => ?_⟩
  · rw [whole]
    cases shown
    decide +kernel
  · cases shown
    decide +kernel
  · obtain ⟨part, mem, strays, -⟩ := stray
    rw [(law.mp same part mem).2] at strays
    cases strays

end Reports.Sql
