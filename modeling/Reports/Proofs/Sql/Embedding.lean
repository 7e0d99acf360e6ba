import Reports.Proofs.Sql.Tidy
import Reports.Sql.Count

/-! Counts over a derived table. The statement of the table is finished, but the count expands it
once more: it stands there as it was rendered exactly if that left no reference. -/
namespace Reports.Sql

open Reports.Text (Scanner)

namespace TableRef

def references (sql : String) : List String := (readings sql.toList).filterMap Item.name?

theorem isName_of_mem_readings {cs name : List Char} (mem : .reference name ∈ readings cs) :
    Text.isName name = true := by
  obtain ⟨stretch, -, mem⟩ := List.mem_flatMap.mp mem
  cases stretch with
  | plain t => exact isName_of_mem_items mem
  | quoted t => simp [Stretch.items] at mem

theorem named_of_isName {name : List Char} (named : Text.isName name = true) :
    Named (String.ofList name) := by
  rw [Named, String.toList_ofList]
  exact (Text.isName_iff.mp named).2

theorem count_brace_expanded {table : String → String} (tables : NamedTables table)
    {is : List Item} (names : ∀ name, .reference name ∈ is → Text.isName name = true) :
    (is.flatMap (Item.expanded table)).count '\x7b' + (is.filterMap Item.name?).length =
      (is.flatMap Item.text).count '\x7b' := by
  have none {s : String} (named : Named s) : s.toList.count '\x7b' = 0 :=
    List.count_eq_zero.mpr fun mem => absurd (named _ mem) (by decide)
  induction is with
  | nil => rfl
  | cons item rest ih =>
    have later := ih fun name mem => names name (List.mem_cons_of_mem _ mem)
    rw [List.flatMap_cons, List.flatMap_cons, List.count_append, List.count_append]
    cases item with
    | char c =>
      have skip : (Item.char c :: rest).filterMap Item.name? = rest.filterMap Item.name? := rfl
      rw [skip, ← later]
      simp only [Item.expanded, Item.text]
      omega
    | reference name =>
      have named := named_of_isName (names name List.mem_cons_self)
      have noBrace := none (tables _ named)
      have inName := none named
      rw [String.toList_ofList] at inName
      have once : (Item.reference name).text.count '\x7b' = 1 := by
        simp [Item.text, List.count_append, inName]
      have more : ((Item.reference name :: rest).filterMap Item.name?).length =
          (rest.filterMap Item.name?).length + 1 := rfl
      rw [once, more, ← later]
      simp only [Item.expanded, noBrace]
      omega

theorem count_brace_expandWith {table : String → String} (tables : NamedTables table)
    (sql : String) : (expandWith table sql).toList.count '\x7b' + (references sql).length =
      sql.toList.count '\x7b' := by
  have names : ∀ name, .reference name ∈ readings sql.toList → Text.isName name = true :=
    fun name mem => isName_of_mem_readings mem
  have count := count_brace_expanded tables names
  rwa [← toList_expandWith_readings, flatMap_text_readings] at count

theorem expandWith_congr {table table' : String → String} {sql : String}
    (same : ∀ name ∈ references sql, table name = table' name) :
    expandWith table sql = expandWith table' sql := by
  rw [← String.toList_inj, toList_expandWith_readings, toList_expandWith_readings]
  refine List.flatMap_congr fun item mem => ?_
  cases item with
  | char c => rfl
  | reference name =>
    exact congrArg String.toList (same _ (List.mem_filterMap.mpr ⟨_, mem, rfl⟩))

theorem expandWith_eq_self_iff {table : String → String} (tables : NamedTables table)
    (sql : String) :
    expandWith table sql = sql ↔ references sql = [] := by
  have count := count_brace_expandWith tables sql
  constructor
  · intro same
    rw [same] at count
    exact List.eq_nil_of_length_eq_zero (by omega)
  · intro none
    have chars : ∀ item ∈ readings sql.toList, item.expanded table = item.text := by
      intro item mem
      cases item with
      | char c => rfl
      | reference name =>
        have listed : String.ofList name ∈ references sql :=
          List.mem_filterMap.mpr ⟨_, mem, rfl⟩
        rw [none] at listed
        cases listed
    rw [← String.toList_inj, toList_expandWith_readings, List.flatMap_congr chars,
      flatMap_text_readings]

theorem run_closing (table : String → String) (s : State) :
    (scanner table).run s [')', ' ', 'x'] = (scanner table).finish s ++ [')', ' ', 'x'] := by
  cases s with
  | plain => rfl
  | quoted q => exact run_of_braceless (fun name => State.noConfusion) (by decide)
  | braced name =>
    have stops : continues name ')' = false := by
      unfold continues
      split <;> decide
    have step : (scanner table).step (.braced name) ')' = (held name ++ [')'], .plain) :=
      step_stops table (fun closed => absurd closed.1 (by decide)) stops
    rw [Scanner.run_cons, step, List.append_assoc]
    rfl

theorem expandWith_derived (table : String → String) {head : String} (harmless : Harmless head)
    (sql : String) : expandWith table (head ++ sql ++ ") x") = head ++
    expandWith table sql ++ ") x" := by
  have tidy := tidy_of_harmless harmless
  have braceless : '\x7b' ∉ head.toList := by
    intro mem
    exact absurd (List.all_eq_true.mp harmless _ mem) (by decide)
  have whole : (scanner table).run .plain sql.toList = (scanner table).emitted .plain sql.toList ++
      (scanner table).finish ((scanner table).after .plain sql.toList) := rfl
  have closing : expandWith table (sql ++ ") x") = expandWith table sql ++ ") x" := by
    have chars : ") x".toList = [')', ' ', 'x'] := rfl
    rw [← String.toList_inj, toList_expandWith, String.toList_append, String.toList_append,
      toList_expandWith, Scanner.run_append, chars, run_closing, whole, List.append_assoc]
  rw [String.append_assoc, expandWith_append tidy, expandWith_of_braceless braceless, closing,
    String.append_assoc]

end TableRef

open TableRef (Named Tidy)
open Marked (Tidied tidied_ofText)

namespace Count

/-- What is counted, in terms of the derived table. -/
def expression (unique : Bool) : String :=
  if unique then "COUNT(DISTINCT " ++ countedTable ++ "." ++ uniqueId ++ ")" else "COUNT(*)"

def inner (q : Query) (unique : Bool) : Query :=
  if unique then (clearSelects (strip q)).select (identityExpr q) uniqueId else strip q

/-- The count takes the form of a derived table. -/
def Wrapped (q : Query) : Prop := q.commonTables.isEmpty = true ∨ q.rawHaving.isEmpty = false

/-- A count over a statement as a derived table. -/
def embedding (unique : Bool) (sql : String) : String :=
  "SELECT " ++ expression unique ++ " AS total FROM (" ++ sql ++ ") x"

theorem embedding_injective (unique : Bool) : Function.Injective (embedding unique) := by
  intro a b same
  rw [embedding, embedding, String.append_left_inj, String.append_right_inj] at same
  exact same

theorem derive_wrapped {q : Query} (wrapped : Wrapped q) (unique : Bool) :
    derive q unique = wrap q.tablePrefix (inner q unique) (expression unique) := by
  have direct : (!q.commonTables.isEmpty && q.rawHaving.isEmpty) = false := by
    rcases wrapped with none | some
    · simp [none]
    · simp [some]
  rw [derive, direct]
  cases unique <;> rfl

theorem harmless_opening (unique : Bool) :
    Harmless ("SELECT " ++ expression unique ++ " AS total FROM (") := by
  cases unique <;> decide

theorem text_wrap (tablePrefix : String) (q : Query) (unique : Bool) (d : Dialect) (sql : String) :
    (wrap tablePrefix q (expression unique)).toClauses.text d ("(" ++ sql ++ ") x") "" =
      embedding unique sql := by
  have head : (wrap tablePrefix q (expression unique)).toClauses.head =
      "SELECT " ++ expression unique ++ " AS total FROM " := by
    cases unique <;> rfl
  have cut : (wrap tablePrefix q (expression unique)).toClauses.limitSql d = "" := by
    cases d <;> rfl
  have parts : (wrap tablePrefix q (expression unique)).toClauses.text d ("(" ++ sql ++ ") x") "" =
      (wrap tablePrefix q (expression unique)).toClauses.head ++ ("(" ++ sql ++ ") x") ++
        "" ++ "" ++ "" ++ "" ++ "" ++
        (wrap tablePrefix q (expression unique)).toClauses.limitSql d := rfl
  rw [parts, head, cut, embedding]
  simp only [String.append_empty, String.append_assoc]
  rfl

theorem assemble_wrap (tablePrefix : String) (q : Query) (unique : Bool) (d : Dialect)
    (s : Statement) (n : Nat) : (wrap tablePrefix q (expression unique)).toClauses.assemble d
        ⟨"(" ++ s.sql ++ ") x", s.params⟩ n =
      (.ok ⟨embedding unique (TableRef.expand s.sql tablePrefix),
        (∅ : Params).merge s.params⟩, n) := by
  have noCondition : (wrap tablePrefix q (expression unique)).toClauses.whereBody d n =
      (.ok none, n) :=
    rfl
  have expanded : TableRef.expand (embedding unique s.sql) tablePrefix =
      embedding unique (TableRef.expand s.sql tablePrefix) :=
    TableRef.expandWith_derived _ (harmless_opening unique) s.sql
  rw [← expanded, ← text_wrap tablePrefix q unique d, Clauses.assemble,
    Effect.bind_ok _ noCondition]
  rfl

theorem render_wrap (tablePrefix : String) (q : Query) (unique : Bool) (d : Dialect) (n : Nat) :
    (wrap tablePrefix q (expression unique)).render d n = match q.render d n with
      | (.error e, m) => (.error e, m)
      | (.ok s, m) => (.ok ⟨embedding unique (TableRef.expand s.sql tablePrefix),
          (∅ : Params).merge s.params⟩, m) := by
  change Clauses.renderOver d _ (.derived q.toClauses q.source countedTable) n = _
  rw [Clauses.renderOver]
  change (q.render d >>= _) n = _
  rcases rendered : q.render d n with ⟨e | s, m⟩
  · rw [Effect.bind_error _ rendered]
  · have table : "(" ++ s.sql ++ ") " ++ countedTable = "(" ++ s.sql ++ ") x" := by
      simp only [String.append_assoc]
      rfl
    rw [Effect.bind_ok _ rendered, table]
    exact assemble_wrap tablePrefix q unique d s m

theorem tidy_identityExpr {q : Query} {d : Dialect} (pieces : q.Pieces Tidied Named d)
    (named : ∀ c, q.correlation? = some c → Tidy c.toList) : Tidy (identityExpr q).toList := by
  unfold identityExpr
  cases selected : q.getSelect? uniqueId with
  | some expr =>
    exact tidied_ofText.mp (pieces.selects _ (OrderedMap.mem_entries_of_get? selected)).2
  | none =>
    cases correlated : q.correlation? with
    | some c => exact (named c correlated).append (TableRef.tidy_of_harmless (by decide))
    | none => exact TableRef.tidy_of_harmless (by decide)

theorem pieces_inner {q : Query} {d : Dialect} (pieces : q.Pieces Tidied Named d)
    (named : ∀ c, q.correlation? = some c → Tidy c.toList) (unique : Bool) :
    (inner q unique).Pieces Tidied Named d := by
  have groups : ∀ s ∈ (if q.rawHaving.isEmpty then [] else q.groupBy),
      Tidied (Marked.ofText s) := by
    intro s mem
    split at mem
    · cases mem
    · exact pieces.groupBy s mem
  cases unique with
  | false =>
    exact ⟨pieces.tablePrefix, pieces.selects, pieces.joins, pieces.commonTables,
      pieces.predicates, groups, fun e mem => absurd mem List.not_mem_nil⟩
  | true =>
    refine ⟨pieces.tablePrefix, fun e mem => ?_, pieces.joins, pieces.commonTables,
      pieces.predicates, groups, fun e mem => absurd mem List.not_mem_nil⟩
    obtain rfl := List.mem_singleton.mp mem
    have column : Harmless uniqueId := by decide
    exact ⟨tidied_ofText.mpr (TableRef.tidy_of_harmless column),
      tidied_ofText.mpr (tidy_identityExpr pieces named)⟩

theorem worded_inner {q : Query} {d : Dialect} (worded : q.Worded Tidied Named d) (unique : Bool) :
    (inner q unique).Worded Tidied Named d := by
  have source : (inner q unique).source = q.source := by cases unique <;> rfl
  have raw : (inner q unique).rawWhere = q.rawWhere := by cases unique <;> rfl
  have having : (inner q unique).rawHaving = q.rawHaving := by cases unique <;> rfl
  have table (name : String) : (inner q unique).tableRef name = q.tableRef name := by
    cases unique <;> rfl
  rw [Query.Worded] at worded ⊢
  rw [source, raw, having]
  cases given : q.source with
  | none => trivial
  | table name correlation =>
    rw [given] at worded
    obtain ⟨pieces, raws, havings, read, named⟩ := worded
    refine ⟨pieces_inner pieces (fun c same => ?_) unique, raws, havings,
      table name ▸ read, named⟩
    rw [Query.correlation?, given] at same
    cases same
    exact tidied_ofText.mp named
  | derived clauses below correlation =>
    rw [given] at worded
    obtain ⟨pieces, raws, havings, within, named⟩ := worded
    refine ⟨pieces_inner pieces (fun c same => ?_) unique, raws, havings, within, named⟩
    rw [Query.correlation?, given] at same
    cases same
    exact tidied_ofText.mp named

theorem reads_inner (q : Query) (unique : Bool) (d : Dialect) :
    (inner q unique).reads d q.source = q.reads d q.source := by
  cases unique <;> rfl

theorem exists_render_of_reads {c : Clauses} {d : Dialect} {source : Source}
    {n m : Nat} {r : String} (read : c.reads d source n = (.ok r, m)) :
    ∃ s, c.renderOver d source n = (.ok s, m) := by
  obtain ⟨given, k, found, rest⟩ := Effect.of_bind_ok read
  obtain ⟨body, k', condition, last⟩ := Effect.of_bind_ok rest
  cases last
  rw [Clauses.renderOver_eq, Effect.bind_ok _ found, Clauses.assemble, Effect.bind_ok _ condition]
  cases body <;> exact ⟨_, rfl⟩

/-- A count in the form of a derived table expands the finished statement once more, and so holds it
as it was rendered exactly if that left no reference. With tidy parts it leaves none, and then the
count and the query itself stand around the same text of what they read. -/
theorem render_derive_wrapped (q : Query) (unique : Bool) (d : Dialect) (n : Nat)
    (wrapped : Wrapped q) (named : Named q.tablePrefix) :
    match (inner q unique).render d n with
    | (.error e, m) => (derive q unique).render d n = (.error e, m)
    | (.ok s, m) => ∃ c, (derive q unique).render d n = (.ok c, m) ∧
        c.sql = embedding unique (TableRef.expand s.sql q.tablePrefix) ∧
        (c.sql = embedding unique s.sql ↔ TableRef.references s.sql = []) ∧
        (q.Worded Tidied Named d → TableRef.references s.sql = [] ∧ ∃ t r,
          q.render d n = (.ok t, m) ∧ q.reads d q.source n = (.ok r, m) ∧
            t.sql = q.around d r ∧ s.sql = (inner q unique).around d r) := by
  have whole := render_wrap q.tablePrefix (inner q unique) unique d n
  rw [← derive_wrapped wrapped] at whole
  have tables : TableRef.NamedTables (q.tablePrefix ++ ·) := by
    intro name letters c mem
    rw [String.toList_append] at mem
    exact (List.mem_append.mp mem).elim (named c) (letters c)
  rcases rendered : (inner q unique).render d n with ⟨e | s, m⟩
  · rw [rendered] at whole
    exact whole
  · rw [rendered] at whole
    have stays := TableRef.expandWith_eq_self_iff tables s.sql
    refine ⟨_, whole, rfl, (embedding_injective unique).eq_iff.trans stays, fun worded => ?_⟩
    have source : (inner q unique).source = q.source := by cases unique <;> rfl
    have innerWorded := worded_inner worded unique
    rw [Query.Worded] at innerWorded
    obtain ⟨settled, r, read, text⟩ := Clauses.renderOver_tidy innerWorded rendered
    rw [source, reads_inner] at read
    obtain ⟨t, outer⟩ := exists_render_of_reads read
    obtain ⟨-, r', read', text'⟩ := Clauses.renderOver_tidy worded outer
    cases read.symm.trans read'
    refine ⟨stays.mp ?_, t, r, outer, read, text', text⟩
    rw [← String.toList_inj, TableRef.toList_expandWith, settled.fixed]

def usersWhere (condition : String) : Query :=
  ((Query.withPrefix "mdl_").readFrom "user" "u").whereRaw ⟨condition, ∅⟩

theorem worded_usersWhere {condition : String} (tidy : Tidy condition.toList) (d : Dialect) :
    (usersWhere condition).Worded Tidied Named d := by
  have named : Named "mdl_" := by decide
  have table : Tidy ("mdl_" ++ "user").toList := by decide
  refine ⟨⟨named, fun e mem => (nomatch mem), fun e mem => (nomatch mem),
    fun e mem => (nomatch mem), fun p mem => (nomatch mem), fun s mem => (nomatch mem),
    fun e mem => (nomatch mem)⟩, fun o mem => ?_, fun o mem => (nomatch mem),
    tidied_ofText.mpr table, tidied_ofText.mpr (by decide)⟩
  obtain rfl := List.mem_singleton.mp mem
  exact tidied_ofText.mpr tidy

theorem exists_render_of_sql {q : Query} {d : Dialect} {n : Nat} {sql : String}
    (text : (q.render d n).1.toOption.map Statement.sql = some sql) :
    ∃ s m, q.render d n = (.ok s, m) ∧ s.sql = sql := by
  rcases outcome : q.render d n with ⟨e | s, m⟩
  · rw [outcome] at text
    cases text
  · rw [outcome] at text
    exact ⟨s, m, rfl, Option.some.inj text⟩

/-- A reference of a tidy condition is expanded once. -/
def tagged : Query := usersWhere "u.tag IN (SELECT t.name FROM {tag} t)"

/-- A brace that opens twice is expanded twice. -/
def bracedTwice : Query := usersWhere "u.tag = $${{user}}$$"

theorem render_derive_wrapped_users :
    (∃ s c m, (inner tagged true).render .postgres 0 = (.ok s, m) ∧
      (derive tagged true).render .postgres 0 = (.ok c, m) ∧
      s.sql =
        "SELECT u.id AS unique_id FROM mdl_user u WHERE (u.tag IN (SELECT t.name FROM mdl_tag t))" ∧
      c.sql = embedding true s.sql) ∧
    ∃ s c m, (inner bracedTwice true).render .postgres 0 = (.ok s, m) ∧
      (derive bracedTwice true).render .postgres 0 = (.ok c, m) ∧
      s.sql = "SELECT u.id AS unique_id FROM mdl_user u WHERE (u.tag = $${mdl_user}$$)" ∧
      c.sql = embedding true
        "SELECT u.id AS unique_id FROM mdl_user u WHERE (u.tag = $$mdl_mdl_user$$)" := by
  constructor
  · obtain ⟨s, m, rendered, text⟩ :
        ∃ s m, (inner tagged true).render .postgres 0 = (.ok s, m) ∧
          s.sql = "SELECT u.id AS unique_id FROM mdl_user u " ++
            "WHERE (u.tag IN (SELECT t.name FROM mdl_tag t))" :=
      exists_render_of_sql (by decide +kernel)
    have law := render_derive_wrapped tagged true .postgres 0 (.inl rfl) (by decide)
    rw [rendered] at law
    obtain ⟨c, counted, -, whole, tidy⟩ := law
    have none := (tidy (worded_usersWhere (by decide) .postgres)).1
    exact ⟨s, c, m, rendered, counted, text, whole.mpr none⟩
  · obtain ⟨s, m, rendered, text⟩ :
        ∃ s m, (inner bracedTwice true).render .postgres 0 = (.ok s, m) ∧ s.sql =
          "SELECT u.id AS unique_id FROM mdl_user u WHERE (u.tag = $${mdl_user}$$)" :=
      exists_render_of_sql (by decide +kernel)
    have law := render_derive_wrapped bracedTwice true .postgres 0 (.inl rfl) (by decide)
    rw [rendered] at law
    obtain ⟨c, counted, whole, -⟩ := law
    refine ⟨s, c, m, rendered, counted, text, ?_⟩
    rw [whole, text]
    decide +kernel

end Count

end Reports.Sql
