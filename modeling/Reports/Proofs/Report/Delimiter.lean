import Reports.Proofs.Report.Renumbering
import Reports.Proofs.Report.Variants
import Reports.Proofs.Report.RowIdentity
import Reports.Proofs.Sql.Derivation
import Reports.Proofs.Sql.Literal
import Reports.Proofs.Sql.Renderable

/-! The text between the identifiers of a row. It stands in the statement as a literal, and whatever
it is, the rest of the statement, what its references and placeholders stand for, and where its
quotes end stay. -/
namespace Reports

open Sql (BindsLikeBlank Clauses Dialect Query Source Statement TextExpr openQuote uniqueId)
open Sql.TableRef (Closed ClosedTables closed_joined expandWith)

namespace Sql

/-- What is written for a text: so many pieces that do not depend on it, and the text as a literal
between. Only the last piece may leave a quote open. -/
inductive Separated : Nat → (String → String) → Prop
  | last (s : String) : Separated 1 fun _ => s
  | more {k : Nat} {a : String} {f : String → String} (closed : Closed a.toList)
    (rest : Separated k f) :
      Separated (k + 1) fun text => a ++ Dialect.quoteString text ++ f text

namespace Separated

variable {k : Nat} {f g : String → String}

theorem congr (separated : Separated k f) (same : ∀ text, g text = f text) : Separated k g := by
  rw [funext same]
  exact separated

theorem ahead {a : String} (closed : Closed a.toList) (separated : Separated k f) :
    Separated k fun text => a ++ f text := by
  cases separated with
  | last s => exact .last (a ++ s)
  | more first rest =>
    exact (rest.more (closed_joined closed first)).congr fun _ => by simp only [String.append_assoc]

theorem behind (separated : Separated k f) (b : String) : Separated k fun text => f text ++ b := by
  induction separated with
  | last s => exact .last (s ++ b)
  | more first _ ih => exact (ih.more first).congr fun _ => by simp only [String.append_assoc]

theorem expand {table : String → String} (tables : ClosedTables table)
    (separated : Separated k f) :
    Separated k fun text => expandWith table (f text) := by
  induction separated with
  | last s => exact .last (expandWith table s)
  | @more k a f first _ ih =>
    have expanded : Closed (expandWith table a).toList := by
      rw [TableRef.closed_iff, TableRef.turn_expandWith tables]
      exact TableRef.closed_iff.mp first
    exact (ih.more expanded).congr fun text => TableRef.expandWith_literal table first text (f text)

theorem exists_pieces (separated : Separated k f) : ∃ pieces : List String, pieces.length = k ∧
    (∀ p ∈ pieces.dropLast, Closed p.toList) ∧
    ∀ text, f text = Text.join (Dialect.quoteString text) pieces := by
  induction separated with
  | last s => exact ⟨[s], rfl, fun _ mem => (nomatch mem), fun _ => rfl⟩
  | @more k a f first rest ih =>
    obtain ⟨pieces, length, closed, same⟩ := ih
    cases pieces with
    | nil =>
      subst length
      nomatch rest
    | cons p rest =>
      refine ⟨a :: p :: rest, congrArg (· + 1) length,
        List.forall_mem_cons.mpr ⟨first, closed⟩, fun text => ?_⟩
      exact congrArg (a ++ Dialect.quoteString text ++ ·) (same text)

end Separated

theorem closed_castToText (d : Dialect) {expr : String} (closed : Closed expr.toList) :
    Closed (d.castToText expr).toList := by
  have opening : Closed "CAST(".toList := by decide
  cases d
  · exact closed_joined (closed_joined opening closed) (by decide)
  · exact closed_joined (closed_joined opening closed) (by decide)

theorem closed_part (d : Dialect) {expr : String} (closed : Closed expr.toList) :
    Closed ((TextExpr.part expr).sql d).toList := by
  have opening : Closed "COALESCE(".toList := by decide
  rw [TextExpr.sql_part]
  exact closed_joined (closed_joined opening (closed_castToText d closed)) (by decide)

theorem separated_identity (d : Dialect) {exprs : List String} (some : exprs ≠ [])
    (closed : ∀ e ∈ exprs, Closed e.toList) :
    Separated exprs.length fun delimiter => (TextExpr.identity delimiter exprs).sql d := by
  obtain ⟨e, rest, rfl⟩ := List.exists_cons_of_ne_nil some
  clear some
  induction rest generalizing e with
  | nil => exact .last _
  | cons e' rest ih =>
    obtain ⟨here, later⟩ := List.forall_mem_cons.mp closed
    have first : Closed ((TextExpr.part e).sql d ++ " || ").toList :=
      closed_joined (closed_part d here) (by decide)
    have next := (ih e' later).ahead (a := " || ") (by decide)
    exact (next.more first).congr fun delimiter =>
      TextExpr.sql_identity_cons_cons d delimiter e e' rest

namespace Clauses

def identified (c : Clauses) (expr : String) : Clauses :=
  { c with selects := c.selects.insert uniqueId expr }

def rest (c : Clauses) (d : Dialect) (source condition : String) : String :=
  Text.join ", " ("" :: (c.selects.erase uniqueId).entries.map fun e => column e.1 e.2) ++
    " FROM " ++ source ++ c.joinsSql ++ condition ++ c.groupSql ++ c.havingSql ++
    c.orderSql ++ c.limitSql d

theorem selectList_identified (c : Clauses) (expr : String) :
    (c.identified expr).selectList = column uniqueId expr ++
      Text.join ", " ("" :: (c.selects.erase uniqueId).entries.map fun e => column e.1 e.2) := by
  have there : (c.identified expr).selects.get? uniqueId = some expr :=
    (OrderedMap.get?_insert _ _ _ _).trans (if_pos rfl)
  have some : (c.identified expr).selects.isEmpty = false := by
    rw [OrderedMap.isEmpty, List.isEmpty_eq_false_iff]
    exact List.ne_nil_of_mem (OrderedMap.mem_entries_of_get? there)
  have others : ((c.identified expr).selects.entries.filter fun e => decide (e.1 ≠ uniqueId)) =
      (c.selects.erase uniqueId).entries :=
    congrArg OrderedMap.entries (OrderedMap.erase_insert _ _ _)
  rw [selectList, some, there, others]
  cases (c.selects.erase uniqueId).entries <;> simp [Text.join, String.append_assoc]

theorem text_identified (c : Clauses) (expr : String) (d : Dialect) (source condition : String) :
    (c.identified expr).text d source condition =
      c.withClause ++ "SELECT " ++ (column uniqueId expr ++ c.rest d source condition) := by
  have once : (c.identified expr).emitsDistinct = false := by
    have there : (c.identified expr).selects.contains uniqueId = true := by
      rw [OrderedMap.contains, identified, OrderedMap.get?_insert, if_pos rfl]
      rfl
    simp [emitsDistinct, there]
  rw [text, once, selectList_identified, rest]
  simp only [Bool.false_eq_true, if_false, String.append_empty, String.append_assoc]
  rfl

theorem assemble_of_whereBody {c : Clauses} {d : Dialect} {n m : Nat} {body : Option Statement}
    (condition : c.whereBody d n = (.ok body, m)) (source : Statement) : c.assemble d source n =
      (.ok ⟨c.expandRefs (c.text d source.sql (whereText body)),
        c.collected source.params body⟩, m) := by
  rw [assemble, Effect.bind_ok _ condition]
  cases body <;> rfl

theorem renderOver_identified {c : Clauses} {d : Dialect} {source : Source} {n m : Nat}
    {s : Statement} (rendered : c.renderOver d source n = (.ok s, m)) :
      ∃ text condition params, ∀ expr, (c.identified expr).renderOver d source n =
        (.ok ⟨c.expandRefs ((c.identified expr).text d text condition), params⟩, m) := by
  have same (expr : String) : (c.identified expr).sourceStatement d source =
      c.sourceStatement d source := by
    cases source <;> rfl
  rw [renderOver_eq] at rendered
  obtain ⟨from', k, given, rendered⟩ := Effect.of_bind_ok rendered
  obtain ⟨body, condition, -⟩ := of_assemble rendered
  refine ⟨from'.sql, whereText body, c.collected from'.params body, fun expr => ?_⟩
  have again : (c.identified expr).whereBody d k = (.ok body, m) := condition
  rw [renderOver_eq, same, Effect.bind_ok _ given, assemble_of_whereBody again]
  rfl

theorem separated_renderOver {c : Clauses} {d : Dialect} {source : Source} {n m : Nat}
    {s : Statement} (rendered : c.renderOver d source n = (.ok s, m))
    (tablePrefix : Closed c.tablePrefix.toList)
    (tables : Closed c.withClause.toList) {k : Nat} {identity : String → String}
    (separated : Separated k identity) (other : ∀ text, identity text ≠ uniqueId) :
    ∃ f params, Separated k f ∧ ∀ text,
      (c.identified (identity text)).renderOver d source n = (.ok ⟨f text, params⟩, m) := by
  obtain ⟨from', condition, params, same⟩ := renderOver_identified rendered
  have owned : ClosedTables c.tableRef := by
    intro name named
    have plain : Closed name.toList :=
      TableRef.closed_iff.mpr (TableRef.foldl_turn_unquoted (TableRef.unquoted_of_named named))
    rw [tableRef]
    split
    · exact plain
    · exact closed_joined tablePrefix plain
  have column (text : String) : column uniqueId (identity text) = identity text ++
      (" AS " ++ uniqueId) := by
    rw [Clauses.column, if_neg (other text).symm, String.append_assoc]
  have before : Closed (c.withClause ++ "SELECT ").toList := closed_joined tables (by decide)
  have whole :=
    ((separated.behind (" AS " ++ uniqueId ++ c.rest d from' condition)).ahead before).expand owned
  refine ⟨_, params, whole, fun text => ?_⟩
  rw [same, text_identified, column, expandRefs]
  simp only [String.append_assoc]

end Clauses

end Sql

def Field.alias? (f : Field) : Option String :=
  f.select.map fun expr => if f.name.isEmpty then expr else f.name

namespace Request

def delimitedBy (r : Request) (delimiter : String) : Request :=
  { r with settings := { r.settings with delimiter } }

theorem selectFields_select {q : Query} (known : uniqueId ∈ q.selects.keys) (fs : List Field)
    (expr : String) :
    selectFields (q.select expr uniqueId) fs =
      if some uniqueId ∈ fs.map Field.alias? then selectFields q fs
      else (selectFields q fs).select expr uniqueId := by
  induction fs generalizing q with
  | nil => rfl
  | cons f rest ih =>
    have next (p : Query) : selectFields p (f :: rest) = selectFields (selectFields p [f]) rest :=
      rfl
    cases select : f.select with
    | none =>
      have passes (p : Query) : selectFields p [f] = p := by
        simp only [selectFields, List.foldl_cons, List.foldl_nil, select]
      have unnamed : f.alias? = none := by rw [Field.alias?, select]; rfl
      rw [next, next, passes, passes, ih known]
      simp [unnamed]
    | some e =>
      obtain ⟨key, named⟩ : ∃ key, (if f.name.isEmpty then e else f.name) = key :=
        ⟨_, rfl⟩
      have under : f.alias? = some key := by rw [Field.alias?, select, ← named]; rfl
      have writes (p : Query) : selectFields p [f] =
          { p with selects := p.selects.insert key e } := by
        simp only [selectFields, List.foldl_cons, List.foldl_nil, select, Query.select, named]
      by_cases taken : key = uniqueId
      · have again : selectFields (q.select expr uniqueId) [f] = selectFields q [f] := by
          rw [writes, writes, taken]
          exact congrArg (fun m => { q with selects := m }) (OrderedMap.insert_insert _ _ _ _)
        rw [next, again, ← next, List.map_cons, under, taken, if_pos List.mem_cons_self]
      · have later :
            selectFields (q.select expr uniqueId) [f] =
              (selectFields q [f]).select expr uniqueId := by
          rw [writes, writes]
          exact congrArg (fun m => { q with selects := m }) (OrderedMap.insert_comm known taken _ _)
        have known' : uniqueId ∈ (selectFields q [f]).selects.keys := by
          rw [writes]
          exact (OrderedMap.mem_keys_insert _ _ _ _).mpr (.inr known)
        have same : some uniqueId ∈ (f :: rest).map Field.alias? ↔
            some uniqueId ∈ rest.map Field.alias? := by
          rw [List.map_cons, under, List.mem_cons, Option.some.injEq]
          exact or_iff_right (Ne.symm taken)
        rw [next, later, ih known', next]
        simp only [same]

def selected (r : Request) : List Field := r.fields.filter (·.isIdentifier) ++ r.displayFields

def placed (r : Request) (q : Query) : Query :=
  let q := match r.resolveSort r.displayFields with
    | some (expr, direction) => q.order expr direction
    | none => q
  if r.layout.isPaginated then
    (q.setOffset ((r.page - 1).toUInt64 * r.perPage.toUInt64)).setLimit r.perPage.toUInt64
  else q

theorem placed_select (r : Request) (q : Query) (expr column : String) :
    r.placed (q.select expr column) = (r.placed q).select expr column := by
  unfold placed
  cases r.resolveSort r.displayFields <;> by_cases paginated : r.layout.isPaginated = true <;>
    simp only [paginated, if_true, Bool.false_eq_true, if_false] <;> rfl

theorem placed_eq (r : Request) (q : Query) :
    ∃ orderBy offset limit, r.placed q = { q with orderBy, offset, limit } := by
  unfold placed
  cases r.resolveSort r.displayFields <;> by_cases paginated : r.layout.isPaginated = true <;>
    simp only [paginated, if_true, Bool.false_eq_true, if_false] <;> exact ⟨_, _, _, rfl⟩

def begun (r : Request) (exprs : List String) : Query :=
  let q := r.report.template.setPrefix r.settings.tablePrefix
  match identityExpr r.dialect r.settings.delimiter exprs with
  | some expr => q.select expr uniqueId
  | none => q

theorem begun_of_few (r : Request) {exprs : List String} (few : ¬2 ≤ exprs.length)
    (delimiter : String) : (r.delimitedBy delimiter).begun exprs = r.begun exprs := by
  match exprs, few with
  | [], _ => rfl
  | [_], _ => rfl
  | _ :: _ :: _, few => exact absurd (Nat.le_add_left 2 _) few

/-- Everything that is written before the identity of a row is the template's own. -/
structure Begins (r : Request) (q : Query) : Prop where
  tablePrefix : q.tablePrefix = r.settings.tablePrefix
  withClause : q.withClause = r.report.template.withClause

theorem begins_begun (r : Request) (exprs : List String) : r.Begins (r.begun exprs) := by
  unfold begun
  cases identityExpr r.dialect r.settings.delimiter exprs <;> exact ⟨rfl, rfl⟩

theorem Begins.placed {r : Request} {q : Query} (begins : r.Begins q) (fs : List Field) :
    r.Begins (r.placed (selectFields q fs)) := by
  obtain ⟨selects, fields⟩ := selectFields_eq q fs
  obtain ⟨orderBy, offset, limit, whole⟩ := r.placed_eq (selectFields q fs)
  rw [whole, fields]
  exact ⟨begins.tablePrefix, begins.withClause⟩

theorem base_of_parts {r : Request} {exprs : List String}
    (parts : identityParts (r.fields.filter (·.isIdentifier)) = .ok exprs) :
    r.base = .ok (r.placed (selectFields (r.begun exprs) r.selected)) := by
  have trivially : Filter.CollectionSql.effect ⟨.ofParts [], .ofParts []⟩ = ([], []) := rfl
  have passes (q : Query) : selectFields (selectFields q (r.fields.filter (·.isIdentifier)))
      r.displayFields = selectFields q r.selected := (List.foldl_append ..).symm
  simp only [base, arrange, restrict_eq, trivially, Query.restricted_nil, parts, bind,
    Except.bind, passes]
  unfold placed begun
  split <;> rfl

/-- The delimiter has a part in the query: several fields identify a row, and none takes the
column. -/
def Delimits (r : Request) (exprs : List String) : Prop :=
  2 ≤ exprs.length ∧ some uniqueId ∉ r.selected.map Field.alias?

instance (r : Request) (exprs : List String) : Decidable (r.Delimits exprs) :=
  inferInstanceAs (Decidable (_ ∧ _))

theorem base_delimitedBy {r : Request} {exprs : List String}
    (parts : identityParts (r.fields.filter (·.isIdentifier)) = .ok exprs) :
    ∃ q : Query, r.Begins q ∧ ∀ delimiter, (r.delimitedBy delimiter).base =
      .ok (if r.Delimits exprs then
        q.select ((TextExpr.identity delimiter exprs).sql r.dialect) uniqueId else q) := by
  have whole (delimiter : String) : (r.delimitedBy delimiter).base =
      .ok (r.placed (selectFields ((r.delimitedBy delimiter).begun exprs) r.selected)) :=
    base_of_parts (r := r.delimitedBy delimiter) parts
  by_cases several : 2 ≤ exprs.length
  · let start := (r.report.template.setPrefix r.settings.tablePrefix).select "" uniqueId
    have known : uniqueId ∈ start.selects.keys :=
      (OrderedMap.mem_keys_insert _ _ _ _).mpr (.inl rfl)
    have begins : r.Begins start := ⟨rfl, rfl⟩
    refine ⟨r.placed (selectFields start r.selected), begins.placed r.selected,
      fun delimiter => ?_⟩
    have later : (r.delimitedBy delimiter).begun exprs =
        start.select ((TextExpr.identity delimiter exprs).sql r.dialect) uniqueId := by
      have identity : identityExpr (r.delimitedBy delimiter).dialect
        (r.delimitedBy delimiter).settings.delimiter
          exprs = some ((TextExpr.identity delimiter exprs).sql r.dialect) :=
        TextExpr.identityExpr_eq r.dialect delimiter several
      rw [begun, identity]
      exact congrArg
        (fun m => { r.report.template.setPrefix r.settings.tablePrefix with selects := m })
        (OrderedMap.insert_insert _ _ _ _).symm
    rw [whole, later, selectFields_select known]
    by_cases taken : some uniqueId ∈ r.selected.map Field.alias?
    · rw [if_pos taken, if_neg fun delimits => delimits.2 taken]
    · rw [if_neg taken, if_pos ⟨several, taken⟩, placed_select]
  · refine ⟨_, (r.begins_begun exprs).placed r.selected, fun delimiter => ?_⟩
    rw [whole, r.begun_of_few several, if_neg fun delimits => several delimits.1]

theorem identity_ne_uniqueId (d : Dialect) {exprs : List String} (several : 2 ≤ exprs.length)
    (delimiter : String) : (TextExpr.identity delimiter exprs).sql d ≠ uniqueId := by
  match exprs, several with
  | e :: e' :: rest, _ =>
    intro same
    have first := congrArg (·.toList.head?) same
    simp [TextExpr.sql_identity_cons_cons, TextExpr.sql_part, uniqueId] at first

theorem query_delimitedBy {r : Request} {delimiter : String} {q q' : Query}
    {s s' : Session} {m : Nat} {x : Filter.CollectionSql}
    (filters : r.filters.render r.dialect s.drawn = (.ok x, m))
    (base : (r.delimitedBy delimiter).base = .ok q)
    (built : (r.delimitedBy delimiter).buildQuery s = (.ok q', s')) :
    q' = q.restricted x.effect := by
  obtain ⟨x', m', q'', -, filters', base', rfl, -⟩ := render_of_buildQuery built
  cases filters.symm.trans filters'
  cases base.symm.trans base'
  rfl

theorem atPage_eq (q : Query) (page : Option PageInfo) :
    ∃ offset, atPage q page = { q with offset } := by
  cases page <;> exact ⟨_, rfl⟩

/-- The statements of a request differ in the literals only, whatever its delimiter is. -/
theorem separated_delimitedBy {r : Request} {exprs : List String} {s : Session}
    (parts : identityParts (r.fields.filter (·.isIdentifier)) = .ok exprs)
    (closed : ∀ e ∈ exprs, Closed e.toList) (tablePrefix : Closed r.settings.tablePrefix.toList)
    (tables : Closed r.report.template.withClause.toList) (page : Option PageInfo) (n : Nat) :
    ∃ f params m, Sql.Separated (if r.Delimits exprs then exprs.length else 1) f ∧
      ∀ delimiter q s', (r.delimitedBy delimiter).buildQuery s = (.ok q, s') →
        (atPage q page).render r.dialect n = (.ok ⟨f delimiter, params⟩, m) := by
  have identity (delimits : r.Delimits exprs) :
      Sql.Separated exprs.length fun delimiter =>
        (TextExpr.identity delimiter exprs).sql r.dialect :=
    Sql.separated_identity r.dialect
      (List.ne_nil_of_length_pos (Nat.lt_of_succ_lt delimits.1)) closed
  by_cases some : ∃ delimiter q s', (r.delimitedBy delimiter).buildQuery s = (.ok q, s')
  · obtain ⟨delimiter, q', s', built⟩ := some
    obtain ⟨x, m, q'', whole, filters, base, rfl, rendered⟩ := render_of_buildQuery built
    obtain ⟨q, begins, bases⟩ := base_delimitedBy parts
    obtain ⟨offset, paged⟩ := atPage_eq (q.restricted x.effect) page
    have renders : (atPage (q.restricted x.effect) page).Renders r.dialect := by
      have renders := Query.renders_of_render rendered
      cases (bases delimiter).symm.trans base
      rw [paged]
      split at renders <;> exact renders
    obtain ⟨plain, m', rendered'⟩ := renders.render n
    have alike (text : String) (p : Query) (s' : Session)
        (built : (r.delimitedBy text).buildQuery s = (.ok p, s')) : p = _ :=
      query_delimitedBy filters (bases text) built
    by_cases delimits : r.Delimits exprs
    · obtain ⟨f, params, separated, same⟩ := Sql.Clauses.separated_renderOver rendered'
        (by rw [paged]; exact begins.tablePrefix ▸ tablePrefix)
        (by rw [paged]; exact begins.withClause ▸ tables) (identity delimits)
        (identity_ne_uniqueId r.dialect delimits.1)
      refine ⟨f, params, m', (if_pos delimits).symm ▸ separated, fun text p s' built => ?_⟩
      rw [alike text p s' built, if_pos delimits, ← same text]
      cases page <;> rfl
    · refine ⟨fun _ => plain.sql, plain.params, m', (if_neg delimits).symm ▸ .last _, ?_⟩
      intro text p s' built
      rw [alike text p s' built, if_neg delimits]
      exact rendered'
  · obtain ⟨f, separated⟩ : ∃ f, Sql.Separated
        (if r.Delimits exprs then exprs.length else 1) f := by
      split
      · next delimits => exact ⟨_, identity delimits⟩
      · exact ⟨_, .last ""⟩
    refine ⟨f, ∅, 0, separated, fun delimiter q s' built => ?_⟩
    exact absurd ⟨delimiter, q, s', built⟩ some

theorem ending_delimitedBy {r : Request} {exprs : List String}
    (parts : identityParts (r.fields.filter (·.isIdentifier)) = .ok exprs) (delimiter : String)
    (s : Session) :
    Sql.ending ((r.delimitedBy delimiter).outcome s) = Sql.ending (r.outcome s) := by
  obtain ⟨q, -, bases⟩ := base_delimitedBy parts
  have own : r.delimitedBy r.settings.delimiter = r := rfl
  have base := bases r.settings.delimiter
  rw [own] at base
  apply ending_outcome (r.delimitedBy delimiter) r rfl rfl (bases delimiter) base
  · split <;> rfl
  · split <;> rfl

/-- A quoted literal is copied, by what expands references and by what binds placeholders, and the
texts around it come to the same as with a blank between them. So the delimiter of a request, if it
has a part at all, is in the statement as it was set, between pieces that do not depend on it and
bind as with blanks between them. -/
theorem literal_inert :
    (∀ text a b : String, Closed a.toList →
      (∀ tablePrefix, Sql.TableRef.expand (a ++ Dialect.quoteString text ++ b) tablePrefix =
        Sql.TableRef.expand a tablePrefix ++ Dialect.quoteString text ++
        Sql.TableRef.expand b tablePrefix) ∧
      ∀ (d : Dialect) (params : Params),
        let names := (Sql.namesOf a ++ Sql.namesOf b).eraseDups
        match Statement.bind ⟨a ++ " " ++ b, params⟩ d with
        | .error e => Statement.bind ⟨a ++ Dialect.quoteString text ++ b, params⟩ d = .error e
        | .ok x => x.sql = Sql.numbered d names a ++ " " ++ Sql.numbered d names b ∧
            Statement.bind ⟨a ++ Dialect.quoteString text ++ b, params⟩ d =
              .ok ⟨Sql.numbered d names a ++ Dialect.quoteString text ++ Sql.numbered d names b,
                x.values⟩ ∧
            ∃ values, Statement.bind ⟨a, params⟩ d =
              .ok ⟨Sql.numbered d names a, values⟩ ∧ values <+: x.values) ∧
    ∀ (r : Request) (exprs : List String),
      identityParts (r.fields.filter (·.isIdentifier)) = .ok exprs →
      (∀ e ∈ exprs, Closed e.toList) → Closed r.settings.tablePrefix.toList →
      Closed r.report.template.withClause.toList →
      ∀ (s : Session) (page : Option PageInfo) (n : Nat),
      ∃ pieces params m, pieces.length = (if r.Delimits exprs then exprs.length else 1) ∧
        ∀ delimiter, Sql.ending ((r.delimitedBy delimiter).outcome s) =
          Sql.ending (r.outcome s) ∧ ∀ q s', (r.delimitedBy delimiter).buildQuery s =
            (.ok q, s') → (atPage q page).render r.dialect n =
              (.ok ⟨Text.join (Dialect.quoteString delimiter) pieces, params⟩, m) ∧
            (∀ d, BindsLikeBlank d params (Dialect.quoteString delimiter) pieces) ∧
            openQuote (Text.join (Dialect.quoteString delimiter) pieces) =
              openQuote (Text.join " " pieces) := by
  refine ⟨fun text a b closed => ⟨fun tablePrefix => ?_, fun d params => ?_⟩, ?_⟩
  · exact Sql.TableRef.expandWith_literal _ closed text b
  · have first : ∀ p ∈ [a, b].dropLast, Closed p.toList := List.forall_mem_singleton.mpr closed
    have blank := Sql.Binding.bind_join Sql.Binding.passes_blank d params first
    have literal := Sql.Binding.bind_join (Sql.Binding.passes_literal text) d params first
    simp only [Text.join, List.flatMap_cons, List.flatMap_nil, List.append_nil,
      List.map_cons, List.map_nil]
      at blank literal
    rw [blank, literal]
    cases unbound : (Sql.namesOf a ++ Sql.namesOf b).find? fun n => !params.contains n with
    | some n => rfl
    | none => exact ⟨rfl, rfl, Sql.Binding.bind_first unbound⟩
  · intro r exprs parts closed tablePrefix tables s page n
    obtain ⟨f, params, m, separated, statement⟩ :=
      separated_delimitedBy (s := s) parts closed tablePrefix tables page n
    obtain ⟨pieces, length, closed, same⟩ := separated.exists_pieces
    refine ⟨pieces, params, m, length, fun delimiter =>
      ⟨ending_delimitedBy parts delimiter s, ?_⟩⟩
    intro q s' built
    refine ⟨?_, fun d => Sql.bindsLikeBlank_literal d params delimiter closed, ?_⟩
    · rw [← same]
      exact statement delimiter q s' built
    · rw [Sql.openQuote_join (Sql.closed_quoteString delimiter) closed,
        Sql.openQuote_join (by decide) closed]

/-- A delimiter that looks like the end of a literal, a placeholder and a reference. -/
def odd : String := "\x27 :n \x7buser\x7d"

theorem literal_inert_odd :
    Sql.TableRef.expand ("\x7ba\x7d || " ++ Dialect.quoteString odd ++ " || \x7bb\x7d") "t_" =
      "t_a || \x27\x27\x27 :n \x7buser\x7d\x27 || t_b" ∧
    (Statement.bind ⟨":n || " ++ Dialect.quoteString odd ++ " || :m", ⟨[("n", .ofInt 1)]⟩⟩ .sqlite =
      .error (.configuration (.unboundParameter "m"))) ∧
    ∃ q s pieces params m, ((plain .users).delimitedBy odd).buildQuery {} = (.ok q, s) ∧
      pieces.length = 2 ∧ q.render .sqlite 0 =
        (.ok ⟨Text.join (Dialect.quoteString odd) pieces, params⟩, m) ∧
      BindsLikeBlank .sqlite params (Dialect.quoteString odd) pieces := by
  obtain ⟨copied, carried⟩ := literal_inert
  refine ⟨?_, ?_, ?_⟩
  · rw [(copied odd "\x7ba\x7d || " " || \x7bb\x7d" (by decide)).1]
    decide +kernel
  · exact (copied odd ":n || " " || :m" (by decide)).2 .sqlite ⟨[("n", .ofInt 1)]⟩
  · obtain ⟨pieces, params, m, two, statement⟩ := carried (plain .users) ["u.id", "g.id"] rfl
      (by decide) (by decide) (by decide +kernel) {} none 0
    obtain ⟨q, s, built⟩ :=
      exists_query (r := (plain .users).delimitedBy odd) (s := {}) (by decide +kernel)
    obtain ⟨rendered, binds, -⟩ := (statement odd).2 q s built
    exact ⟨q, s, pieces, params, m, built, two.trans (if_pos (by decide +kernel)), rendered,
      binds .sqlite⟩

end Request

end Reports
