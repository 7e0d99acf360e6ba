import Reports.Field.Lookup
import Reports.Proofs.Sql.Filling

/-! The statement for labels: its text, of which the names of the lookup are the only variable part,
and the values bound to it. -/
namespace Reports.Field.Lookup

open Sql (Dialect Template Harmless)

def names (l : Lookup) : List String := [l.qualifiedTable, l.keyColumn, l.labelColumn]

def Safe (l : Lookup) : Prop := ∀ name ∈ l.names, isSafe name = true

variable {l : Lookup}

theorem check_eq (l : Lookup) : l.check = match l.names.find? fun n => !isSafe n with
    | some name => .error (.configuration (.unsafeIdentifier name))
    | none => .ok () := rfl

theorem safe_iff : l.Safe ↔ (l.names.find? fun n => !isSafe n) = none := by simp [Safe]

theorem check_of_safe (safe : l.Safe) : l.check = .ok () := by rw [check_eq, safe_iff.mp safe]

theorem check_of_not_safe (refused : ¬l.Safe) :
    ∃ name ∈ l.names, isSafe name = false ∧
    l.check = .error (.configuration (.unsafeIdentifier name)) := by
  cases found : l.names.find? fun n => !isSafe n with
  | none => exact absurd (safe_iff.mpr found) refused
  | some name =>
    exact ⟨name, List.mem_of_find?_eq_some found, by simpa using List.find?_some found,
      by rw [check_eq, found]⟩

theorem harmless_of_isSafe {name : String} (safe : isSafe name = true) : Harmless name := by
  apply List.all_eq_true.mpr
  intro c mem
  have letters : Text.isName name.toList = true := (Bool.and_eq_true_iff.mp safe).2
  have named : Text.isNameChar c = true := by
    cases chars : name.toList with
    | nil =>
      rw [chars] at letters
      cases letters
    | cons first rest =>
      rw [chars] at letters mem
      obtain ⟨start, others⟩ := Bool.and_eq_true_iff.mp letters
      rcases List.mem_cons.mp mem with rfl | later
      · exact Text.isNameChar_of_isNameStart start
      · exact List.all_eq_true.mp others c later
  have quote := Sql.TableRef.isQuote_of_isNameChar named
  have colon : c ≠ ':' := by
    rintro rfl
    exact absurd named (by decide)
  have brace : c ≠ '\x7b' := by
    rintro rfl
    exact absurd named (by decide)
  simp [Sql.isHarmless, quote, colon, brace]

def keyText (l : Lookup) (d : Dialect) : String := d.castToText ("l." ++ l.keyColumn)

def template (l : Lookup) (d : Dialect) (ids : List String) : Template :=
  ⟨.text ("SELECT " ++ l.keyText d ++ " AS k, l." ++ l.labelColumn ++ " AS label FROM " ++
    l.qualifiedTable ++ " l WHERE ") ::
      (Sql.inOrEqual (l.keyText d) (ids.map .string) false).pieces, ∅⟩

theorem harmless_keyText (safe : l.Safe) (d : Dialect) : Harmless (l.keyText d) := by
  have column := harmless_of_isSafe (safe l.keyColumn (by simp [names]))
  have qualified : Harmless ("l." ++ l.keyColumn) := .append (by decide) column
  cases d with
  | sqlite => exact (Harmless.append (by decide) qualified).append (by decide)
  | postgres => exact (Harmless.append (by decide) qualified).append (by decide)

theorem plain_template (safe : l.Safe) (d : Dialect) (ids : List String) :
    Template.Plain (l.template d ids).pieces := by
  have key := harmless_keyText safe d
  have label := harmless_of_isSafe (safe l.labelColumn (by simp [names]))
  have table := harmless_of_isSafe (safe l.qualifiedTable (by simp [names]))
  exact
    ⟨((((((Harmless.append (by decide) key).append (by decide)).append label).append
      (by decide)).append
    table).append (by decide)), Template.plain_inOrEqual key _ _⟩

theorem flatten_texts (ids : List String) :
    Sql.Predicate.flatten (ids.map .string) = ids.map .string := by
  induction ids with
  | nil => rfl
  | cons id rest ih => exact congrArg (Json.string id :: ·) ih

theorem render_condition (l : Lookup) {ids : List String} (some : ids ≠ [])
    (d : Dialect) (n : Nat) :
    (Sql.Predicate.new (l.keyText d) (ids.map .string) .inList).render d n =
      (Sql.inOrEqual (l.keyText d) (ids.map .string) false).fill n := by
  have filled : (ids.map Json.string).isEmpty = false := by simpa using some
  have whole : (Sql.Predicate.new (l.keyText d) (ids.map .string) .inList).template d =
      .ok (Sql.inOrEqual (l.keyText d) (ids.map .string) false) := by
    simp only [Sql.Predicate.template, Sql.Predicate.base, Sql.Predicate.new, flatten_texts, filled]
    rfl
  rw [Sql.Predicate.render, whole]

def clauses (l : Lookup) (d : Dialect) (ids : List String) : Sql.Clauses where
  selects := ⟨[("k", l.keyText d), ("label", "l." ++ l.labelColumn)]⟩
  predicates := [.new (l.keyText d) (ids.map .string) .inList]
  distinct := false
  tablePrefix := l.tablePrefix

theorem query_eq (l : Lookup) (d : Dialect) (ids : List String) :
    l.query d ids = { l.clauses d ids with source := .table l.table "l" } := rfl

theorem selectList_clauses (l : Lookup) (d : Dialect) (ids : List String) :
    (l.clauses d ids).selectList = l.keyText d ++ " AS k, l." ++ l.labelColumn ++ " AS label" := by
  have columns : (l.clauses d ids).selectList = Text.join ", "
      [Sql.Clauses.column "k" (l.keyText d), Sql.Clauses.column "label" ("l." ++ l.labelColumn)] :=
    rfl
  have key : "k" ≠ l.keyText d := fun same => by
    have first := congrArg (fun s => s.toList.head?) same
    cases d <;> simp [keyText, Dialect.castToText] at first
  have label : "label" ≠ "l." ++ l.labelColumn := fun same => by
    have second := congrArg (fun s => s.toList[1]?) same
    simp at second
  rw [columns, Sql.Clauses.column, Sql.Clauses.column, if_neg key, if_neg label]
  simp [Text.join, ← String.toList_inj]

theorem text_clauses (l : Lookup) (d : Dialect) (ids : List String) (condition : String) :
    (l.clauses d ids).text d (l.qualifiedTable ++ " " ++ "l") condition =
      "SELECT " ++ l.keyText d ++ " AS k, l." ++ l.labelColumn ++ " AS label FROM " ++
        l.qualifiedTable ++ " l" ++ condition := by
  have bare : (l.clauses d ids).text d (l.qualifiedTable ++ " " ++ "l") condition =
      "" ++ "SELECT " ++ "" ++ (l.clauses d ids).selectList ++ " FROM " ++
        (l.qualifiedTable ++ " " ++ "l") ++ "" ++ condition ++ "" ++ "" ++ "" ++ "" := rfl
  rw [bare, selectList_clauses]
  simp [← String.toList_inj]

theorem text_condition (l : Lookup) (d : Dialect) (ids : List String) (n : Nat) :
    ∃ tail,
    (Template.fillPieces n (Sql.inOrEqual (l.keyText d) (ids.map .string) false).pieces).1.sql =
      l.keyText d ++ tail := by
  unfold Sql.inOrEqual
  split
  · exact ⟨_, String.append_assoc⟩
  · exact ⟨_, String.append_assoc⟩

theorem whereBody_clauses (l : Lookup) {ids : List String} (some : ids ≠ [])
    (d : Dialect) (n : Nat) :
    let filled := Template.fillPieces n (Sql.inOrEqual (l.keyText d) (ids.map .string) false).pieces
    (l.clauses d ids).whereBody d n = (.ok (.some filled.1), filled.2) := by
  intro filled
  have rendered : Sql.Clauses.renderPredicates d (l.clauses d ids).predicates n =
      (.ok [(.and, filled.1)], filled.2) := by
    have here : (Sql.Predicate.new (l.keyText d) (ids.map .string) .inList).render d n =
        (.ok filled.1, filled.2) := by
      rw [render_condition l some, Template.fill_bare (Template.params_inOrEqual _ _ _)]
    exact Effect.bind_ok _ here
  rw [Sql.Clauses.whereBody, Effect.bind_ok _ rendered]
  have text : Sql.Clauses.whereParts [(.and, filled.1.sql)] [] = [filled.1.sql] := by
    obtain ⟨tail, starts⟩ := text_condition l d ids n
    have chain : Sql.Clauses.chain [(Sql.Conjunction.and, filled.1.sql)] = filled.1.sql :=
      String.append_empty
    have some : filled.1.sql.isEmpty = false := by
      rw [starts]
      cases d <;> simp [keyText, Dialect.castToText]
    rw [Sql.Clauses.whereParts, chain, some]
    rfl
  have params : Sql.Clauses.mergeAll ∅ [filled.1] = filled.1.params := by
    exact OrderedMap.empty_merge (Template.nodup_keys_fillPieces _ _)
  change ((if (Sql.Clauses.whereParts [(.and, filled.1.sql)] []).isEmpty then pure none else
    pure
      (Option.some
        (Sql.Statement.mk (Text.join " AND " (Sql.Clauses.whereParts [(.and, filled.1.sql)] []))
      (Sql.Clauses.mergeAll ∅ [filled.1]))) : Sql.Draw (Option Sql.Statement))) filled.2 = _
  rw [text, params]
  rfl

theorem render_clauses (l : Lookup) (d : Dialect) (ids : List String) : (l.query d ids).render d =
    (l.clauses d ids).assemble d ⟨l.qualifiedTable ++ " " ++ "l", ∅⟩ := by
  rw [query_eq, Sql.Query.render, Sql.Clauses.renderOver]
  rfl

/-- A safe lookup writes its names as they are, and nothing but the ids has a value. -/
theorem render_query (safe : l.Safe) {ids : List String} (some : ids ≠ [])
    (d : Dialect) (n : Nat) : (l.query d ids).render d n = (l.template d ids).fill n := by
  let filled := Template.fillPieces n (Sql.inOrEqual (l.keyText d) (ids.map .string) false).pieces
  have text : (l.clauses d ids).text d (l.qualifiedTable ++ " " ++ "l")
      (" WHERE " ++ filled.1.sql) = (Template.fillPieces n (l.template d ids).pieces).1.sql := by
    rw [text_clauses]
    simp [template, Template.fillPieces, filled, ← String.toList_inj]
  have braceless := Template.braceless_fill (plain_template safe d ids) n
  have params : (∅ : Params).merge filled.1.params = filled.1.params :=
    OrderedMap.empty_merge (Template.nodup_keys_fillPieces _ _)
  rw [render_clauses, Sql.Clauses.assemble, Effect.bind_ok _ (whereBody_clauses l some d n),
    Template.fill_bare rfl]
  change ((Except.ok ⟨(l.clauses d ids).expandRefs
    ((l.clauses d ids).text d (l.qualifiedTable ++ " " ++ "l") (" WHERE " ++ filled.1.sql)),
      (∅ : Params).merge filled.1.params⟩ : Except Error Sql.Statement), filled.2) = _
  rw [text, params, Sql.Clauses.expandRefs, Sql.TableRef.expandWith_of_braceless braceless]
  rfl

example :
    (Template.fillPieces 4
      (template { table := "groups", keyColumn := "id", labelColumn := "name" } .sqlite
    ["7", "9"]).pieces).1.sql = "SELECT CAST(l.id AS TEXT) AS k, l.name AS label FROM groups l " ++
      "WHERE CAST(l.id AS TEXT) IN (:qp5, :qp6)" := by
  decide +kernel

end Reports.Field.Lookup
