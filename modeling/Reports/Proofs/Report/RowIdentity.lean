import Reports.Proofs.List
import Reports.Proofs.Report.SelectList
import Reports.Proofs.Sql.Meaning
import Reports.Proofs.Text.Delimited

/-! The expression that identifies a row by several identifiers: what it says as SQL, and which rows
it tells apart. -/
namespace Reports

namespace Sql

def literalRest : List Char → Option (List Char)
  | [] => none
  | c :: rest =>
    if c = '\x27' then
      match rest with
      | [] => some []
      | d :: later => if d = '\x27' then (literalRest later).map ('\x27' :: ·) else none
    else (literalRest rest).map (c :: ·)

def literalText : List Char → Option (List Char)
  | '\x27' :: rest => literalRest rest
  | _ => none

/-- Expressions of SQL that make up a text. -/
inductive TextExpr
  | literal (source : String)
  | cast (expr : String)
  | coalesce (first second : TextExpr)
  | concat (left right : TextExpr)

namespace TextExpr

def sql (d : Dialect) : TextExpr → String
  | literal source => source
  | cast expr => d.castToText expr
  | coalesce first second => "COALESCE(" ++ first.sql d ++ ", " ++ second.sql d ++ ")"
  | concat left right => left.sql d ++ " || " ++ right.sql d

/-- The text, or null, in a row where expressions have these integers and nulls. -/
def value (cells : String → Option Int) : TextExpr → Option (List Char)
  | literal source => literalText source.toList
  | cast expr => (cells expr).map fun z => (Text.signedDecimal z).toList
  | coalesce first second => (first.value cells).or (second.value cells)
  | concat left right => (left.value cells).bind fun l => (right.value cells).map (l ++ ·)

def part (expr : String) : TextExpr := coalesce (cast expr) (literal "\x27\x27")

/-- One more identifier behind others; SQL groups from the left. -/
def extend (delimiter : String) (left : TextExpr) (expr : String) : TextExpr :=
  concat (concat left (literal (Dialect.quoteString delimiter))) (part expr)

def identity (delimiter : String) : List String → TextExpr
  | [] => literal "\x27\x27"
  | first :: rest => rest.foldl (extend delimiter) (part first)

end TextExpr

theorem literalRest_quoted (cs : List Char) :
    literalRest (cs.flatMap (Text.doubling '\x27') ++ ['\x27']) = some cs := by
  induction cs with
  | nil => rfl
  | cons c rest ih =>
    rw [List.flatMap_cons, List.append_assoc]
    by_cases quote : c = '\x27'
    · subst quote
      have doubled : Text.doubling '\x27' '\x27' = ['\x27', '\x27'] := if_pos rfl
      simp [doubled, literalRest, ih]
    · have once : Text.doubling '\x27' c = [c] := if_neg quote
      rw [once, List.singleton_append]
      unfold literalRest
      rw [if_neg quote, ih]
      rfl

theorem literalText_quoteString (text : String) :
    literalText (Dialect.quoteString text).toList = some text.toList := by
  rw [Dialect.quoteString, Text.quoted, String.toList_ofList]
  exact literalRest_quoted text.toList

namespace TextExpr

theorem value_part (expr : String) (cells : String → Option Int) :
    (part expr).value cells = some (Text.cell (cells expr)) := by
  simp only [part, value]
  cases cells expr <;> rfl

theorem value_extend {delimiter : String} {left : TextExpr} {cells : String → Option Int}
    {l : List Char} (read : left.value cells = some l) (expr : String) :
      (extend delimiter left expr).value cells =
        some (l ++ delimiter.toList ++ Text.cell (cells expr)) := by
  simp only [extend, value, read, literalText_quoteString, value_part, Option.bind_some,
    Option.map_some]

/-- The value is the tuple of the cells, written with the delimiter. -/
theorem value_identity (delimiter : String) {exprs : List String} (some : exprs ≠ [])
    (cells : String → Option Int) : (identity delimiter exprs).value cells =
      .some (Text.delimited delimiter.toList (exprs.map cells)) := by
  obtain ⟨first, rest, rfl⟩ := List.exists_cons_of_ne_nil some
  have folded (left : TextExpr) (l : List Char) (read : left.value cells = .some l) :
      (rest.foldl (extend delimiter) left).value cells =
        .some (l ++ rest.flatMap fun e => delimiter.toList ++ Text.cell (cells e)) := by
    induction rest generalizing left l with
    | nil => simpa using read
    | cons e rest ih =>
      rw [List.foldl_cons, ih (List.cons_ne_nil _ _) _ _ (value_extend read e)]
      simp only [List.flatMap_cons, List.append_assoc]
  rw [identity, folded _ _ (value_part first cells), List.map_cons, Text.delimited_eq_flatMap,
    List.flatMap_map]

theorem concat_cons_cons (s t : String) (rest : List String) :
    Dialect.concat (s :: t :: rest) = Dialect.concat ((s ++ " || " ++ t) :: rest) := by
  cases rest with
  | nil => rfl
  | cons u rest => simp only [Dialect.concat, Text.join, String.append_assoc]

theorem sql_part (d : Dialect) (expr : String) :
    (part expr).sql d = "COALESCE(" ++ d.castToText expr ++ ", \x27\x27)" := by
  simp only [part, sql, String.append_assoc]
  rfl

theorem sql_foldl_extend (d : Dialect) (delimiter : String) (left : TextExpr)
    (exprs : List String) :
    (exprs.foldl (extend delimiter) left).sql d = Dialect.concat (left.sql d ::
      (exprs.map fun e => (part e).sql d).flatMap fun s => [Dialect.quoteString delimiter, s]) := by
  induction exprs generalizing left with
  | nil => rfl
  | cons e rest ih =>
    rw [List.foldl_cons, ih, List.map_cons, List.flatMap_cons]
    simp only [List.cons_append, List.nil_append]
    rw [concat_cons_cons (left.sql d), concat_cons_cons]
    rfl

theorem sql_identity_cons_cons (d : Dialect) (delimiter e e' : String) (rest : List String) :
    (identity delimiter (e :: e' :: rest)).sql d = (part e).sql d ++ " || " ++
      Dialect.quoteString delimiter ++ (" || " ++ (identity delimiter (e' :: rest)).sql d) := by
  rw [identity, identity, sql_foldl_extend, sql_foldl_extend]
  cases rest <;> simp [Dialect.concat, Text.join, String.append_assoc]

theorem identityExpr_eq (d : Dialect) (delimiter : String) {exprs : List String}
    (several : 2 ≤ exprs.length) :
    Request.identityExpr d delimiter exprs = some ((identity delimiter exprs).sql d) := by
  match exprs, several with
  | first :: second :: rest, _ =>
    rw [identity, sql_foldl_extend, ← List.intersperse_cons]
    simp only [Request.identityExpr, sql_part, List.map_cons]

end TextExpr

end Sql

namespace Request

open Sql (uniqueId distinctValues TextExpr Query)
open Text (Confusing delimited)

theorem distinctValues_identity {delimiter : String} {exprs : List String} (some : exprs ≠ [])
    (clear : ¬Confusing delimiter.toList exprs.length) (rows : List (String → Option Int)) :
    distinctValues none (rows.map fun cells => (TextExpr.identity delimiter exprs).value cells) =
      (rows.map fun cells => exprs.map cells).dedup.length := by
  have values : (rows.map fun cells => (TextExpr.identity delimiter exprs).value cells) =
      (rows.map fun cells => exprs.map cells).map fun vs =>
        Option.some (delimited delimiter.toList vs) := by
    rw [List.map_map]
    apply List.map_congr_left
    intro cells _
    exact TextExpr.value_identity delimiter some cells
  have kept : (((rows.map fun cells => exprs.map cells).map fun vs =>
      Option.some (delimited delimiter.toList vs)).filter fun v => decide (v ≠ none)) =
        (rows.map fun cells => exprs.map cells).map fun vs =>
          Option.some (delimited delimiter.toList vs) := by
    apply List.filter_eq_self.mpr
    intro v mem
    obtain ⟨vs, -, rfl⟩ := List.mem_map.mp mem
    rfl
  rw [distinctValues, values, kept, List.dedup_map_of_injOn, List.length_map]
  intro vs hvs ws hws same
  obtain ⟨cells, -, rfl⟩ := List.mem_map.mp hvs
  obtain ⟨cells', -, rfl⟩ := List.mem_map.mp hws
  apply Text.delimited_injective _ (by simp only [List.length_map]) (Option.some.inj same)
  rwa [List.length_map]

/-- What a delimiter is unless it is set tells pairs apart, and nothing longer. -/
theorem confusing_default {k : Nat} : Confusing ({} : Settings).delimiter.toList k ↔ 3 ≤ k := by
  constructor
  · rintro (digits | ⟨-, three⟩ | ⟨n, m, negative⟩)
    · exact absurd (digits '-' (by decide)) (by decide)
    · exact three
    · cases m with
      | zero => cases negative
      | succ m =>
        have behind := (List.cons.inj negative).2
        exact absurd (List.append_eq_nil_iff.mp behind.symm).1 Nat.toDigits_ne_nil
  · intro three
    exact Or.inr (Or.inl ⟨by decide, three⟩)

def identity (r : Request) (exprs : List String) : TextExpr := .identity r.settings.delimiter exprs

/-- Several identifiers are selected as one text. It tells all rows apart unless the delimiter
confuses tuples of this length. Then it gives one identity to rows with different identifiers. -/
theorem identity_of_buildQuery {r : Request} {s s' : Session} {q : Query}
    (built : r.buildQuery s = (.ok q, s')) (named : Named r.fields) (free : r.Unreserved) :
    ∃ exprs, (r.fields.filter (·.isIdentifier)).map Field.select = exprs.map some ∧
      (2 ≤ exprs.length → q.getSelect? uniqueId = some ((r.identity exprs).sql r.dialect) ∧
        (¬Confusing r.settings.delimiter.toList exprs.length →
          (∀ cells cells', exprs.map cells ≠ exprs.map cells' →
            (r.identity exprs).value cells ≠ (r.identity exprs).value cells') ∧
          ∀ rows : List (String → Option Int),
            distinctValues none (rows.map fun cells => (r.identity exprs).value cells) =
              (rows.map fun cells => exprs.map cells).dedup.length) ∧
        (Confusing r.settings.delimiter.toList exprs.length → exprs.Nodup →
          ∃ cells cells', exprs.map cells ≠ exprs.map cells' ∧
            (r.identity exprs).value cells = (r.identity exprs).value cells')) := by
  obtain ⟨exprs, parts, -⟩ := selects_of_buildQuery named built
  refine ⟨exprs, identityParts_eq parts, fun several => ?_⟩
  have some : exprs ≠ [] := by
    rintro rfl
    cases several
  have value := TextExpr.value_identity r.settings.delimiter some
  refine ⟨?_, fun clear => ⟨fun cells cells' other same => ?_, ?_⟩,
    fun confusing distinct => ?_⟩
  · exact getSelect?_uniqueId named free built parts (TextExpr.identityExpr_eq _ _ several)
  · rw [identity, value, value] at same
    apply other
    apply Text.delimited_injective _ (by simp only [List.length_map]) (Option.some.inj same)
    rwa [List.length_map]
  · exact distinctValues_identity some clear
  · obtain ⟨vs, ws, first, second, other, same⟩ := Text.delimited_confused several confusing
    obtain ⟨cells, rfl⟩ := List.exists_map_eq distinct first
    obtain ⟨cells', rfl⟩ := List.exists_map_eq distinct second
    exact ⟨cells, cells', other, by rw [identity, value, value, same]⟩

def undelimited : Request := { plain .users with settings := { delimiter := "" } }

theorem identity_of_buildQuery_users :
    (∃ q s, (plain .users).buildQuery {} = (.ok q, s) ∧ q.getSelect? uniqueId =
        some "COALESCE(CAST(u.id AS TEXT), '') || '-' || COALESCE(CAST(g.id AS TEXT), '')" ∧
      ∀ rows : List (String → Option Int), distinctValues none (rows.map fun cells =>
        ((plain .users).identity ["u.id", "g.id"]).value cells) =
          (rows.map fun cells => ["u.id", "g.id"].map cells).dedup.length) ∧
    ∃ q s, undelimited.buildQuery {} = (.ok q, s) ∧ ∃ cells cells' : String → Option Int,
      ["u.id", "g.id"].map cells ≠ ["u.id", "g.id"].map cells' ∧
        (undelimited.identity ["u.id", "g.id"]).value cells =
          (undelimited.identity ["u.id", "g.id"]).value cells' := by
  constructor
  · obtain ⟨q, s, built⟩ := exists_query (r := plain .users) (s := {}) (by decide +kernel)
    obtain ⟨exprs, identifiers, whole⟩ :=
      identity_of_buildQuery built (by decide +kernel) (by decide +kernel)
    obtain rfl : exprs = ["u.id", "g.id"] :=
      List.map_injective_iff.mpr (Option.some_injective String) identifiers.symm
    obtain ⟨selected, told, -⟩ := whole (by decide)
    have clear : ¬Confusing (plain .users).settings.delimiter.toList 2 := fun confusing =>
      absurd (confusing_default.mp confusing) (by decide)
    exact ⟨q, s, built, selected.trans (by decide +kernel), (told clear).2⟩
  · obtain ⟨q, s, built⟩ := exists_query (r := undelimited) (s := {}) (by decide +kernel)
    obtain ⟨exprs, identifiers, whole⟩ :=
      identity_of_buildQuery built (by decide +kernel) (by decide +kernel)
    obtain rfl : exprs = ["u.id", "g.id"] :=
      List.map_injective_iff.mpr (Option.some_injective String) identifiers.symm
    obtain ⟨-, -, confused⟩ := whole (by decide)
    exact ⟨q, s, built, confused (Or.inl fun c mem => nomatch mem) (by decide)⟩

end Request

end Reports
