import Reports.Proofs.Filter.Unset

/-! Which rows a choice leaves, whether one value is chosen or a list. One value is compared with
the operator of the filter, a list is always membership: the two mean the same for the operators
that ask for equality, and the opposite for those that ask for the contrary. -/
namespace Reports

open Sql (Dialect Operator Piece Predicate Template inOrEqual listPieces placeholderName)
open Sql.Predicate (flatten)

/-- Whether a row passes a comparison of a selector with values. `equals v` is whether the selector
equals `v` in that row; nothing is known where one of them is null. -/
inductive Passes (selector : String) (equals : Json → Option Bool) : Template → Prop
  | equal {v : Json} : equals v = some true →
    Passes selector equals ⟨[.text (selector ++ " = "), .hole v], ∅⟩
  | unequal {v : Json} : equals v = some false →
    Passes selector equals ⟨[.text (selector ++ " <> "), .hole v], ∅⟩
  | among {vs : List Json} {v : Json} : v ∈ vs → equals v = some true →
    Passes selector equals ⟨.text (selector ++ " IN (") :: listPieces vs ++ [.text ")"], ∅⟩
  | outside {vs : List Json} : (∀ v ∈ vs, equals v = some false) →
    Passes selector equals
      ⟨.text (selector ++ " NOT IN (") :: listPieces vs ++ [.text ")"], ∅⟩

namespace Sql

variable {selector : String} {equals : Json → Option Bool} {vs : List Json} {negate : Bool}

def comparisonWord (vs : List Json) (negate : Bool) : String :=
  match vs with
  | [_] => if negate then " <> " else " = "
  | _ => if negate then " NOT IN (" else " IN ("

theorem negate_of_comparisonWord {word : String} (same : comparisonWord vs negate = word) :
    negate = (word == " <> " || word == " NOT IN (") := by
  subst same
  unfold comparisonWord
  split <;> cases negate <;> decide

def comparedPieces : List Json → List Piece
  | [v] => [.hole v]
  | vs => listPieces vs ++ [.text ")"]

theorem inOrEqual_eq : inOrEqual selector vs negate =
    ⟨.text (selector ++ comparisonWord vs negate) :: comparedPieces vs, ∅⟩ := by
  rcases vs with _ | ⟨v, _ | ⟨w, rest⟩⟩ <;> rfl

theorem holeValues_listed (vs : List Json) :
    Template.holeValues (listPieces vs ++ [.text ")"]) = vs := by
  simp [Template.holeValues, Template.holeValues_append, Template.holeValues_listPieces]

theorem holeValues_comparedPieces (vs : List Json) :
    Template.holeValues (comparedPieces vs) = vs := by
  rcases vs with _ | ⟨v, _ | ⟨w, rest⟩⟩
  · rfl
  · rfl
  · exact holeValues_listed (v :: w :: rest)

theorem inOrEqual_parts {ps : List Piece} {word : String}
    (same : inOrEqual selector vs negate = ⟨.text (selector ++ word) :: ps, ∅⟩) :
    vs = Template.holeValues ps ∧ comparisonWord vs negate = word := by
  simp only [inOrEqual_eq, Template.mk.injEq, List.cons.injEq, Piece.text.injEq,
    String.append_right_inj] at same
  obtain ⟨⟨word, rfl⟩, -⟩ := same
  exact ⟨(holeValues_comparedPieces vs).symm, word⟩

theorem passes_inOrEqual : Passes selector equals (inOrEqual selector vs negate) ↔
    if negate then ∀ v ∈ vs, equals v = some false else ∃ v ∈ vs, equals v = some true := by
  constructor
  · intro passes
    generalize same : inOrEqual selector vs negate = t at passes
    cases passes with
    | @equal v holds =>
      obtain ⟨rfl, word⟩ := inOrEqual_parts same
      obtain rfl : negate = false := negate_of_comparisonWord word
      exact ⟨v, List.mem_singleton_self v, holds⟩
    | unequal fails =>
      obtain ⟨rfl, word⟩ := inOrEqual_parts same
      obtain rfl : negate = true := negate_of_comparisonWord word
      exact List.forall_mem_singleton.mpr fails
    | @among us v mem holds =>
      obtain ⟨values, word⟩ := inOrEqual_parts same
      obtain rfl : negate = false := negate_of_comparisonWord word
      obtain rfl : vs = us := values.trans (holeValues_listed us)
      exact ⟨v, mem, holds⟩
    | @outside us fails =>
      obtain ⟨values, word⟩ := inOrEqual_parts same
      obtain rfl : negate = true := negate_of_comparisonWord word
      obtain rfl : vs = us := values.trans (holeValues_listed us)
      exact fails
  · intro compared
    unfold inOrEqual
    cases negate with
    | true =>
      have fails : ∀ v ∈ vs, equals v = some false := compared
      split
      · next v => exact .unequal (fails v (List.mem_singleton_self v))
      · exact .outside fails
    | false =>
      obtain ⟨v, mem, holds⟩ := compared
      split
      · obtain rfl := List.mem_singleton.mp mem
        exact .equal holds
      · exact .among mem holds

theorem fill_single (selector : String) (v : Json) (n : Nat) :
    (inOrEqual selector [v] negate).fill n =
      (.ok ⟨selector ++ (if negate then " <> " else " = ") ++ ":" ++ placeholderName (n + 1),
        ⟨[(placeholderName (n + 1), v)]⟩⟩, n + 1) := by
  have text : selector ++ (if negate then " <> " else " = ") ++
      (":" ++ placeholderName (n + 1) ++ "") = selector ++ (if negate then " <> " else " = ") ++
      ":" ++ placeholderName (n + 1) := by
    rw [String.append_empty, ← String.append_assoc]
  rw [← text]
  rfl

end Sql

namespace Filter

open Sql (fill_single inOrEqual_parts negate_of_comparisonWord passes_inOrEqual)

theorem Selection.predicate?_single {s : Selection} {selector : String} {op : Operator} {v : Json}
    (other : isAll v = false) (single : ∀ items, v ≠ .array items) :
    s.predicate? selector op v = some (.new selector [v] op) := by
  unfold Selection.predicate?
  rw [if_neg (Bool.eq_false_iff.mp other)]
  split
  · next items => exact absurd rfl (single items)
  · rfl

/-- A choice with a filter that asks for equality or for the contrary. A value alone is compared as
the filter asks; a list admits the rows that have one of its values, whatever the filter asks. So a
list of one value says what the value says exactly if the filter asks for equality. -/
theorem choice_membership (s : Selection) (selector : String) {op : Operator}
    (membership : op.isMembership = true) (ctx : Context) (d : Dialect) :
    (∀ v, isAll v = false → (∀ items, v ≠ .array items) → ∃ one list t,
      (Handler.select s).predicate? selector op (some v) ctx = .ok (some one) ∧
      (Handler.select s).predicate? selector op (some (.array [v])) ctx = .ok (some list) ∧
      (∀ n, one.render d n =
        (.ok ⟨selector ++ (if op.excludes then " <> " else " = ") ++ ":" ++ placeholderName (n + 1),
          ⟨[(placeholderName (n + 1), v)]⟩⟩, n + 1)) ∧
      (∀ n, list.render d n = (.ok ⟨selector ++ " = " ++ ":" ++ placeholderName (n + 1),
          ⟨[(placeholderName (n + 1), v)]⟩⟩, n + 1)) ∧
      (one.template d = list.template d ↔ op.excludes = false) ∧
      one.template d = .ok t ∧ ∀ equals, Passes selector equals t ↔
        equals v = some (!op.excludes)) ∧
    ∀ vs, (∀ v ∈ vs, ∀ items, v ≠ .array items) → ∃ list,
      (Handler.select s).predicate? selector op (some (.array vs)) ctx = .ok (some list) ∧
      (vs = [] → list.template d = .error (.emptyPredicate selector "IN")) ∧
      (vs ≠ [] → ∃ t, list.template d = .ok t ∧
        ∀ equals, Passes selector equals t ↔ ∃ v ∈ vs, equals v = some true) := by
  refine ⟨fun v other single => ?_, fun vs flat => ?_⟩
  · have compared := Predicate.template_single membership single selector d
    have listed : (Predicate.new selector [v] .inList).template d =
        .ok (inOrEqual selector [v] false) :=
      Predicate.template_single rfl single selector d
    have rendered {p : Predicate} {negate : Bool}
        (template : p.template d = .ok (inOrEqual selector [v] negate)) (n : Nat) :
        p.render d n = (inOrEqual selector [v] negate).fill n := by
      unfold Predicate.render
      rw [template]
    refine ⟨.new selector [v] op, .new selector [v] .inList, inOrEqual selector [v] op.excludes,
      congrArg Except.ok (Selection.predicate?_single other single), rfl,
      fun n => (rendered compared n).trans (fill_single selector v n),
      fun n => (rendered listed n).trans (fill_single selector v n), ?_, compared,
        fun equals => ?_⟩
    · rw [compared, listed, Except.ok.injEq]
      constructor
      · intro same
        exact negate_of_comparisonWord (inOrEqual_parts same).2
      · intro admits
        rw [admits]
    · rw [passes_inOrEqual]
      cases op.excludes <;> simp
  · refine ⟨.new selector vs .inList, rfl, ?_, fun some => ?_⟩
    · rintro rfl
      exact Predicate.template_inList selector [] d
    · have known : (flatten vs).isEmpty = false := by
        rw [Predicate.flatten_of_flat flat]
        simpa using some
      refine ⟨inOrEqual selector vs false, ?_, fun equals => passes_inOrEqual⟩
      rw [Predicate.template_inList, known, Predicate.flatten_of_flat flat]
      rfl

def categoryIs (category : Option Int) (v : Json) : Option Bool :=
  category.map fun id => v.plain == (Json.ofInt id).plain

/-- Where courses outside a category are asked for, a course of another category passes the choice
of this one, but does not pass the list of it; a course without category passes neither. -/
theorem choice_membership_otherCategory :
    ∃ one list t u,
      (Handler.select (categories [3, 4])).predicate? "c.category" .notEqual (some (.ofInt 3))
        { userId := 1 } = .ok (some one) ∧
      (Handler.select (categories [3, 4])).predicate? "c.category" .notEqual
        (some (.array [.ofInt 3]))
        { userId := 1 } = .ok (some list) ∧
      one.template .postgres = .ok t ∧ list.template .postgres = .ok u ∧
      Passes "c.category" (categoryIs (some 5)) t ∧
        ¬ Passes "c.category" (categoryIs (some 5)) u ∧
      ¬ Passes "c.category" (categoryIs none) t ∧
        ¬ Passes "c.category" (categoryIs none) u := by
  have number : ∀ items, Json.ofInt 3 ≠ .array items := by
    intro items same
    cases same
  have membership : Operator.notEqual.isMembership = true := rfl
  obtain ⟨single, several⟩ :=
    choice_membership (categories [3, 4]) "c.category" membership { userId := 1 } .postgres
  obtain ⟨one, -, t, chosen, -, -, -, -, written, compared⟩ := single (.ofInt 3) rfl number
  obtain ⟨list, listed, -, known⟩ := several [.ofInt 3] (List.forall_mem_singleton.mpr number)
  obtain ⟨u, among, members⟩ := known (List.cons_ne_nil _ _)
  refine ⟨one, list, t, u, chosen, listed, written, among, ?_, ?_, ?_, ?_⟩
  · exact (compared _).mpr (by decide +kernel)
  · simp only [members, List.mem_singleton, exists_eq_left]
    decide +kernel
  · rw [compared]
    decide
  · simp only [members, List.mem_singleton, exists_eq_left]
    decide

end Filter

end Reports
