import Reports.Filter.Basic
import Reports.Proofs.Sql.Fragment
import Reports.Report.Definition

/-! Choices that nobody has made. Under the policy that takes all options for a restriction, a
choice that is unset admits the rows that its options admit, unless there are no options. -/
namespace Reports

open Sql (Dialect Piece Predicate Template inOrEqual listPieces)
open Sql.Predicate (flatten)

variable {ρ : Type} {equals : ρ → String → Json → Prop} {row : ρ}

/-- The rows that a comparison with values admits, when it is known which expressions equal which
values in a row. -/
inductive Admits (equals : ρ → String → Json → Prop) (row : ρ) : Template → Prop
  | equal {selector : String} {v : Json} : equals row selector v →
    Admits equals row ⟨[.text (selector ++ " = "), .hole v], ∅⟩
  | among {selector : String} {vs : List Json} {v : Json} : v ∈ vs → equals row selector v →
    Admits equals row ⟨.text (selector ++ " IN (") :: listPieces vs ++ [.text ")"], ∅⟩

theorem comparison_ne_list {selector selector' : String} {v : Json} {vs : List Json} :
    (⟨[.text (selector ++ " = "), .hole v], ∅⟩ : Template) ≠
      ⟨.text (selector' ++ " IN (") :: listPieces vs ++ [.text ")"], ∅⟩ := by
  intro same
  have last : some (Piece.hole v) = some (.text ")") :=
    (congrArg (fun t : Template => t.pieces.getLast?) same).trans List.getLast?_concat
  cases last

theorem admits_equal {selector : String} {v : Json} :
    Admits equals row ⟨[.text (selector ++ " = "), .hole v], ∅⟩ ↔
    equals row selector v := by
  constructor
  · intro admits
    generalize same : (⟨[.text (selector ++ " = "), .hole v], ∅⟩ : Template) = t at admits
    cases admits with
    | equal holds =>
      simp only [Template.mk.injEq, List.cons.injEq, Piece.text.injEq, Piece.hole.injEq,
        String.append_left_inj] at same
      obtain ⟨⟨rfl, rfl, -⟩, -⟩ := same
      exact holds
    | among => exact absurd same comparison_ne_list
  · exact .equal

theorem admits_inOrEqual {selector : String} {vs : List Json} :
    Admits equals row (inOrEqual selector vs false) ↔ ∃ v ∈ vs, equals row selector v := by
  unfold inOrEqual
  split
  · next v => simp [admits_equal]
  · simp only [Bool.false_eq_true, if_false]
    constructor
    · intro admits
      generalize same :
        (⟨.text (selector ++ " IN (") :: listPieces vs ++ [.text ")"], ∅⟩ : Template) = t at admits
      cases admits with
      | equal => exact absurd same.symm comparison_ne_list
      | among mem holds =>
        have values := congrArg (fun t : Template => Template.holeValues t.pieces) same
        have first := congrArg (fun t : Template => t.pieces.head?) same
        simp [Template.holeValues, Template.holeValues_append,
          Template.holeValues_listPieces] at values first
        obtain rfl := values
        obtain rfl := first
        exact ⟨_, mem, holds⟩
    · rintro ⟨v, mem, holds⟩
      exact .among mem holds

theorem not_admits_never {selector : String} {d : Dialect} {t : Template}
    (found : (Predicate.never selector).template d = .ok t) : ¬ Admits equals row t := by
  obtain rfl : Template.ofText "1 = 0" = t := Except.ok.inj found
  intro admits
  generalize same : Template.ofText "1 = 0" = t at admits
  cases admits with
  | equal holds =>
    have length := congrArg (fun t : Template => t.pieces.length) same
    simp [Template.ofText] at length
  | among mem holds =>
    have length := congrArg (fun t : Template => t.pieces.length) same
    simp [Template.ofText] at length

/-- The operators that ask whether a selector equals a value, or one of several. -/
def Sql.Operator.isMembership : Operator → Bool
  | equal | notEqual | inList | notInList => true
  | _ => false

/-- Those of them that ask for the contrary. -/
def Sql.Operator.excludes : Operator → Bool
  | notEqual | notInList => true
  | _ => false

namespace Sql.Predicate

theorem template_inList (selector : String) (vs : List Json) (d : Dialect) :
    (new selector vs .inList).template d =
      if (flatten vs).isEmpty then .error (.emptyPredicate selector Sql.Operator.inList.display)
      else .ok (inOrEqual selector (flatten vs) false) := by
  unfold template base
  cases empty : (flatten vs).isEmpty <;>
    simp only [new, empty, if_true, Bool.false_eq_true, if_false] <;> rfl

theorem flatten_of_flat {vs : List Json} (flat : ∀ v ∈ vs, ∀ items, v ≠ .array items) :
    flatten vs = vs := by
  induction vs with
  | nil => rfl
  | cons v rest ih =>
    have later := ih fun w mem => flat w (List.mem_cons_of_mem _ mem)
    unfold flatten at later ⊢
    rw [List.flatMap_cons, later]
    split
    · next items => exact absurd rfl (flat _ List.mem_cons_self items)
    · rfl

theorem template_single {op : Sql.Operator} (membership : op.isMembership = true) {v : Json}
    (single : ∀ items, v ≠ .array items) (selector : String) (d : Dialect) :
    (new selector [v] op).template d = .ok (inOrEqual selector [v] op.excludes) := by
  have flat : flatten [v] = [v] := flatten_of_flat (List.forall_mem_singleton.mpr single)
  unfold template base
  rw [new, flat]
  cases op with
  | equal | notEqual =>
    -- The sign and the blanks around it are put together here, and are one text there.
    simp only [inOrEqual, Sql.Operator.excludes, String.append_assoc]
    rfl
  | inList | notInList => rfl
  | _ => cases membership

end Sql.Predicate

namespace Filter

/-- The only option is a list that has lists in it. -/
def Selection.Nested (s : Selection) : Prop :=
  ∃ o items inner, s.options = [o] ∧ o.value = .array items ∧ .array inner ∈ items

variable {f : Filter} {s : Selection}

theorem setRaw_all (handler : f.handler = .select s) :
    f.setRaw allValue = .ok { f with raw := some allValue } := by
  unfold setRaw Handler.validate
  rw [handler]
  rfl

theorem predicate?_select (handler : f.handler = .select s) (ctx : Context) :
    f.predicate? ctx =
      .ok ((f.raw.or s.defaultValue?).bind fun v => s.predicate? f.selector f.operator v) := by
  unfold Filter.predicate? Filter.isCondition effectiveValue? Filter.defaultValue?
  rw [handler]
  rfl

theorem Selection.predicate?_isAll (policy : s.policy = .expandOptions) (known : s.options ≠ [])
    (selector : String) (op : Sql.Operator) {v : Json} (all : isAll v = true) :
    s.predicate? selector op v = some (.new selector s.optionValues .inList) := by
  have some : s.options.isEmpty = false := by simpa using known
  unfold Selection.predicate?
  rw [if_pos all, policy]
  simp only [some, Bool.false_eq_true, if_false]

theorem Selection.template_default (policy : s.policy = .expandOptions) (known : s.options ≠ [])
    (simple : ¬ s.Nested) (selector : String) (d : Dialect) :
    ∃ p, (s.defaultValue?.bind fun v => s.predicate? selector .equal v) = some p ∧
      p.template d = (Predicate.new selector s.optionValues .inList).template d := by
  match options : s.options with
  | [] => exact absurd options known
  | [only] =>
    have values : s.optionValues = [only.value] := by rw [Selection.optionValues, options]; rfl
    have preset : s.defaultValue? = some only.value := by rw [Selection.defaultValue?, options]
    rw [preset, Option.bind_some, values]
    by_cases all : isAll only.value = true
    · rw [Selection.predicate?_isAll policy known selector .equal all, values]
      exact ⟨_, rfl, rfl⟩
    · unfold Selection.predicate?
      rw [if_neg all]
      split
      · next items array =>
        -- Of the two predicates one opens the list, the other opens what is in it.
        have flat : flatten items = items := by
          refine Predicate.flatten_of_flat fun v mem inner same => ?_
          exact simple ⟨only, items, inner, options, array, same ▸ mem⟩
        refine ⟨_, rfl, ?_⟩
        rw [array, Predicate.template_inList, Predicate.template_inList, flat]
        simp [flatten]
      · next single =>
        have compared : (Predicate.new selector [only.value] .equal).template d =
            .ok (inOrEqual selector [only.value] false) :=
          Predicate.template_single rfl (fun items same => single items same) selector d
        have listed : (Predicate.new selector [only.value] .inList).template d =
            .ok (inOrEqual selector [only.value] false) :=
          Predicate.template_single rfl (fun items same => single items same) selector d
        exact ⟨_, rfl, compared.trans listed.symm⟩
  | first :: second :: rest =>
    have preset : s.defaultValue? = some allValue := by rw [Selection.defaultValue?, options]
    rw [preset, Option.bind_some,
      Selection.predicate?_isAll policy known selector .equal (by decide)]
    exact ⟨_, rfl, rfl⟩

/-- A choice that is unset, beside the explicit choice of all. -/
theorem unset_admits_options (handler : f.handler = .select s) (policy : s.policy = .expandOptions)
    (operator : f.operator = .equal) (unset : f.raw = none) (ctx : Context) (d : Dialect) :
    ∃ all q, f.setRaw allValue = .ok all ∧ all.predicate? ctx = .ok (some q) ∧
      (s.options = [] → f.predicate? ctx = .ok none ∧ ∃ t, q.template d = .ok t ∧
        ∀ (ρ : Type) (equals : ρ → String → Json → Prop) row, ¬ Admits equals row t) ∧
      (s.options ≠ [] → ¬ s.Nested → ∃ p, f.predicate? ctx = .ok (some p) ∧
        p.template d = q.template d ∧
        (flatten s.optionValues ≠ [] → ∃ t, p.template d = .ok t ∧
          ∀ (ρ : Type) (equals : ρ → String → Json → Prop) row,
            Admits equals row t ↔
            ∃ v ∈ flatten s.optionValues, equals row f.selector v)) := by
  have given : ({ f with raw := some allValue } : Filter).predicate? ctx =
      .ok (s.predicate? f.selector f.operator allValue) := by
    rw [predicate?_select (f := { f with raw := some allValue }) handler]
    rfl
  have own := predicate?_select handler ctx
  rw [unset, operator, Option.none_or] at own
  by_cases none : s.options = []
  · have empty : s.predicate? f.selector f.operator allValue = some (.never f.selector) := by
      unfold Selection.predicate?
      rw [if_pos (by decide), policy, none]
      rfl
    have preset : s.defaultValue? = .none := by rw [Selection.defaultValue?, none]
    refine ⟨_, .never f.selector, setRaw_all handler, by rw [given, empty], fun _ => ?_,
      fun known => absurd none known⟩
    rw [preset] at own
    have fixed : (Predicate.never f.selector).template d = .ok (Template.ofText "1 = 0") := rfl
    refine ⟨own, Template.ofText "1 = 0", fixed, fun ρ equals row => not_admits_never fixed⟩
  · refine ⟨_, .new f.selector s.optionValues .inList, setRaw_all handler, ?_,
      fun empty => absurd empty none, fun _ simple => ?_⟩
    · rw [given, Selection.predicate?_isAll policy none _ _ (by decide)]
    · obtain ⟨p, contributed, same⟩ :=
        Selection.template_default policy none simple f.selector d
      rw [contributed] at own
      refine ⟨p, own, same, fun some => ?_⟩
      have nonempty : (flatten s.optionValues).isEmpty = false := by simpa using some
      refine ⟨inOrEqual f.selector (flatten s.optionValues) false, ?_, fun ρ equals row =>
        admits_inOrEqual⟩
      rw [same, Predicate.template_inList, nonempty]
      rfl

def categories (ids : List Int) : Selection :=
  .new (.fixed (ids.map fun id => ⟨.ofInt id, Text.signedDecimal id⟩)) .expandOptions

/-- Of the items, those of the two categories are admitted while nothing is chosen. -/
theorem unset_admits_options_categories :
    ∃ p t,
    ((Filter.new "category" "i.category").withHandler (.select (categories [3, 4]))).predicate?
        { userId := 1 } = .ok (some p) ∧ p.template .sqlite = .ok t ∧
      ∀ category : Int, Admits (fun c expr v => expr = "i.category" ∧ v = .ofInt c)
        category t ↔ category = 3 ∨ category = 4 := by
  obtain ⟨all, q, -, -, -, known⟩ := unset_admits_options
    (f := (Filter.new "category" "i.category").withHandler (.select (categories [3, 4])))
    (s := categories [3, 4]) rfl rfl rfl rfl { userId := 1 } .sqlite
  have simple : ¬ (categories [3, 4]).Nested := by
    rintro ⟨o, items, inner, only, -⟩
    cases only
  have values : flatten (categories [3, 4]).optionValues = [.ofInt 3, .ofInt 4] := rfl
  obtain ⟨p, contributed, -, exact⟩ := known (by decide) simple
  obtain ⟨t, template, admits⟩ := exact (by rw [values]; simp)
  refine ⟨p, t, contributed, template, fun category => ?_⟩
  rw [admits, values]
  simp [Json.ofInt, Filter.new, withHandler]

/-- Where no category is visible, an unset choice of category leaves the courses of hidden ones
in. -/
example :
    ((Report.courses.filters { userId := 1 }).toOption.bind fun c =>
      let nothing : Storage := { dialect := .sqlite, answer := fun _ _ => .ok [] }
      (c.init nothing {}).1.2.filters.head?.bind fun f =>
        (f.predicate? { userId := 1 }).toOption.map fun p => (f.name, p.isNone)) =
      some ("category", true) := by
  decide +kernel

end Filter

end Reports
