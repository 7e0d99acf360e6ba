import Reports.Proofs.Sql.Condition
import Reports.Proofs.Sql.Fragment

/-! What WHERE and HAVING say. The fragments of predicates hold together, so the chain of them holds
in the clause when it holds on its own, and so does each raw condition. -/
namespace Reports.Sql

open Precedence
  (Item Holds holds holds_iff Tight conjoin conjoin_ne_nil tight_conjoin holds_conjoin_tight)
open TableRef (Closed expandWith)

variable {table : String → String} {d : Dialect}

namespace Template

theorem sql_fillPieces_append (n : Nat) (ps qs : List Piece) :
    (fillPieces n (ps ++ qs)).1.sql =
      (fillPieces n ps).1.sql ++ (fillPieces (fillPieces n ps).2 qs).1.sql := by
  induction ps generalizing n with
  | nil => simp [fillPieces]
  | cons p rest ih => cases p <;> simp [fillPieces, ih, String.append_assoc]

theorem reads_listPieces (n : Nat) (vs : List Json) :
    ∃ is, Reads table (fillPieces n (listPieces vs)).1.sql is := by
  fun_induction listPieces vs generalizing n with
  | case1 => exact ⟨[], .empty⟩
  | case2 v =>
    have name : ReadsTight table (":" ++ placeholderName (n + 1)) := readsTight_placeholder _
    obtain ⟨is, reads, -⟩ := name
    exact ⟨is, by simpa [fillPieces] using reads⟩
  | case3 v w rest ih =>
    have name : ReadsTight table (":" ++ placeholderName (n + 1)) := readsTight_placeholder _
    obtain ⟨is, reads, -⟩ := name
    obtain ⟨js, later⟩ := ih (n + 1)
    -- Nothing stands between the comma and the blank.
    have text : (fillPieces n (.hole v :: .text ", " :: listPieces (w :: rest))).1.sql =
        ":" ++ placeholderName (n + 1) ++ "," ++
          ("" ++ " " ++ (fillPieces (n + 1) (listPieces (w :: rest))).1.sql) := by
      simp [fillPieces, ← String.toList_inj]
    exact ⟨_, text ▸ reads.listed (Reads.empty.separated later)⟩

end Template

theorem readsTight_comparisonWord {s : String} (word : s ∈ Predicate.comparisonWords) :
    ReadsTight table s := by
  have all : ∀ s ∈ Predicate.comparisonWords, isTight s = true := by decide +kernel
  exact readsTight_of_isTight (all s word)

section Comparisons

variable {selector : String} (plain : ReadsTight table selector)

include plain

theorem ReadsTight.comparison {s : String} (word : s ∈ Predicate.comparisonWords) (n : Nat) :
    ReadsTight table (selector ++ " " ++ s ++ " " ++ (":" ++ placeholderName n)) :=
  (plain.separated (readsTight_comparisonWord word)).separated (readsTight_placeholder n)

theorem ReadsTight.membership {inner : String} {is : List Item} (list : Reads table inner is)
    (negate : Bool) :
    ReadsTight table (selector ++ (if negate then " NOT IN (" else " IN (") ++ inner ++ ")") := by
  have word : ReadsTight table (if negate then "NOT IN" else "IN") := by
    cases negate <;> exact readsTight_of_isTight (by decide +kernel)
  have text : selector ++ (if negate then " NOT IN (" else " IN (") ++ inner ++ ")" =
      selector ++ " " ++ (if negate then "NOT IN" else "IN") ++ " " ++ ("(" ++ inner ++ ")") := by
    cases negate <;> simp [← String.toList_inj]
  rw [text]
  exact (plain.separated word).separated (.parenthesized list)

theorem ReadsTight.inOrEqual (vs : List Json) (negate : Bool) (n : Nat) :
    ReadsTight table (Template.fillPieces n (Sql.inOrEqual selector vs negate).pieces).1.sql := by
  unfold Sql.inOrEqual
  split
  · next v =>
    cases negate with
    | false =>
      have compared := plain.comparison (s := "=") (by decide) (n + 1)
      simpa [Template.fillPieces, String.append_assoc] using compared
    | true =>
      have compared := plain.comparison (s := "<>") (by decide) (n + 1)
      simpa [Template.fillPieces, String.append_assoc] using compared
  · have list : ∃ is, Reads table (Template.fillPieces n (listPieces vs)).1.sql is :=
      Template.reads_listPieces n vs
    obtain ⟨is, list⟩ := list
    have member := plain.membership list negate
    simpa [Template.fillPieces, Template.sql_fillPieces_append, String.append_assoc] using member

end Comparisons

/-- A predicate whose texts are values and conditions of their own: its selector holds together, and
so does what a renderer writes for it. -/
structure Predicate.Plain (table : String → String) (d : Dialect) (p : Predicate) : Prop where
  selector : ReadsTight table p.selector
  rawConditions : ∀ r ∈ p.rawConditions, ∃ is, Reads table r.sql is
  subquery : ∀ t, p.subquery = some t →
    ∀ n, ∃ is, Reads table (Template.fillPieces n t.pieces).1.sql is
  renderer : ∀ render t, p.renderer = some render → render p.selector p.values d = .ok t →
    ∀ n, ReadsTight table (Template.fillPieces n t.pieces).1.sql

namespace Predicate.Plain

variable {p : Predicate} (plain : p.Plain table d)

include plain

theorem base {t : Template} (found : p.base d = .ok t) (n : Nat) :
    ReadsTight table (Template.fillPieces n t.pieces).1.sql := by
  have form := base_form found
  generalize p.drawnValues d = vs at form
  cases form with
  | list negate => exact plain.selector.inOrEqual p.values negate n
  | comparison v word =>
    have compared := plain.selector.comparison word (n + 1)
    simpa [Template.fillPieces, String.append_assoc] using compared
  | pattern v word =>
    have escape : ReadsTight table "ESCAPE '\\'" := readsTight_of_isTight (by decide +kernel)
    have compared := (plain.selector.comparison word (n + 1)).separated escape
    simpa [Template.fillPieces, String.append_assoc] using compared
  | @subquery q negation given word =>
    obtain ⟨is, inner⟩ := plain.subquery q given n
    have member := plain.selector.membership inner
    rcases List.mem_pair.mp word with rfl | rfl
    · have inside := member false
      simpa [Template.fillPieces, Template.sql_fillPieces_append, String.append_assoc] using inside
    · have outside := member true
      simpa [Template.fillPieces, Template.sql_fillPieces_append, String.append_assoc] using outside
  | renderer given rendered => exact plain.renderer _ t given rendered n

end Predicate.Plain

def Conjunction.item : Conjunction → Item
  | and => .and
  | or => .or

section Texts

variable {a b : String} {is js : List Item}

theorem Reads.conjoined (c : Conjunction) (first : Reads table a is) (second : Reads table b js) :
    Reads table (a ++ (" " ++ c.sql ++ " " ++ b)) (is ++ c.item :: js) := by
  have word : Reads table c.sql [c.item] := by cases c <;> exact .conjunction _
  have text : a ++ (" " ++ c.sql ++ " " ++ b) = a ++ " " ++ c.sql ++ " " ++ b := by
    simp only [String.append_assoc]
  rw [text, List.append_cons]
  exact (first.separated word).separated second

theorem Reads.holds_iff (atomic : List Item → Bool) (reads : Reads table a is) :
    Holds atomic (expandWith table a) ↔ holds atomic is = true :=
  Precedence.holds_iff atomic reads.read

theorem Reads.holds_parenthesized (atomic : List Item → Bool) (reads : Reads table a is) :
    Holds atomic (expandWith table ("(" ++ a ++ ")")) ↔ Holds atomic (expandWith table a) := by
  rw [reads.parenthesized.holds_iff, Precedence.holds_group, reads.holds_iff]

/-- How a text is read; there is nothing in it when it cannot be. -/
def itemsOf (table : String → String) (text : String) : List Item :=
  (Precedence.read (expandWith table text)).getD []

theorem Reads.itemsOf_eq (reads : Reads table a is) : itemsOf table a = is := by
  rw [itemsOf, reads.read, Option.getD_some]

theorem Reads.holds_itemsOf (reads : Reads table a is) (atomic : List Item → Bool) :
    Holds atomic (expandWith table a) ↔ holds atomic (itemsOf table a) = true := by
  rw [reads.holds_iff, reads.itemsOf_eq]

theorem join_and (t u : String) (rest : List String) :
    t ++ (" " ++ Conjunction.and.sql ++ " " ++ Text.join " AND " (u :: rest)) =
      Text.join " AND " (t :: u :: rest) := by
  simp [Text.join, Conjunction.sql, ← String.toList_inj]

section Join

variable {texts : List String} (some : texts ≠ [])

include some

theorem reads_join (readable : ∀ t ∈ texts, ∃ is, Reads table t is) :
    Reads table (Text.join " AND " texts) (conjoin (texts.map (itemsOf table))) := by
  induction texts with
  | nil => exact absurd rfl some
  | cons t rest ih =>
    obtain ⟨⟨is, here⟩, later⟩ := List.forall_mem_cons.mp readable
    rw [List.map_cons, here.itemsOf_eq]
    cases rest with
    | nil => exact here
    | cons u rest =>
      have whole := here.conjoined .and (ih (List.cons_ne_nil _ _) later)
      rwa [join_and] at whole

/-- Texts that hold together are conditions of their own between ANDs. -/
theorem readsTight_join (each : ∀ t ∈ texts, ReadsTight table t) :
    ReadsTight table (Text.join " AND " texts) ∧
      ∀ atomic, Holds atomic (expandWith table (Text.join " AND " texts)) ↔
        ∀ t ∈ texts, Holds atomic (expandWith table t) := by
  have reads : ∀ t ∈ texts, Reads table t (itemsOf table t) ∧ itemsOf table t ≠ [] ∧
      Tight (itemsOf table t) := by
    intro t mem
    obtain ⟨is, reads, rest⟩ := each t mem
    rw [reads.itemsOf_eq]
    exact ⟨reads, rest⟩
  have whole := reads_join some fun t mem => ⟨_, (reads t mem).1⟩
  have given : texts.map (itemsOf table) ≠ [] := by simpa using some
  have nonempty := conjoin_ne_nil given (List.forall_mem_map.mpr fun t mem => (reads t mem).2.1)
  have tight : ∀ a ∈ texts.map (itemsOf table), Tight a :=
    List.forall_mem_map.mpr fun t mem => (reads t mem).2.2
  refine ⟨⟨_, whole, nonempty, tight_conjoin tight⟩, fun atomic => ?_⟩
  rw [whole.holds_iff, holds_conjoin_tight atomic given tight, List.forall_mem_map]
  exact forall₂_congr fun t mem => ((reads t mem).1.holds_iff atomic).symm

end Join

end Texts

theorem reads_rawConditions {rs : List Statement} (raw : ∀ r ∈ rs, ∃ is, Reads table r.sql is)
    {a : String} {is : List Item} (reads : Reads table a is) :
    ∃ js, Reads table (a ++ String.join (rs.map fun r => " AND " ++ r.sql)) js := by
  induction rs generalizing a is with
  | nil => exact ⟨is, by simpa using reads⟩
  | cons r rest ih =>
    obtain ⟨js, here⟩ := raw r List.mem_cons_self
    have text : a ++ (" " ++ Conjunction.and.sql ++ " " ++ r.sql) = a ++ (" AND " ++ r.sql) := by
      simp [Conjunction.sql]
    have both := reads.conjoined .and here
    rw [text] at both
    obtain ⟨ks, whole⟩ := ih (fun x mem => raw x (List.mem_cons_of_mem _ mem)) both
    exact ⟨ks, by simpa [String.join_cons, String.append_assoc] using whole⟩

theorem Predicate.Plain.render {p : Predicate} (plain : p.Plain table d) {n m : Nat} {s : Statement}
    (rendered : p.render d n = (.ok s, m)) : ReadsTight table s.sql := by
  unfold Predicate.render at rendered
  cases found : p.template d with
  | error e =>
    rw [found] at rendered
    cases rendered
  | ok t =>
    have text : s.sql = (Template.fillPieces n t.pieces).1.sql := by
      rw [found] at rendered
      cases rendered
      rfl
    rw [text]
    unfold Predicate.template at found
    cases comparison : p.base d with
    | error e => simp [comparison, bind, Except.bind] at found
    | ok t' =>
      have base := plain.base comparison n
      simp only [comparison, bind, Except.bind] at found
      split at found <;> cases found
      · exact base
      · obtain ⟨is, reads, -⟩ := base
        obtain ⟨js, whole⟩ := reads_rawConditions plain.rawConditions reads
        have grouped := ReadsTight.parenthesized whole
        simpa [Template.fillPieces, Template.sql_fillPieces_append, String.append_assoc]
          using grouped

namespace Clauses

theorem readsTight_renderPredicates {ps : List Predicate} (plain : ∀ p ∈ ps, p.Plain table d)
    {n m : Nat} {parts : List (Conjunction × Statement)}
    (rendered : renderPredicates d ps n = (.ok parts, m)) :
    parts.map Prod.fst = ps.map (·.conjunction) ∧ ∀ e ∈ parts, ReadsTight table e.2.sql := by
  induction ps generalizing n parts with
  | nil =>
    cases rendered
    exact ⟨rfl, nofun⟩
  | cons p rest ih =>
    obtain ⟨s, k, first, rendered⟩ := Effect.of_bind_ok rendered
    obtain ⟨ss, k', later, rendered⟩ := Effect.of_bind_ok rendered
    cases rendered
    obtain ⟨conjunctions, each⟩ := ih (fun q mem => plain q (List.mem_cons_of_mem _ mem)) later
    constructor
    · exact congrArg (p.conjunction :: ·) conjunctions
    · exact List.forall_mem_cons.mpr ⟨(plain p List.mem_cons_self).render first, each⟩

/-- Without an OR the chain goes on as tightly as it began. -/
theorem reads_chain_from {rest : List (Conjunction × String)}
    (each : ∀ e ∈ rest, ReadsTight table e.2)
    {s : String} {is : List Item} (reads : Reads table s is) (nonempty : is ≠ []) :
    ∃ js, Reads table (s ++ String.join (rest.map fun e => " " ++ e.1.sql ++ " " ++ e.2)) js ∧
      js ≠ [] ∧ (Tight is → (rest.any fun e => e.1 == .or) = false → Tight js) := by
  induction rest generalizing s is with
  | nil => exact ⟨is, by simpa using reads, nonempty, fun tight _ => tight⟩
  | cons e rest ih =>
    obtain ⟨js, here, -, tight'⟩ := each e List.mem_cons_self
    have both := reads.conjoined e.1 here
    obtain ⟨ks, whole, nonempty', later⟩ :=
      ih (fun x mem => each x (List.mem_cons_of_mem _ mem)) both (by simp)
    refine ⟨ks, by simpa [String.join_cons, String.append_assoc] using whole, nonempty', ?_⟩
    intro tight none
    simp only [List.any_cons, Bool.or_eq_false_iff] at none
    obtain ⟨here, none⟩ := none
    refine later ?_ none
    cases conjunction : e.1 with
    | and => exact tight.and tight'
    | or => simp [conjunction] at here

theorem reads_chain {parts : List (Conjunction × String)} (some : parts ≠ [])
    (each : ∀ e ∈ parts, ReadsTight table e.2) :
    ∃ is, Reads table (chain parts) is ∧ is ≠ [] ∧ (hasOr parts = false → Tight is) := by
  obtain ⟨⟨c, s⟩, rest, rfl⟩ := List.exists_cons_of_ne_nil some
  obtain ⟨is, reads, nonempty, tight⟩ := each _ List.mem_cons_self
  obtain ⟨js, whole, nonempty', tight'⟩ :=
    reads_chain_from (fun e mem => each e (List.mem_cons_of_mem _ mem)) reads nonempty
  exact ⟨js, whole, nonempty', tight' tight⟩

/-- The runs of fragments between ORs, the first of them begun. -/
def runsFrom (run : List String) : List (Conjunction × String) → List (List String)
  | [] => [run]
  | (.and, s) :: rest => runsFrom (run ++ [s]) rest
  | (.or, s) :: rest => run :: runsFrom [s] rest

def runs : List (Conjunction × String) → List (List String)
  | [] => []
  | (_, s) :: rest => runsFrom [s] rest

theorem holds_runsFrom (atomic : List Item → Bool) {rest : List (Conjunction × String)}
    (each : ∀ e ∈ rest, ReadsTight table e.2) {s : String} {run : List String}
    (tight : ReadsTight table s)
    (truth : Holds atomic (expandWith table s) ↔
      ∀ t ∈ run, Holds atomic (expandWith table t)) :
    Holds atomic
        (expandWith table (s ++ String.join (rest.map fun e => " " ++ e.1.sql ++ " " ++ e.2))) ↔
      ∃ r ∈ runsFrom run rest, ∀ t ∈ r, Holds atomic (expandWith table t) := by
  induction rest generalizing s run with
  | nil => simpa [runsFrom] using truth
  | cons e rest ih =>
    obtain ⟨is, reads, nonempty, noOr⟩ := tight
    have here := each e List.mem_cons_self
    have later : ∀ x ∈ rest, ReadsTight table x.2 := by
      intro x mem
      exact each x (List.mem_cons_of_mem _ mem)
    obtain ⟨js, reads', nonempty', noOr'⟩ := here
    obtain ⟨c, t⟩ := e
    cases c with
    | and =>
      -- The run goes on: what was read so far, and one fragment more, is one tight condition.
      have both := reads.conjoined .and reads'
      have more : ReadsTight table (s ++ (" " ++ Conjunction.and.sql ++ " " ++ t)) :=
        ⟨_, both, by simp, noOr.and noOr'⟩
      have truth' :
          Holds atomic (expandWith table (s ++ (" " ++ Conjunction.and.sql ++ " " ++ t))) ↔
            ∀ x ∈ run ++ [t], Holds atomic (expandWith table x) := by
        rw [both.holds_iff, Conjunction.item, Precedence.holds_and atomic noOr noOr',
          Bool.and_eq_true, ← reads.holds_iff, ← reads'.holds_iff, truth,
          List.forall_mem_append,
          List.forall_mem_singleton]
      have whole := ih later more truth'
      simpa [runsFrom, String.join_cons, String.append_assoc] using whole
    | or =>
      -- A run ends: OR binds less than all that follows it.
      obtain ⟨ks, rest', -, -⟩ := reads_chain_from later reads' nonempty'
      have both := reads.conjoined .or rest'
      have alone : Holds atomic (expandWith table t) ↔
          ∀ x ∈ [t], Holds atomic (expandWith table x) := by
        rw [List.forall_mem_singleton]
      have second := ih later ⟨js, reads', nonempty', noOr'⟩ alone
      have whole : Holds atomic (expandWith table (s ++ (" " ++ Conjunction.or.sql ++ " " ++
          (t ++ String.join (rest.map fun e => " " ++ e.1.sql ++ " " ++ e.2))))) ↔
          (∀ x ∈ run, Holds atomic (expandWith table x)) ∨
            ∃ r ∈ runsFrom [t] rest, ∀ x ∈ r, Holds atomic (expandWith table x) := by
        rw [both.holds_iff, Conjunction.item, Precedence.holds_or, Bool.or_eq_true,
          ← reads.holds_iff, ← rest'.holds_iff, truth, second]
      simpa [runsFrom, String.join_cons, String.append_assoc] using whole

/-- A chain holds when all fragments of some run do. -/
theorem holds_chain (atomic : List Item → Bool) {parts : List (Conjunction × String)}
    (some : parts ≠ []) (each : ∀ e ∈ parts, ReadsTight table e.2) :
    Holds atomic (expandWith table (chain parts)) ↔
      ∃ r ∈ runs parts, ∀ t ∈ r, Holds atomic (expandWith table t) := by
  obtain ⟨⟨c, s⟩, rest, rfl⟩ := List.exists_cons_of_ne_nil some
  have first := each _ List.mem_cons_self
  exact holds_runsFrom atomic (fun e mem => each e (List.mem_cons_of_mem _ mem)) first (by simp)

theorem chain_visible {parts : List (Conjunction × String)} (some : parts ≠ [])
    (each : ∀ e ∈ parts, ReadsTight table e.2) : (chain parts).isEmpty = false := by
  obtain ⟨is, reads, nonempty, -⟩ := reads_chain some each
  by_contra empty
  rw [Bool.not_eq_false, String.isEmpty_iff] at empty
  rw [empty] at reads
  exact nonempty (Option.some.inj (reads.read.symm.trans Reads.empty.read))

theorem whereParts_isEmpty {parts : List (Conjunction × String)} {raw : List Statement}
    (each : ∀ e ∈ parts, ReadsTight table e.2) :
    (whereParts parts raw).isEmpty = (parts.isEmpty && raw.isEmpty) := by
  cases parts with
  | nil => cases raw <;> rfl
  | cons e rest =>
    have visible := chain_visible (List.cons_ne_nil e rest) each
    simp [whereParts, visible]

/-- The chain of the predicates holds in WHERE when it holds on its own, and every raw condition
holds there. -/
theorem holds_whereParts {parts : List (Conjunction × String)} {raw : List Statement}
    (each : ∀ e ∈ parts, ReadsTight table e.2)
    (readable : ∀ r ∈ raw, ∃ is, Reads table r.sql is) (some : parts ≠ [] ∨ raw ≠ []) :
    ReadsTight table (Text.join " AND " (whereParts parts raw)) ∧
      ∀ atomic, Holds atomic (expandWith table (Text.join " AND " (whereParts parts raw))) ↔
        (parts ≠ [] → Holds atomic (expandWith table (chain parts))) ∧
          ∀ r ∈ raw, Holds atomic (expandWith table r.sql) := by
  have grouped : ∀ t ∈ raw.map fun r => "(" ++ r.sql ++ ")", ReadsTight table t := by
    intro t mem
    obtain ⟨r, inside, rfl⟩ := List.mem_map.mp mem
    obtain ⟨is, reads⟩ := readable r inside
    exact .parenthesized reads
  have rawTruth (atomic : List Item → Bool) :
      (∀ t ∈ raw.map fun r => "(" ++ r.sql ++ ")", Holds atomic (expandWith table t)) ↔
        ∀ r ∈ raw, Holds atomic (expandWith table r.sql) := by
    rw [List.forall_mem_map]
    refine forall₂_congr fun r inside => ?_
    obtain ⟨is, reads⟩ := readable r inside
    exact reads.holds_parenthesized atomic
  by_cases none : parts = []
  · subst none
    have raws : raw ≠ [] := some.resolve_left fun h => h rfl
    have shape : whereParts [] raw = raw.map fun r => "(" ++ r.sql ++ ")" := rfl
    obtain ⟨tight, truth⟩ := readsTight_join (by simpa using raws) grouped
    rw [shape]
    refine ⟨tight, fun atomic => ?_⟩
    rw [truth, rawTruth]
    simp
  · obtain ⟨is, reads, nonempty, tight⟩ := reads_chain none each
    have visible := chain_visible none each
    -- An OR in the chain brings the parentheses; without one the chain is tight by itself.
    have first :
        ReadsTight table (if hasOr parts then "(" ++ chain parts ++ ")" else chain parts) := by
      split
      · exact .parenthesized reads
      · next free => exact ⟨is, reads, nonempty, tight (by simpa using free)⟩
    have firstTruth (atomic : List Item → Bool) :
        Holds atomic (expandWith table
            (if hasOr parts then "(" ++ chain parts ++ ")" else chain parts)) ↔
          Holds atomic (expandWith table (chain parts)) := by
      split
      · exact reads.holds_parenthesized atomic
      · exact Iff.rfl
    have shape : whereParts parts raw =
        (if hasOr parts then "(" ++ chain parts ++ ")" else chain parts) ::
          raw.map fun r => "(" ++ r.sql ++ ")" := by
      simp [whereParts, visible]
    obtain ⟨whole, truth⟩ :=
      readsTight_join (List.cons_ne_nil _ _) (List.forall_mem_cons.mpr ⟨first, grouped⟩)
    rw [shape]
    refine ⟨whole, fun atomic => ?_⟩
    rw [truth, List.forall_mem_cons, firstTruth, rawTruth]
    simp [none]

theorem holds_having {raw : List Statement} (readable : ∀ r ∈ raw, ∃ is, Reads table r.sql is)
    (some : raw ≠ []) :
    ReadsTight table (Text.join " AND " (raw.map fun r => "(" ++ r.sql ++ ")")) ∧
      ∀ atomic,
        Holds atomic
          (expandWith table (Text.join " AND " (raw.map fun r => "(" ++ r.sql ++ ")"))) ↔
          ∀ r ∈ raw, Holds atomic (expandWith table r.sql) := by
  have none : ∀ e ∈ ([] : List (Conjunction × String)), ReadsTight table e.2 := nofun
  obtain ⟨tight, truth⟩ := holds_whereParts none readable (.inr some)
  refine ⟨tight, fun atomic => (truth atomic).trans ?_⟩
  simp

def partTexts (parts : List (Conjunction × Statement)) : List (Conjunction × String) :=
  parts.map fun e => (e.1, e.2.sql)

/-- The condition of WHERE before references are expanded. -/
def whereBodySql (c : Clauses) (parts : List (Conjunction × Statement)) : String :=
  Text.join " AND " (whereParts (partTexts parts) c.rawWhere)

def havingBodySql (c : Clauses) : String :=
  Text.join " AND " (c.rawHaving.map fun r => "(" ++ r.sql ++ ")")

def optional (absent : Bool) (keyword body : String) : String :=
  if absent then "" else " " ++ keyword ++ " " ++ body

def whereSql (c : Clauses) (parts : List (Conjunction × Statement)) : String :=
  optional (parts.isEmpty && c.rawWhere.isEmpty) "WHERE" (c.whereBodySql parts)

/-- A statement around its conditions, clause by clause. -/
def layout (c : Clauses) (d : Dialect) (source : String) (parts : List (Conjunction × Statement)) :
    String :=
  c.expandRefs (c.head ++ source ++ c.joinsSql) ++
    optional (parts.isEmpty && c.rawWhere.isEmpty) "WHERE" (c.expandRefs (c.whereBodySql parts)) ++
    c.expandRefs c.groupSql ++
    optional c.rawHaving.isEmpty "HAVING" (c.expandRefs c.havingBodySql) ++
    c.expandRefs (c.orderSql ++ c.limitSql d)

/-- Conditions and values that stay what they are wherever they are put. -/
structure Sound (c : Clauses) (d : Dialect) : Prop where
  predicates : ∀ p ∈ c.predicates, p.Plain c.tableRef d
  rawWhere : ∀ r ∈ c.rawWhere, ∃ is, Reads c.tableRef r.sql is
  rawHaving : ∀ r ∈ c.rawHaving, ∃ is, Reads c.tableRef r.sql is

/-- What stands around the conditions leaves no quote open. -/
structure Framed (c : Clauses) (source : String) : Prop where
  before : Closed (c.head ++ source ++ c.joinsSql).toList
  groups : Closed c.groupSql.toList

/-- Nothing, or something that a blank keeps apart from what is before it. -/
def Apart (s : String) : Prop := s = "" ∨ ∃ rest, s = " " ++ rest

theorem expandWith_apart {a b : String} (closed : Closed a.toList) (apart : Apart b) :
    expandWith table (a ++ b) = expandWith table a ++ expandWith table b := by
  rcases apart with rfl | ⟨rest, rfl⟩
  · rw [TableRef.expandWith_empty, String.append_empty, String.append_empty]
  · have alone : expandWith table ("" ++ " " ++ rest) = "" ++ " " ++ expandWith table rest :=
      TableRef.expandWith_blank TableRef.closed_nil
    rw [String.empty_append] at alone
    rw [alone, ← String.append_assoc, TableRef.expandWith_blank closed, String.append_assoc]

theorem closed_apart {a b : String} (first : Closed a.toList) (second : Closed b.toList)
    (apart : Apart b) : Closed (a ++ b).toList := by
  rcases apart with rfl | ⟨rest, rfl⟩
  · rwa [String.append_empty]
  · have cut : Closed ("" ++ " " ++ rest).toList ↔ Closed rest.toList :=
      TableRef.closed_blank TableRef.closed_nil
    rw [← String.append_assoc]
    exact (TableRef.closed_blank first).mpr (cut.mp (by rwa [String.empty_append]))

theorem Apart.append {a b : String} (first : Apart a) (second : Apart b) : Apart (a ++ b) := by
  rcases first with rfl | ⟨rest, rfl⟩
  · rwa [String.empty_append]
  · exact .inr ⟨rest ++ b, String.append_assoc⟩

section Optional

variable (absent : Bool) (keyword body : String)

theorem apart_optional : Apart (optional absent keyword body) := by
  unfold optional
  split
  · exact .inl rfl
  · refine .inr ⟨keyword ++ " " ++ body, ?_⟩
    simp only [String.append_assoc]

variable {absent keyword body}

theorem expandWith_optional (braceless : '\x7b' ∉ (" " ++ keyword).toList)
    (closed : Closed (" " ++ keyword).toList) :
    expandWith table (optional absent keyword body) =
      optional absent keyword (expandWith table body) := by
  have fixed : expandWith table (" " ++ keyword) = " " ++ keyword :=
    TableRef.expandWith_of_braceless braceless
  unfold optional
  split
  · exact TableRef.expandWith_empty
  · rw [TableRef.expandWith_blank closed, fixed]

theorem closed_optional (closed : Closed (" " ++ keyword).toList)
    (inside : absent = false → Closed body.toList) :
    Closed (optional absent keyword body).toList := by
  unfold optional
  split
  · exact TableRef.closed_nil
  · next present => exact (TableRef.closed_blank closed).mpr (inside (by simpa using present))

end Optional

section Layout

variable (c : Clauses) {parts : List (Conjunction × Statement)} {source : String}

theorem whereSql_eq : c.whereSql parts =
    if parts.isEmpty && c.rawWhere.isEmpty then "" else " WHERE " ++ c.whereBodySql parts := rfl

theorem groupSql_eq :
    c.groupSql = optional c.groupBy.isEmpty "GROUP BY" (Text.join ", " c.groupBy) := rfl

theorem havingSql_eq : c.havingSql = optional c.rawHaving.isEmpty "HAVING" c.havingBodySql := rfl

theorem orderSql_eq : c.orderSql = optional c.orderBy.isEmpty "ORDER BY"
    (Text.join ", " (c.orderBy.entries.map fun e => e.1 ++ " " ++ e.2.sql)) := rfl

theorem apart_groupSql : Apart c.groupSql := c.groupSql_eq ▸ apart_optional _ _ _

theorem apart_havingSql : Apart c.havingSql := c.havingSql_eq ▸ apart_optional _ _ _

theorem apart_orderSql : Apart c.orderSql := c.orderSql_eq ▸ apart_optional _ _ _

theorem apart_limitSql (d : Dialect) : Apart (c.limitSql d) := by
  unfold limitSql
  generalize d.limitOffset _ c.offset = tail
  by_cases none : tail.isEmpty
  · exact .inl (if_pos none)
  · exact .inr ⟨tail, if_neg none⟩

variable {c}

theorem expandRefs_text (framed : c.Framed source) (inWhere : Closed (c.whereSql parts).toList)
    (inHaving : Closed c.havingSql.toList) (d : Dialect) :
    c.expandRefs (c.text d source (c.whereSql parts)) = c.layout d source parts := by
  have condition : Apart (c.whereSql parts) := apart_optional _ _ _
  -- Each clause begins apart from what is before it, and no quote is open there.
  have first := framed.before
  have second := closed_apart first inWhere condition
  have third := closed_apart second framed.groups c.apart_groupSql
  have fourth := closed_apart third inHaving c.apart_havingSql
  have clauses : c.text d source (c.whereSql parts) =
      c.head ++ source ++ c.joinsSql ++ c.whereSql parts ++ c.groupSql ++ c.havingSql ++
        (c.orderSql ++ c.limitSql d) := by
    simp only [text, head, String.append_assoc]
  rw [clauses, expandRefs, expandWith_apart fourth (c.apart_orderSql.append (c.apart_limitSql d)),
    expandWith_apart third c.apart_havingSql, expandWith_apart second c.apart_groupSql,
    expandWith_apart first condition, whereSql, expandWith_optional (by decide)
      (by decide), havingSql_eq,
    expandWith_optional (by decide) (by decide)]
  rfl

end Layout

/-- What is rendered for the source of a query. -/
def sourceStatement (c : Clauses) (d : Dialect) : Source → Draw Statement
  | .none => throw (.configuration .noSource)
  | .table name correlation => return ⟨c.tableRef name ++ " " ++ correlation, ∅⟩
  | .derived inner source correlation => do
    let s ← renderOver d inner source
    return ⟨"(" ++ s.sql ++ ") " ++ correlation, s.params⟩

theorem renderOver_eq (c : Clauses) (d : Dialect) (source : Source) (n : Nat) :
    renderOver d c source n = (c.sourceStatement d source >>= c.assemble d) n := by
  cases source with
  | none => rfl
  | table name correlation => rfl
  | derived inner source correlation =>
    rw [renderOver, sourceStatement, bind_assoc]
    rfl

/-- A statement carries the conditions of its query: WHERE is the chain of what was rendered for the
predicates and each raw condition, and HAVING is each of its own. The chain is read by itself, as
runs of fragments between ORs. -/
structure Carries (c : Clauses) (d : Dialect) (source : String)
    (parts : List (Conjunction × Statement)) (s : Statement) : Prop where
  text : s.sql = c.expandRefs (c.text d source (c.whereSql parts))
  clauses : c.Framed source → s.sql = c.layout d source parts
  chainHolds : parts ≠ [] →
    ∀ atomic, Holds atomic (c.expandRefs (chain (partTexts parts))) ↔
    ∃ run ∈ runs (partTexts parts), ∀ t ∈ run, Holds atomic (c.expandRefs t)
  whereReads : parts ≠ [] ∨ c.rawWhere ≠ [] →
    ∃ is, Precedence.read (c.expandRefs (c.whereBodySql parts)) = some is
  whereHolds : parts ≠ [] ∨ c.rawWhere ≠ [] → ∀ atomic,
    Holds atomic (c.expandRefs (c.whereBodySql parts)) ↔
      (parts ≠ [] → Holds atomic (c.expandRefs (chain (partTexts parts)))) ∧
        ∀ r ∈ c.rawWhere, Holds atomic (c.expandRefs r.sql)
  havingReads : c.rawHaving ≠ [] →
    ∃ is, Precedence.read (c.expandRefs c.havingBodySql) = some is
  havingHolds : c.rawHaving ≠ [] → ∀ atomic,
    Holds atomic (c.expandRefs c.havingBodySql) ↔
      ∀ r ∈ c.rawHaving, Holds atomic (c.expandRefs r.sql)

section Carries

variable {c : Clauses} {parts : List (Conjunction × Statement)} {n m : Nat} {s : Statement}

theorem Sound.fragments (sound : c.Sound d)
    (rendered : renderPredicates d c.predicates n = (.ok parts, m)) :
    ∀ e ∈ partTexts parts, ReadsTight c.tableRef e.2 :=
  List.forall_mem_map.mpr (readsTight_renderPredicates sound.predicates rendered).2

theorem Sound.whereBodySql (sound : c.Sound d)
    (rendered : renderPredicates d c.predicates n = (.ok parts, m))
    (some : parts ≠ [] ∨ c.rawWhere ≠ []) :
    ReadsTight c.tableRef (c.whereBodySql parts) ∧ ∀ atomic,
      Holds atomic (c.expandRefs (c.whereBodySql parts)) ↔
        (parts ≠ [] → Holds atomic (c.expandRefs (chain (partTexts parts)))) ∧
          ∀ r ∈ c.rawWhere, Holds atomic (c.expandRefs r.sql) := by
  have same : partTexts parts = [] ↔ parts = [] := List.map_eq_nil_iff
  have some' : partTexts parts ≠ [] ∨ c.rawWhere ≠ [] := by rwa [ne_eq, same]
  have whole := holds_whereParts (sound.fragments rendered) sound.rawWhere some'
  rw [ne_eq, same] at whole
  exact whole

/-- The text of a statement, when every fragment of a predicate says something. -/
theorem assemble_sql (sound : c.Sound d)
    (rendered : renderPredicates d c.predicates n = (.ok parts, m)) (source : Statement) :
    ∃ params, c.assemble d source n =
      (.ok ⟨c.expandRefs (c.text d source.sql (c.whereSql parts)), params⟩, m) := by
  have empty : (whereParts (partTexts parts) c.rawWhere).isEmpty =
      (parts.isEmpty && c.rawWhere.isEmpty) := by
    have none : (partTexts parts).isEmpty = parts.isEmpty := List.isEmpty_map
    rw [whereParts_isEmpty (sound.fragments rendered), none]
  have body : c.whereBody d n = (.ok (if parts.isEmpty && c.rawWhere.isEmpty then none else
      some ⟨c.whereBodySql parts,
        mergeAll (mergeAll ∅ (parts.map Prod.snd)) c.rawWhere⟩), m) := by
    rw [partTexts] at empty
    rw [whereBody, Effect.bind_ok _ rendered]
    simp only [empty]
    split <;> rfl
  rw [assemble, Effect.bind_ok _ body, whereSql_eq]
  split <;> exact ⟨_, rfl⟩

theorem Sound.carries (sound : c.Sound d) {source : Statement}
    (assembled : c.assemble d source n = (.ok s, m)) :
    ∃ parts, renderPredicates d c.predicates n = (.ok parts, m) ∧
      c.Carries d source.sql parts s := by
  rcases rendered : renderPredicates d c.predicates n with ⟨e | parts, k⟩
  · have failed : c.whereBody d n = (.error e, k) := Effect.bind_error _ rendered
    rw [assemble, Effect.bind_error _ failed] at assembled
    cases assembled
  · obtain ⟨params, whole⟩ := assemble_sql sound rendered source
    rw [whole, Prod.mk.injEq, Except.ok.injEq] at assembled
    obtain ⟨rfl, rfl⟩ := assembled
    have inWhere := sound.whereBodySql rendered
    have inHaving := holds_having sound.rawHaving
    have readable {a : String} (tight : ReadsTight c.tableRef a) :
        Closed a.toList ∧ ∃ is, Precedence.read (c.expandRefs a) = some is := by
      obtain ⟨is, reads, -⟩ := tight
      exact ⟨reads.closed, is, reads.read⟩
    refine ⟨parts, rfl, ?_⟩
    constructor
    · rfl
    · intro framed
      have closedWhere : Closed (c.whereSql parts).toList := by
        refine closed_optional (by decide) fun present => (readable (inWhere ?_).1).1
        rwa [Bool.and_eq_false_iff, List.isEmpty_eq_false_iff, List.isEmpty_eq_false_iff] at present
      have closedHaving : Closed c.havingSql.toList := by
        rw [havingSql_eq]
        refine closed_optional (by decide) fun present => (readable (inHaving ?_).1).1
        rwa [List.isEmpty_eq_false_iff] at present
      exact expandRefs_text framed closedWhere closedHaving d
    · intro some atomic
      exact holds_chain atomic (by simpa [partTexts] using some) (sound.fragments rendered)
    · exact fun some => (readable (inWhere some).1).2
    · exact fun some => (inWhere some).2
    · exact fun some => (readable (inHaving some).1).2
    · exact fun some => (inHaving some).2

end Carries

end Clauses

theorem Query.render_carries {q : Query} (sound : q.Sound d) {n m : Nat} {s : Statement}
    (rendered : q.render d n = (.ok s, m)) :
    ∃ source k parts, q.sourceStatement d q.source n = (.ok source, k) ∧
      Clauses.renderPredicates d q.predicates k = (.ok parts, m) ∧
        q.Carries d source.sql parts s := by
  rw [Query.render, Clauses.renderOver_eq] at rendered
  obtain ⟨source, k, given, assembled⟩ := Effect.of_bind_ok rendered
  obtain ⟨parts, predicates, carries⟩ := sound.carries assembled
  exact ⟨source, k, parts, given, predicates, carries⟩

end Reports.Sql
