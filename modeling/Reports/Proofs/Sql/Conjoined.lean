import Reports.Proofs.Sql.Where

/-! Conditions with AND between them and no parentheses around them. An OR in one of them binds less
than these ANDs: its last alternative goes on with the first one of the next condition. -/
namespace Reports.Sql

namespace Precedence

/-- The alternatives of a condition: what stands between its ORs. -/
def alternatives (is : List Item) : List (List Item) := is.splitOnP Item.isOr

def prepend {α : Type} : List α → List (List α) → List (List α)
  | [], runs => runs
  | [a], [] => [[a]]
  | [a], run :: runs => (a :: run) :: runs
  | a :: b :: more, runs => [a] :: prepend (b :: more) runs

/-- What ANDs hold together when the alternatives of conditions are written one after the other. -/
def spans {α : Type} (conditions : List (List α)) : List (List α) := conditions.foldr prepend []

section Runs

variable {α : Type} {alts : List α} {runs : List (List α)} {conditions : List (List α)}

theorem mem_of_mem_prepend {run : List α} (inside : run ∈ prepend alts runs) {a : α}
    (mem : a ∈ run) :
    a ∈ alts ∨ ∃ run' ∈ runs, a ∈ run' := by
  fun_induction prepend alts runs with
  | case1 runs => exact .inr ⟨run, inside, mem⟩
  | case2 b =>
    rw [List.mem_singleton] at inside
    subst inside
    exact .inl mem
  | case3 b first runs =>
    rcases List.mem_cons.mp inside with rfl | later
    · rcases List.mem_cons.mp mem with rfl | mem
      · exact .inl List.mem_cons_self
      · exact .inr ⟨first, List.mem_cons_self, mem⟩
    · exact .inr ⟨run, List.mem_cons_of_mem _ later, mem⟩
  | case4 b c more runs ih =>
    rcases List.mem_cons.mp inside with rfl | later
    · rw [List.mem_singleton] at mem
      subst mem
      exact .inl List.mem_cons_self
    · exact (ih later).imp_left (List.mem_cons_of_mem _)

theorem mem_of_mem_spans {run : List α} (inside : run ∈ spans conditions) {a : α}
    (mem : a ∈ run) :
    ∃ alts ∈ conditions, a ∈ alts := by
  induction conditions generalizing run with
  | nil => cases inside
  | cons alts rest ih =>
    rcases mem_of_mem_prepend inside mem with here | ⟨run', later, mem⟩
    · exact ⟨alts, List.mem_cons_self, here⟩
    · obtain ⟨alts', listed, mem⟩ := ih later mem
      exact ⟨alts', List.mem_cons_of_mem _ listed, mem⟩

theorem prepend_ne_nil (some : alts ≠ []) (runs : List (List α)) :
    prepend alts runs ≠ [] ∧
    ((∀ run ∈ runs, run ≠ []) → ∀ run ∈ prepend alts runs, run ≠ []) := by
  fun_induction prepend alts runs with
  | case1 => exact absurd rfl some
  | case2 b => simp
  | case3 b first runs => simp
  | case4 b c more runs ih => simpa using (ih (by simp)).2

theorem spans_ne_nil (given : conditions ≠ []) (some : ∀ alts ∈ conditions, alts ≠ []) :
    spans conditions ≠ [] ∧ ∀ run ∈ spans conditions, run ≠ [] := by
  induction conditions with
  | nil => exact absurd rfl given
  | cons alts rest ih =>
    obtain ⟨here, later⟩ := List.forall_mem_cons.mp some
    obtain ⟨runs, each⟩ := prepend_ne_nil here (spans rest)
    refine ⟨runs, each ?_⟩
    cases rest with
    | nil => exact nofun
    | cons alts' rest => exact (ih (List.cons_ne_nil _ _) later).2

theorem exists_prepend {valid : α → Prop} (next : runs ≠ [] →
    ∃ run ∈ runs, ∀ a ∈ run, valid a)
    (here : ∃ a ∈ alts, valid a) : ∃ run ∈ prepend alts runs, ∀ a ∈ run, valid a := by
  fun_induction prepend alts runs with
  | case1 => simp at here
  | case2 b => simpa using here
  | case3 b first runs =>
    have last : valid b := by simpa using here
    obtain ⟨run, inside, all⟩ := next (List.cons_ne_nil _ _)
    rcases List.mem_cons.mp inside with rfl | later
    · exact ⟨b :: run, List.mem_cons_self, List.forall_mem_cons.mpr ⟨last, all⟩⟩
    · exact ⟨run, List.mem_cons_of_mem _ later, all⟩
  | case4 b c more runs ih =>
    -- Only the last alternative needs what follows; the others are runs of their own.
    rcases (List.exists_mem_cons_iff valid b _).mp here with alone | other
    · exact ⟨[b], List.mem_cons_self, by simpa using alone⟩
    · obtain ⟨run, inside, all⟩ := ih next other
      exact ⟨run, List.mem_cons_of_mem _ inside, all⟩

theorem exists_run (given : conditions ≠ []) {valid : α → Prop}
    (each : ∀ alts ∈ conditions, ∃ a ∈ alts, valid a) :
    ∃ run ∈ spans conditions, ∀ a ∈ run, valid a := by
  induction conditions with
  | nil => exact absurd rfl given
  | cons alts rest ih =>
    obtain ⟨here, later⟩ := List.forall_mem_cons.mp each
    refine exists_prepend (fun some => ih ?_ later) here
    rintro rfl
    exact some rfl

end Runs

variable {is : List Item} {conditions : List (List Item)}

theorem alternatives_ne_nil (is : List Item) : alternatives is ≠ [] := List.splitOnP_ne_nil _ _

theorem tight_of_mem_alternatives {a : List Item} (mem : a ∈ alternatives is) : Tight a := by
  induction is generalizing a with
  | nil =>
    rw [alternatives, List.splitOnP_nil, List.mem_singleton] at mem
    subst mem
    exact nofun
  | cons i rest ih =>
    rw [alternatives, List.splitOnP_cons_eq_if_modifyHead] at mem
    split at mem
    · rcases List.mem_cons.mp mem with rfl | later
      · exact nofun
      · exact ih later
    · next other =>
      obtain ⟨b, more, parts⟩ := List.exists_cons_of_ne_nil (alternatives_ne_nil rest)
      have head : rest.splitOnP Item.isOr = b :: more := parts
      rw [head, List.modifyHead_cons] at mem
      rcases List.mem_cons.mp mem with rfl | later
      · exact List.forall_mem_cons.mpr
          ⟨by simpa using other, ih (parts ▸ List.mem_cons_self)⟩
      · exact ih (parts ▸ List.mem_cons_of_mem _ later)

theorem alternatives_and (is : List Item) {js : List Item} {run : List (List Item)}
    {runs : List (List (List Item))} (some : run ≠ [])
    (rest : alternatives js = (run :: runs).map conjoin) :
    alternatives (is ++ .and :: js) = (prepend (alternatives is) (run :: runs)).map conjoin := by
  obtain ⟨first, others, rfl⟩ := List.exists_cons_of_ne_nil some
  induction is with
  | nil =>
    have step : alternatives (.and :: js) = (alternatives js).modifyHead (.and :: ·) := by
      rw [alternatives, List.splitOnP_cons_eq_if_modifyHead]
      rfl
    rw [List.nil_append, step, rest]
    rfl
  | cons i is ih =>
    obtain ⟨b, more, parts⟩ := List.exists_cons_of_ne_nil (alternatives_ne_nil is)
    have cut (tail : List Item) : alternatives (i :: tail) =
        if i.isOr then [] :: alternatives tail else (alternatives tail).modifyHead (i :: ·) :=
      List.splitOnP_cons_eq_if_modifyHead ..
    rw [List.cons_append, cut, cut, ih, parts]
    split
    · rfl
    · -- The item belongs to the first alternative, a run of its own unless it is the last.
      cases more <;> rfl

theorem alternatives_conjoin (given : conditions ≠ []) :
    alternatives (conjoin conditions) = (spans (conditions.map alternatives)).map conjoin := by
  induction conditions with
  | nil => exact absurd rfl given
  | cons is rest ih =>
    cases rest with
    | nil =>
      have alone (alts : List (List Item)) : (prepend alts []).map conjoin = alts := by
        induction alts with
        | nil => rfl
        | cons a more ih =>
          cases more with
          | nil => rfl
          | cons b more => exact congrArg (a :: ·) ih
      exact (alone _).symm
    | cons js rest =>
      have known := ih (List.cons_ne_nil _ _)
      have listed : (js :: rest).map alternatives ≠ [] := by simp
      obtain ⟨runs, each⟩ :=
        spans_ne_nil listed (List.forall_mem_map.mpr fun ks _ => alternatives_ne_nil ks)
      obtain ⟨run, others, shape⟩ := List.exists_cons_of_ne_nil runs
      rw [shape] at known
      have first : run ≠ [] := each run (shape ▸ List.mem_cons_self)
      have cut := alternatives_and is first known
      rw [← shape] at cut
      exact cut

variable (atomic : List Item → Bool)

theorem holds_iff_alternatives (is : List Item) :
    holds atomic is = true ↔ ∃ a ∈ alternatives is, holds atomic a = true := by
  rw [holds_eq, ← alternatives, List.any_eq_true]
  refine exists_congr fun a => and_congr_right fun mem => ?_
  rw [holds_tight atomic (tight_of_mem_alternatives mem)]

/-- Conditions in a row say that all of some run are true. -/
theorem holds_conjoin (given : conditions ≠ []) :
    holds atomic (conjoin conditions) = true ↔
      ∃ run ∈ spans (conditions.map alternatives), ∀ a ∈ run, holds atomic a = true := by
  have listed : conditions.map alternatives ≠ [] := by simpa using given
  have each := (spans_ne_nil listed (List.forall_mem_map.mpr fun ks _ => alternatives_ne_nil ks)).2
  have tight : ∀ run ∈ spans (conditions.map alternatives), ∀ a ∈ run, Tight a := by
    intro run inside a mem
    obtain ⟨alts, listed, mem⟩ := mem_of_mem_spans inside mem
    obtain ⟨is, -, rfl⟩ := List.mem_map.mp listed
    exact tight_of_mem_alternatives mem
  rw [holds_iff_alternatives, alternatives_conjoin given]
  simp only [List.mem_map, exists_exists_and_eq_and]
  refine exists_congr fun run => and_congr_right fun inside => ?_
  exact holds_conjoin_tight atomic (each run inside) (tight run inside)

end Precedence

open Precedence (Item Holds holds Tight conjoin alternatives spans)
open TableRef (expandWith)

variable {table : String → String} {d : Dialect}

/-- A text that puts ANDs between conditions and nothing around them: what it says, when it says no
less than all of them, and when it says just that. -/
structure Conjoins (table : String → String) (texts : List String) (sql : String) : Prop where
  reads : ∃ is, Reads table sql is
  truth : ∀ atomic, Holds atomic (expandWith table sql) ↔
    ∃ run ∈ spans (texts.map fun t => alternatives (itemsOf table t)),
      ∀ a ∈ run, holds atomic a = true
  admits : ∀ atomic, (∀ t ∈ texts, Holds atomic (expandWith table t)) →
    Holds atomic (expandWith table sql)
  conjunction : texts.length = 1 ∨ (∀ t ∈ texts, ReadsTight table t) → ∀ atomic,
    Holds atomic (expandWith table sql) ↔ ∀ t ∈ texts, Holds atomic (expandWith table t)

section Texts

variable {texts : List String} {a : String} {is : List Item}

theorem conjoins_join (given : texts ≠ [])
    (readable : ∀ t ∈ texts, ∃ is, Reads table t is) :
    Conjoins table texts (Text.join " AND " texts) := by
  have whole := reads_join given readable
  have truth : ∀ atomic, Holds atomic (expandWith table (Text.join " AND " texts)) ↔
      ∃ run ∈ spans (texts.map fun t => alternatives (itemsOf table t)),
        ∀ a ∈ run, holds atomic a = true := by
    intro atomic
    have some : texts.map (itemsOf table) ≠ [] := by simpa using given
    have law := Precedence.holds_conjoin atomic some
    rw [List.map_map, Function.comp_def] at law
    exact whole.holds_iff atomic |>.trans law
  constructor
  · exact ⟨_, whole⟩
  · exact truth
  · intro atomic all
    rw [truth]
    refine Precedence.exists_run (by simpa using given) (List.forall_mem_map.mpr fun t mem => ?_)
    obtain ⟨is, reads⟩ := readable t mem
    rw [← Precedence.holds_iff_alternatives, ← reads.holds_itemsOf]
    exact all t mem
  · rintro (alone | tight) atomic
    · obtain ⟨t, rfl⟩ := List.length_eq_one_iff.mp alone
      rw [List.forall_mem_singleton]
      rfl
    · exact (readsTight_join given tight).2 atomic

theorem Conjoins.parenthesized (conjoins : Conjoins table texts a) :
    Conjoins table texts ("(" ++ a ++ ")") := by
  obtain ⟨is, reads⟩ := conjoins.reads
  constructor
  · exact ⟨_, reads.parenthesized⟩
  · exact fun atomic => (reads.holds_parenthesized atomic).trans (conjoins.truth atomic)
  · exact fun atomic all => (reads.holds_parenthesized atomic).mpr (conjoins.admits atomic all)
  · exact fun plain atomic =>
      (reads.holds_parenthesized atomic).trans (conjoins.conjunction plain atomic)

end Texts

namespace Predicate

/-- A predicate whose texts can be read. What a renderer writes for it may have an OR outside
brackets. -/
structure Readable (table : String → String) (d : Dialect) (p : Predicate) : Prop where
  selector : ReadsTight table p.selector
  subquery : ∀ t, p.subquery = some t →
    ∀ n, ∃ is, Reads table (Template.fillPieces n t.pieces).1.sql is
  renderer : ∀ render t, p.renderer = some render → render p.selector p.values d = .ok t →
    ∀ n, ∃ is, Reads table (Template.fillPieces n t.pieces).1.sql is

theorem Readable.base {p : Predicate} (readable : p.Readable table d) {t : Template}
    (found : p.base d = .ok t) (n : Nat) :
    ∃ is, Reads table (Template.fillPieces n t.pieces).1.sql is := by
  by_cases custom : p.operator = .custom
  · simp only [Predicate.base, custom] at found
    split at found
    · next render given => exact readable.renderer render t given found n
    · cases found
  · -- The other operators do not ask the renderer.
    have plain : Plain table d { p with renderer := none, rawConditions := [] } :=
      ⟨readable.selector, by simp, readable.subquery, by simp⟩
    have same : Predicate.base { p with renderer := none, rawConditions := [] } d = .ok t := by
      rw [← found]
      unfold Predicate.base
      cases operator : p.operator with
      | custom => exact absurd operator custom
      | _ => simp only [operator, Predicate.emptyError, Predicate.firstValue, Predicate.base.within]
    obtain ⟨is, reads, -⟩ := plain.base same n
    exact ⟨is, reads⟩

theorem foldl_andRaw (p : Predicate) (raws : List Statement) :
    raws.foldl andRaw p = { p with rawConditions := p.rawConditions ++ raws } := by
  induction raws generalizing p with
  | nil => simp
  | cons r rest ih => rw [List.foldl_cons, ih]; simp [andRaw]

theorem fillPieces_text_behind (n : Nat) (ps : List Piece) (text : String) :
    Template.fillPieces n (ps ++ [.text text]) =
      (⟨(Template.fillPieces n ps).1.sql ++ text, (Template.fillPieces n ps).1.params⟩,
        (Template.fillPieces n ps).2) := by
  induction ps generalizing n with
  | nil => simp [Template.fillPieces]
  | cons p rest ih => cases p <;> simp [Template.fillPieces, ih, String.append_assoc]

theorem base_rawConditions (p : Predicate) (raws : List Statement) :
    base { p with rawConditions := raws } d = p.base d := rfl

theorem append_rawConditions (text : String) (raws : List Statement) :
    text ++ String.join (raws.map fun r => " AND " ++ r.sql) =
      Text.join " AND " (text :: raws.map (·.sql)) := by
  induction raws generalizing text with
  | nil => simp [Text.join]
  | cons r rest ih =>
    rw [List.map_cons, String.join_cons, String.append_assoc, ih, List.map_cons, ← join_and]
    simp [Conjunction.sql]

theorem render_foldl_andRaw {p : Predicate} (bare : p.rawConditions = []) (raws : List Statement)
    {n m : Nat} {s : Statement} (rendered : (raws.foldl andRaw p).render d n = (.ok s, m)) :
    ∃ b, p.render d n = (.ok b, m) ∧
      (∃ t, p.base d = .ok t ∧ b.sql = (Template.fillPieces n t.pieces).1.sql) ∧
      s.sql = if raws = [] then b.sql
        else "(" ++ Text.join " AND " (b.sql :: raws.map (·.sql)) ++ ")" := by
  rw [foldl_andRaw, bare, List.nil_append] at rendered
  unfold render template at rendered ⊢
  rw [base_rawConditions] at rendered
  cases found : p.base d with
  | error e =>
    rw [found] at rendered
    cases rendered
  | ok t =>
    rw [found] at rendered
    simp only [bare, bind, Except.bind, pure, Except.pure, List.isEmpty_nil,
      if_true] at rendered ⊢
    cases raws with
    | nil =>
      cases rendered
      exact ⟨_, rfl, ⟨t, rfl, rfl⟩, rfl⟩
    | cons r rest =>
      simp only [List.isEmpty_cons, Bool.false_eq_true, if_false, Template.fill, List.cons_append,
        Template.fillPieces, fillPieces_text_behind] at rendered
      cases rendered
      refine ⟨_, rfl, ⟨t, rfl, rfl⟩, ?_⟩
      rw [if_neg (List.cons_ne_nil r rest), ← append_rawConditions, String.append_assoc,
        String.append_assoc]

/-- A predicate with raw conditions says what its comparison and these conditions say with AND
between them and no parentheses: it holds when all of them do, and only then if none has an OR
outside brackets. In a longer chain the fragment is one condition. -/
theorem render_andRaw_conjoins {p : Predicate} (bare : p.rawConditions = [])
    (readable : p.Readable table d) {raws : List Statement}
    (conditions : ∀ r ∈ raws, ∃ is, Reads table r.sql is) {n m : Nat} {s : Statement}
    (rendered : (raws.foldl andRaw p).render d n = (.ok s, m)) :
    ∃ b, p.render d n = (.ok b, m) ∧ Conjoins table (b.sql :: raws.map (·.sql)) s.sql ∧
      (raws ≠ [] ∨ ReadsTight table b.sql → ReadsTight table s.sql ∧
        ∀ before after c, (∀ e ∈ before ++ after, ReadsTight table e.2) → ∀ atomic,
          Holds atomic (expandWith table (Clauses.chain (before ++ (c, s.sql) :: after))) ↔
            ∃ run ∈ Clauses.runs (before ++ (c, s.sql) :: after),
              ∀ t ∈ run, Holds atomic (expandWith table t)) := by
  obtain ⟨b, alone, ⟨t, found, written⟩, text⟩ := render_foldl_andRaw bare raws rendered
  obtain ⟨is, reads⟩ := readable.base found n
  rw [← written] at reads
  have each : ∀ t ∈ b.sql :: raws.map (·.sql), ∃ is, Reads table t is :=
    List.forall_mem_cons.mpr ⟨⟨is, reads⟩, List.forall_mem_map.mpr conditions⟩
  have joined := conjoins_join (List.cons_ne_nil _ _) each
  refine ⟨b, alone, ?_, fun given => ?_⟩
  · rw [text]
    split
    · next none =>
      subst none
      exact joined
    · exact joined.parenthesized
  · have tight : ReadsTight table s.sql := by
      rw [text]
      split
      · next none => exact given.resolve_left fun some => some none
      · obtain ⟨js, whole⟩ := joined.reads
        exact .parenthesized whole
    refine ⟨tight, fun before after c others atomic => ?_⟩
    refine Clauses.holds_chain atomic (by simp) fun e mem => ?_
    rw [List.mem_append, List.mem_cons] at mem
    rcases mem with left | rfl | right
    · exact others e (List.mem_append_left _ left)
    · exact tight
    · exact others e (List.mem_append_right _ right)

def ofCategory : Predicate := new "c.category" [.string "math"] .equal

def visibleOrOwned : Statement := ⟨"c.visible = 1 OR c.owner = 2", ∅⟩

def owned : List Item → Bool
  | .plain (.word w) :: _ => w == "c.owner".toList
  | _ => false

theorem render_andRaw_conjoins_visibleOrOwned : ∃ b s,
    ofCategory.render .sqlite 0 = (.ok b, 1) ∧
    ([visibleOrOwned].foldl andRaw ofCategory).render .sqlite 0 = (.ok s, 1) ∧
    s.sql = "(c.category = :qp1 AND c.visible = 1 OR c.owner = 2)" ∧
    Conjoins id [b.sql, visibleOrOwned.sql] s.sql ∧ ReadsTight id s.sql ∧
    Holds owned (expandWith id s.sql) ∧ ¬Holds owned (expandWith id b.sql) := by
  have readable : ofCategory.Readable id .sqlite := by
    constructor
    · exact readsTight_of_isTight (by decide +kernel)
    · exact nofun
    · exact nofun
  have conditions : ∀ r ∈ [visibleOrOwned], ∃ is, Reads id r.sql is :=
    List.forall_mem_singleton.mpr (exists_reads (by decide +kernel))
  obtain ⟨b, alone, conjoins, chained⟩ :=
    render_andRaw_conjoins (n := 0) rfl readable conditions rfl
  refine ⟨b, _, alone, rfl, by decide +kernel, conjoins, (chained (.inl (by simp))).1, ?_, ?_⟩
  · obtain ⟨is, reads⟩ := conjoins.reads
    rw [reads.holds_itemsOf]
    decide +kernel
  · have comparison : b.sql = "c.category = :qp1" := by
      cases alone
      decide +kernel
    obtain ⟨is, reads⟩ : ∃ is, Reads id b.sql is :=
      comparison ▸ exists_reads (by decide +kernel)
    rw [reads.holds_itemsOf, comparison]
    decide +kernel

end Predicate

end Reports.Sql
