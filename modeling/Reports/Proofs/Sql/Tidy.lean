import Reports.Proofs.Sql.References
import Reports.Proofs.Sql.Where

/-! Tidy texts: outside of quotes a brace only opens a reference, and no quote is left open.
Expanding such a text leaves nothing to expand, and a query of tidy parts is expanded part by
part. -/
namespace Reports.Sql

open Reports.Text (Scanner)
open Marked (ofText)

namespace TableRef

/-- What a state may meet in a tidy text. -/
def GoesOn : State → Char → Prop
  | .braced name, c => (c = '\x7d' ∧ name ≠ []) ∨ continues name c = true
  | _, _ => True

instance (s : State) (c : Char) : Decidable (GoesOn s c) :=
  match s with
  | .braced name =>
    inferInstanceAs (Decidable ((c = '\x7d' ∧ name ≠ []) ∨ continues name c = true))
  | .plain => inferInstanceAs (Decidable True)
  | .quoted _ => inferInstanceAs (Decidable True)

def TidyFrom : State → List Char → Prop
  | s, [] => s = .plain
  | s, c :: rest => GoesOn s c ∧ TidyFrom ((scanner id).step s c).2 rest

instance : (s : State) → (cs : List Char) → Decidable (TidyFrom s cs)
  | s, [] => inferInstanceAs (Decidable (s = .plain))
  | s, c :: rest =>
    have := instDecidableTidyFrom ((scanner id).step s c).2 rest
    inferInstanceAs (Decidable (GoesOn s c ∧ TidyFrom ((scanner id).step s c).2 rest))

def Tidy (cs : List Char) : Prop := TidyFrom .plain cs

instance : DecidablePred Tidy := fun cs => inferInstanceAs (Decidable (TidyFrom .plain cs))

variable {table : String → String} {s : State} {a b : List Char}

theorem TidyFrom.append (first : TidyFrom s a) (second : Tidy b) : TidyFrom s (a ++ b) := by
  induction a generalizing s with
  | nil =>
    cases first
    exact second
  | cons c rest ih => exact ⟨first.1, ih first.2⟩

theorem TidyFrom.after_eq (tidy : TidyFrom s a) : (scanner table).after s a = .plain := by
  rw [TableRef.after_eq]
  induction a generalizing s with
  | nil => exact tidy
  | cons c rest ih => exact ih tidy.2

theorem TidyFrom.run_append (tidy : TidyFrom s a) (b : List Char) :
    (scanner table).run s (a ++ b) = (scanner table).run s a ++ (scanner table).run .plain b := by
  have whole : (scanner table).run s a =
      (scanner table).emitted s a ++ (scanner table).finish ((scanner table).after s a) := rfl
  have ends : (scanner table).finish .plain = [] := rfl
  rw [Scanner.run_append, whole, tidy.after_eq, ends, List.append_nil]

def isBlunt (c : Char) : Bool := c != '\x7b' && !isQuote c

theorem stepPlain_of_isBlunt {c : Char} (blunt : isBlunt c = true) :
    stepPlain c = ([c], .plain) := by
  rw [isBlunt, Bool.and_eq_true, bne_iff_ne, Bool.not_eq_true'] at blunt
  simp [stepPlain, blunt]

theorem isBlunt_of_isNameChar {c : Char} (named : Text.isNameChar c = true) : isBlunt c = true := by
  have brace : c ≠ '\x7b' := by
    rintro rfl
    exact absurd named (by decide)
  simp [isBlunt, brace, isQuote_of_isNameChar named]

/-- Tidy from a state on, and left as it is by every expansion. -/
structure Settled (s : State) (cs : List Char) : Prop where
  tidy : TidyFrom s cs
  fixed (table : String → String) : (scanner table).run s cs = cs

theorem Settled.copied {c : Char} {t : State} (goesOn : GoesOn s c)
    (step : ∀ table, (scanner table).step s c = ([c], t)) (later : Settled t a) :
    Settled s (c :: a) where
  tidy := by
    rw [TidyFrom, step]
    exact ⟨goesOn, later.tidy⟩
  fixed table := by
    rw [Scanner.run_cons, step]
    exact congrArg (c :: ·) (later.fixed table)

theorem Settled.blunt_append {cs : List Char} (blunt : ∀ c ∈ cs, isBlunt c = true)
    (later : Settled .plain a) : Settled .plain (cs ++ a) := by
  induction cs with
  | nil => exact later
  | cons c rest ih =>
    have step (table : String → String) : (scanner table).step .plain c = ([c], .plain) :=
      stepPlain_of_isBlunt (blunt c List.mem_cons_self)
    exact .copied trivial step (ih fun d mem => blunt d (List.mem_cons_of_mem _ mem))

theorem settled_nil : Settled .plain [] := ⟨rfl, fun _ => rfl⟩

theorem tidy_of_blunt {cs : List Char} (blunt : ∀ c ∈ cs, isBlunt c = true) : Tidy cs := by
  have settled := Settled.blunt_append blunt settled_nil
  rw [List.append_nil] at settled
  exact settled.tidy

def Named (s : String) : Prop := ∀ c ∈ s.toList, Text.isNameChar c = true

instance : DecidablePred Named := fun s =>
  List.decidableBAll (fun c => Text.isNameChar c = true) s.toList

def NamedTables (table : String → String) : Prop := ∀ name, Named name → Named (table name)

/-- The state in which the expansion of what follows is read. -/
def reading : State → State
  | .quoted q => .quoted q
  | _ => .plain

def Begun : State → Prop
  | .braced name => ∀ c ∈ name, Text.isNameChar c = true
  | _ => True

theorem reading_unbraced (unbraced : ∀ name, s ≠ .braced name) : Begun s ∧ reading s = s := by
  cases s with
  | braced name => exact absurd rfl (unbraced name)
  | plain => exact ⟨trivial, rfl⟩
  | quoted q => exact ⟨trivial, rfl⟩

theorem TidyFrom.settled (tables : NamedTables table) (begun : Begun s) (tidy : TidyFrom s a) :
    Settled (reading s) ((scanner table).run s a) := by
  induction a generalizing s with
  | nil =>
    cases tidy
    exact settled_nil
  | cons c rest ih =>
    obtain ⟨here, later⟩ := tidy
    rw [Scanner.run_cons]
    cases s with
    | quoted q =>
      have unbraced : ∀ name, (if c = q then State.plain else .quoted q) ≠ .braced name := by
        intro name
        split <;> exact State.noConfusion
      obtain ⟨begun, same⟩ := reading_unbraced unbraced
      have onward := ih begun later
      rw [same] at onward
      exact .copied trivial (fun _ => rfl) onward
    | plain =>
      by_cases brace : c = '\x7b'
      · subst brace
        exact ih (s := .braced []) (fun d mem => absurd mem List.not_mem_nil) later
      · have step (table : String → String) : (scanner table).step .plain c =
            ([c], if isQuote c then .quoted c else .plain) := stepPlain_of_ne brace
        have unbraced : ∀ name, (if isQuote c then State.quoted c else .plain) ≠
            .braced name := by
          intro name
          split <;> exact State.noConfusion
        obtain ⟨begun, same⟩ := reading_unbraced unbraced
        rw [step] at later ⊢
        have onward := ih begun later
        rw [same] at onward
        exact .copied trivial step onward
    | braced name =>
      by_cases closes : c = '\x7d' ∧ name ≠ []
      · have named : Named (String.ofList name.reverse) := fun d mem =>
          begun d (List.mem_reverse.mp (by rwa [String.toList_ofList] at mem))
        rw [step_closes id closes] at later
        rw [step_closes table closes]
        exact .blunt_append (fun d mem => isBlunt_of_isNameChar (tables _ named d mem))
          (ih (s := .plain) trivial later)
      · have goesOn : continues name c = true := here.resolve_left closes
        rw [step_continues id goesOn] at later
        rw [step_continues table goesOn]
        refine ih (s := .braced (c :: name)) (fun d mem => ?_) later
        rcases List.mem_cons.mp mem with rfl | mem
        · exact isNameChar_of_continues goesOn
        · exact begun d mem

end TableRef

open TableRef (Tidy Named)

namespace Marked

/-- Tidy, whatever placeholders fill its holes. -/
def Tidied (a : Marked) : Prop := ∀ number, Tidy (a.fill number)

theorem tidied_ofText {s : String} : Tidied (ofText s) ↔ Tidy s.toList := by
  simp [Tidied]

theorem fills_tidied (a : Marked) (number : Nat → Nat) (tidied : Tidied a) :
    Tidied (ofChars (a.fill number)) := fun _ => by
  rw [fill_ofChars]
  exact tidied number

theorem isBlunt_of_isHarmless {c : Char} (harmless : isHarmless c = true) :
    TableRef.isBlunt c = true := by
  simp only [isHarmless, Bool.and_eq_true] at harmless
  simp [TableRef.isBlunt, harmless]

theorem namedTables_tableRef {c : Clauses} (named : Named c.tablePrefix) :
    TableRef.NamedTables c.tableRef := by
  intro name letters
  unfold Clauses.tableRef
  split
  · exact letters
  · intro d mem
    rw [String.toList_append] at mem
    exact (List.mem_append.mp mem).elim (named d) (letters d)

theorem weaves_tidied : Weaves Tidied Named where
  nil _ := rfl
  hole i number := by
    refine TableRef.tidy_of_blunt fun c mem => ?_
    simp only [fill, List.append_nil] at mem
    rcases List.mem_cons.mp mem with rfl | mem
    · decide
    · exact TableRef.isBlunt_of_isNameChar (isNameChar_of_mem_placeholderName mem)
  lead harmless ha number := by
    rw [fill_append, fill_ofText]
    refine TableRef.TidyFrom.append (TableRef.tidy_of_blunt fun c mem => ?_) (ha number)
    exact isBlunt_of_isHarmless (List.all_eq_true.mp harmless c mem)
  append ha hb _ number := by
    rw [fill_append]
    exact TableRef.TidyFrom.append (ha number) (hb number)
  escape := tidied_ofText.mpr (by decide)
  expand {c _} named ha number := by
    rw [TableRef.fill_expandMarked _ (show TableRef.Sound .plain from trivial)]
    exact ((ha number).settled (namedTables_tableRef named)
      (show TableRef.Begun .plain from trivial)).tidy

end Marked

open Marked (Tidied tidied_ofText weaves_tidied fills_tidied namedTables_tableRef)

namespace TableRef

theorem Tidy.append {a b : String} (first : Tidy a.toList) (second : Tidy b.toList) :
    Tidy (a ++ b).toList := by
  rw [String.toList_append]
  exact TidyFrom.append first second

theorem tidy_of_harmless {a : String} (harmless : Harmless a) : Tidy a.toList :=
  tidy_of_blunt fun _ mem => Marked.isBlunt_of_isHarmless (List.all_eq_true.mp harmless _ mem)

theorem expandWith_append {a : String} (tidy : Tidy a.toList) (table : String → String)
    (b : String) :
    expandWith table (a ++ b) = expandWith table a ++ expandWith table b := by
  rw [expandWith, String.toList_append, tidy.run_append, String.ofList_append]
  rfl

end TableRef

namespace Clauses

def whereText : Option Statement → String
  | none => ""
  | some body => " WHERE " ++ body.sql

def selectClause (c : Clauses) : String :=
  "SELECT " ++ (if c.emitsDistinct then "DISTINCT " else "") ++ c.selectList ++ " FROM "

/-- The clauses of a query around what it reads, each expanded by itself. -/
def around (c : Clauses) (d : Dialect) (reads : String) : String :=
  c.expandRefs c.withClause ++ c.expandRefs c.selectClause ++ reads ++ c.expandRefs c.groupSql ++
    c.expandRefs c.havingSql ++ c.expandRefs (c.orderSql ++ c.limitSql d)

variable {d : Dialect} {c : Clauses} {n m : Nat}

theorem of_assemble {source s : Statement} (assembled : c.assemble d source n = (.ok s, m)) :
    ∃ body, c.whereBody d n = (.ok body, m) ∧
      s.sql = c.expandRefs (c.text d source.sql (whereText body)) := by
  rw [assemble] at assembled
  obtain ⟨body, k, given, rest⟩ := Effect.of_bind_ok assembled
  cases body with
  | none =>
    change ((Except.ok _ : Except Error Statement), k) = _ at rest
    rw [Prod.mk.injEq, Except.ok.injEq] at rest
    obtain ⟨rfl, rfl⟩ := rest
    exact ⟨none, given, rfl⟩
  | some body =>
    change ((Except.ok _ : Except Error Statement), k) = _ at rest
    rw [Prod.mk.injEq, Except.ok.injEq] at rest
    obtain ⟨rfl, rfl⟩ := rest
    exact ⟨some body, given, rfl⟩

section Woven

variable {P : Marked → Prop} {T : String → Prop} (w : Weaves P T)
  (fills : ∀ a number, P a → P (.ofChars (a.fill number)))

include w fills

theorem woven_renderPredicates {ps : List Predicate} (worded : ∀ p ∈ ps, p.Worded P d)
    {rs : List (Conjunction × Statement)} (rendered : renderPredicates d ps n = (.ok rs, m)) :
    ∀ e ∈ rs, P (ofText e.2.sql) := by
  induction ps generalizing n m rs with
  | nil =>
    cases rendered
    exact fun e mem => absurd mem List.not_mem_nil
  | cons p rest ih =>
    obtain ⟨s, k, here, rendered⟩ := Effect.of_bind_ok rendered
    obtain ⟨ss, k', later, rendered⟩ := Effect.of_bind_ok rendered
    cases rendered
    refine List.forall_mem_cons.mpr
      ⟨?_, ih (fun q mem => worded q (List.mem_cons_of_mem _ mem)) later⟩
    rw [Predicate.render] at here
    cases found : p.template d with
    | error e =>
      rw [found] at here
      cases here
    | ok t =>
      have follows : Follows (fun i => n + i + 1) 0 n (Template.holeValues t.pieces).length :=
        fun i _ => by simp
      rw [found] at here
      change t.fill n = _ at here
      rw [Template.fill, Template.fillPieces_eq t.pieces follows] at here
      cases here
      rw [ofText, String.toList_ofList]
      exact fills _ _ (w.template (worded p List.mem_cons_self) found 0)

theorem woven_whereText (predicates : ∀ p ∈ c.predicates, p.Worded P d)
    (raw : ∀ o ∈ c.rawWhere.map Outline.ofStatement, P o.text) {body : Option Statement}
    (given : c.whereBody d n = (.ok body, m)) : P (ofText (whereText body)) := by
  obtain ⟨rs, k, rendered, -⟩ := Effect.of_bind_ok given
  have each := woven_renderPredicates w fills predicates rendered
  let ps := rs.map fun e => (e.1, Outline.ofStatement e.2)
  have filled : rs = ps.map fun o => (o.1, o.2.fill id) := by simp [ps, Function.comp_def]
  have raws : c.rawWhere = (c.rawWhere.map Outline.ofStatement).map (Outline.fill id) :=
    fill_map_ofStatement c.rawWhere
  have parts : ∀ e ∈ ps, P e.2.text := by
    intro e he
    obtain ⟨r, hr, rfl⟩ := List.mem_map.mp he
    exact each r hr
  have whole := (w.wovenCondition raw parts).1
  rw [filled] at rendered
  have same := whereBody_eq raws rendered
  have text : whereText body =
      Clauses.filled id (conditionText (fragments ps)
        ((c.rawWhere.map Outline.ofStatement).map Outline.text)) := by
    rw [given, Prod.mk.injEq, Except.ok.injEq] at same
    obtain ⟨rfl, -⟩ := same
    unfold conditionText
    split
    · rfl
    · rw [filled_append, filled_ofText, filled_join]
      rfl
  rw [text, ofText, toList_filled]
  exact fills _ id whole

end Woven

/-- What a query reads, and which rows of it: the source, the joins and WHERE, expanded. -/
def reads (c : Clauses) (d : Dialect) (source : Source) : Draw String := do
  let s ← c.sourceStatement d source
  let body ← c.whereBody d
  return c.expandRefs (s.sql ++ c.joinsSql ++ whereText body)

/-- Tidy parts are expanded each by itself, and leave nothing to expand. -/
theorem assemble_tidy (pieces : c.Pieces Tidied Named d)
    (raw : ∀ o ∈ c.rawWhere.map Outline.ofStatement, Tidied o.text)
    (having : ∀ o ∈ c.rawHaving.map Outline.ofStatement, Tidied o.text) {source : Source}
    {read s : Statement} {k : Nat} (found : c.sourceStatement d source n = (.ok read, k))
    (readTidy : Tidy read.sql.toList) (assembled : c.assemble d read k = (.ok s, m)) :
    TableRef.Settled .plain s.sql.toList ∧
      ∃ r, c.reads d source n = (.ok r, m) ∧ s.sql = c.around d r := by
  obtain ⟨body, given, text⟩ := of_assemble assembled
  have w := weaves_tidied
  have opening : Tidy c.withClause.toList :=
    tidied_ofText.mp (by simpa using w.withClause pieces w.nil)
  have columns : Tidy c.selectClause.toList := by
    have select : Harmless ("SELECT " ++ if c.emitsDistinct then "DISTINCT " else "") := by
      split <;> decide
    have names := tidied_ofText.mp (w.selectList pieces)
    exact .append (.append (TableRef.tidy_of_harmless select) names)
      (TableRef.tidy_of_harmless (by decide))
  have joins := tidied_ofText.mp (w.joinsSql pieces).1
  have condition := tidied_ofText.mp (woven_whereText w fills_tidied pieces.predicates raw given)
  have reads := (readTidy.append joins).append condition
  have groups := tidied_ofText.mp (w.groupSql pieces).1
  have filter : Tidy c.havingSql.toList := by
    rw [← filled_havingText id c _ (fill_map_ofStatement c.rawHaving), toList_filled]
    exact (w.wovenHaving having).1 id
  have tail := (tidied_ofText.mp (w.orderSql pieces).1).append (tidied_ofText.mp (w.limitSql d c).1)
  have clauses : c.text d read.sql (whereText body) = c.withClause ++ c.selectClause ++
      (read.sql ++ c.joinsSql ++ whereText body) ++ c.groupSql ++ c.havingSql ++
        (c.orderSql ++ c.limitSql d) := by
    simp only [Clauses.text, selectClause, String.append_assoc]
  have toReads := (opening.append columns).append reads
  have toHaving := (toReads.append groups).append filter
  constructor
  · have settled := (toHaving.append tail).settled (namedTables_tableRef pieces.tablePrefix)
      (show TableRef.Begun .plain from trivial)
    rw [text, clauses, expandRefs, TableRef.toList_expandWith]
    exact settled
  · refine ⟨c.expandRefs (read.sql ++ c.joinsSql ++ whereText body), ?_, ?_⟩
    · rw [Clauses.reads, Effect.bind_ok _ found, Effect.bind_ok _ given]
      rfl
    rw [text, clauses, around]
    simp only [expandRefs]
    rw [TableRef.expandWith_append toHaving, TableRef.expandWith_append (toReads.append groups),
      TableRef.expandWith_append toReads, TableRef.expandWith_append (opening.append columns),
      TableRef.expandWith_append opening]

/-- A query of tidy parts leaves nothing to expand, and its clauses stand around what it reads. -/
theorem renderOver_tidy {source : Source} {s : Statement}
    (worded : c.Worded Tidied Named d (c.rawWhere.map .ofStatement)
      (c.rawHaving.map .ofStatement) source)
    (rendered : c.renderOver d source n = (.ok s, m)) :
    TableRef.Settled .plain s.sql.toList ∧
      ∃ r, c.reads d source n = (.ok r, m) ∧ s.sql = c.around d r := by
  induction source generalizing c n m s with
  | none => cases rendered
  | table name correlation =>
    obtain ⟨pieces, raw, having, table, named⟩ := worded
    refine assemble_tidy pieces raw having rfl ?_ rendered
    exact ((tidied_ofText.mp table).append (TableRef.tidy_of_harmless (by decide))).append
      (tidied_ofText.mp named)
  | derived inner source correlation ih =>
    obtain ⟨pieces, raw, having, within, named⟩ := worded
    rw [renderOver_eq] at rendered
    obtain ⟨given, k, found, assembled⟩ := Effect.of_bind_ok rendered
    refine assemble_tidy pieces raw having found ?_ assembled
    rw [sourceStatement] at found
    obtain ⟨s', k', inside, found⟩ := Effect.of_bind_ok found
    cases found
    obtain ⟨settled, -⟩ := ih within inside
    have inner : Tidy s'.sql.toList := settled.tidy
    exact ((TableRef.tidy_of_harmless (by decide)).append inner).append
      (TableRef.tidy_of_harmless (by decide)) |>.append (tidied_ofText.mp named)

end Clauses

end Reports.Sql
