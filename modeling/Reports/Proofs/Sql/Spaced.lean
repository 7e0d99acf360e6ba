import Reports.Proofs.Sql.Tidy

/-! Texts in a row. Expanding references leaves the quotes where they stand, so blanks and
parentheses between texts that leave no quote open keep their expansions apart, however often the
row is expanded. -/
namespace Reports.Sql

open Reports.Text (Scanner)
open Precedence (isSeparator)

namespace TableRef

variable {table : String → String} {s : State} {a b : List Char}

def State.quote? : State → Option Char
  | quoted q => some q
  | _ => none

def turn : Option Char → Char → Option Char
  | some q, c => if c = q then none else some q
  | none, c => if isQuote c then some c else none

theorem foldl_turn_unquoted (none : Unquoted a) : a.foldl turn .none = .none := by
  induction a with
  | nil => rfl
  | cons c rest ih =>
    have step : turn .none c = .none := by simp [turn, none c List.mem_cons_self]
    rw [List.foldl_cons, step]
    exact ih fun d mem => none d (List.mem_cons_of_mem _ mem)

theorem quote?_stepPlain (c : Char) : (stepPlain c).2.quote? = turn none c := by
  by_cases brace : c = '\x7b'
  · subst brace
    rfl
  · rw [stepPlain_of_ne brace, turn]
    split <;> rfl

theorem quote?_step (s : State) (c : Char) :
    ((scanner table).step s c).2.quote? = turn s.quote? c := by
  cases s with
  | plain => exact quote?_stepPlain c
  | quoted q =>
    simp only [scanner, State.quote?, turn]
    by_cases same : c = q <;> simp [same]
  | braced name =>
    have outside (named : isQuote c = false) : none = turn none c := by simp [turn, named]
    by_cases closes : c = '\x7d' ∧ name ≠ []
    · rw [step_closes table closes, closes.1]
      rfl
    · by_cases goesOn : continues name c = true
      · rw [step_continues table goesOn]
        exact outside (isQuote_of_isNameChar (isNameChar_of_continues goesOn))
      · rw [step_stops table closes (Bool.eq_false_iff.mpr goesOn)]
        exact quote?_stepPlain c

theorem quote?_after (s : State) (cs : List Char) :
    ((scanner table).after s cs).quote? = cs.foldl turn s.quote? := by
  induction cs generalizing s with
  | nil => rfl
  | cons c rest ih => rw [Scanner.after, ih, quote?_step, List.foldl_cons]

theorem closed_iff : Closed a ↔ a.foldl turn none = none := by
  have ends (s : State) : s.isQuoted = false ↔
      s.quote? = none := by cases s <;> simp [State.isQuoted, State.quote?]
  rw [Closed, ends, quote?_after]
  rfl

theorem Closed.append (first : Closed a) (second : Closed b) : Closed (a ++ b) := by
  rw [closed_iff] at first second ⊢
  rw [List.foldl_append, first, second]

theorem closed_joined {a b : String} (first : Closed a.toList) (second : Closed b.toList) :
    Closed (a ++ b).toList := by
  rw [String.toList_append]
  exact first.append second

theorem isQuote_of_open {o : Option Char} (sound : ∀ q, o = some q →
    isQuote q = true) {q : Char}
    (isOpen : a.foldl turn o = some q) : isQuote q = true := by
  induction a generalizing o with
  | nil => exact sound q isOpen
  | cons c rest ih =>
    refine ih (fun r now => ?_) isOpen
    cases o with
    | none =>
      by_cases quote : isQuote c = true <;> simp [turn, quote] at now
      exact now ▸ quote
    | some p =>
      by_cases same : c = p <;> simp [turn, same] at now
      exact now ▸ sound p rfl

theorem Closed.of_separator {c : Char} (closed : Closed (a ++ [c]))
    (separates : isSeparator c = true) :
    Closed a := by
  rw [closed_iff, List.foldl_append] at closed
  rw [closed_iff]
  cases now : a.foldl turn none with
  | none => rfl
  | some q =>
    have quote := isQuote_of_open (o := none) nofun now
    have other : c ≠ q := by
      rintro rfl
      rcases Precedence.separator_cases separates with rfl | rfl | rfl | rfl <;>
        exact absurd quote (by decide)
    rw [now] at closed
    simp [turn, other] at closed

theorem unquoted_of_named {cs : List Char} (named : ∀ c ∈ cs, Text.isNameChar c = true) :
    Unquoted cs := fun c mem => isQuote_of_isNameChar (named c mem)

theorem unquoted_held {name : List Char} (begun : Begun (.braced name)) : Unquoted (held name) := by
  intro c mem
  rcases List.mem_cons.mp mem with rfl | mem
  · decide
  · exact isQuote_of_isNameChar (begun c (List.mem_reverse.mp mem))

theorem begun_stepPlain (c : Char) : Begun (stepPlain c).2 := by
  unfold stepPlain
  split
  · exact fun d mem => absurd mem List.not_mem_nil
  · split <;> trivial

theorem turn_stepPlain (c : Char) : (stepPlain c).1.foldl turn none = turn none c := by
  by_cases brace : c = '\x7b'
  · subst brace
    rfl
  · rw [stepPlain_of_ne brace]
    rfl

/-- What is put for a name leaves no quote open. -/
def ClosedTables (table : String → String) : Prop :=
  ∀ name, Named name → Closed (table name).toList

theorem NamedTables.closed (tables : NamedTables table) : ClosedTables table := fun name named =>
  closed_iff.mpr (foldl_turn_unquoted (unquoted_of_named (tables name named)))

/-- What is put for a character opens and closes the quotes that the character does. -/
theorem turn_emitted (tables : ClosedTables table) (begun : Begun s) (c : Char) :
    ((scanner table).step s c).1.foldl turn s.quote? = turn s.quote? c ∧
      Begun ((scanner table).step s c).2 := by
  cases s with
  | plain => exact ⟨turn_stepPlain c, begun_stepPlain c⟩
  | quoted q =>
    refine ⟨rfl, ?_⟩
    simp only [scanner]
    split <;> trivial
  | braced name =>
    by_cases closes : c = '\x7d' ∧ name ≠ []
    · have named : Named (String.ofList name.reverse) := fun d mem =>
        begun d (List.mem_reverse.mp (by rwa [String.toList_ofList] at mem))
      have put := closed_iff.mp (tables _ named)
      rw [step_closes table closes, closes.1]
      exact ⟨put, trivial⟩
    · by_cases goesOn : continues name c = true
      · have named := isNameChar_of_continues goesOn
        rw [step_continues table goesOn]
        refine ⟨?_, List.forall_mem_cons.mpr ⟨named, begun⟩⟩
        simp [State.quote?, turn, isQuote_of_isNameChar named]
      · rw [step_stops table closes (Bool.eq_false_iff.mpr goesOn)]
        refine ⟨?_, begun_stepPlain c⟩
        change (held name ++ (stepPlain c).1).foldl turn none = turn none c
        rw [List.foldl_append, foldl_turn_unquoted (unquoted_held begun), turn_stepPlain]

theorem turn_run (tables : ClosedTables table) (begun : Begun s) (cs : List Char) :
    ((scanner table).run s cs).foldl turn s.quote? = cs.foldl turn s.quote? := by
  induction cs generalizing s with
  | nil =>
    cases s with
    | braced name => exact foldl_turn_unquoted (unquoted_held begun)
    | _ => rfl
  | cons c rest ih =>
    obtain ⟨here, later⟩ := turn_emitted tables begun c
    rw [Scanner.run_cons, List.foldl_append, here, List.foldl_cons, ← quote?_step, ih later]

theorem turn_expandWith (tables : ClosedTables table) (sql : String) :
    (expandWith table sql).toList.foldl turn none = sql.toList.foldl turn none := by
  rw [toList_expandWith]
  exact turn_run tables (s := .plain) trivial sql.toList

theorem closed_expandWith (tables : NamedTables table) (sql : String) :
    Closed (expandWith table sql).toList ↔ Closed sql.toList := by
  rw [closed_iff, closed_iff, turn_expandWith tables.closed]

end TableRef

open Marked (ofText Tidied namedTables_tableRef weaves_tidied)
open TableRef (Closed closed_expandWith closed_nil expandWith NamedTables)

/-- Nothing, or something that a separator begins. -/
def StartsSeparate (s : String) : Prop :=
  s = "" ∨ ∃ c rest, isSeparator c = true ∧ s.toList = c :: rest

/-- A text that a separator ends. -/
def EndsSeparate (s : String) : Prop := ∃ rest c, isSeparator c = true ∧ s.toList = rest ++ [c]

/-- Texts that leave no quote open, with a separator between each and what follows. -/
def Spaced : List String → Prop
  | [] => True
  | t :: rest =>
    Closed t.toList ∧ (EndsSeparate t ∨ StartsSeparate (String.join rest)) ∧ Spaced rest

section Rows

variable {table : String → String} {a b : String} {as bs : List String}

theorem StartsSeparate.append (first : StartsSeparate a) (second : StartsSeparate b) :
    StartsSeparate (a ++ b) := by
  rcases first with rfl | ⟨c, rest, separates, chars⟩
  · rwa [String.empty_append]
  · exact .inr ⟨c, rest ++ b.toList, separates, by rw [String.toList_append, chars]; rfl⟩

theorem toList_expandWith_starts (table : String → String) {c : Char} {rest : List Char}
    (separates : isSeparator c = true) (chars : b.toList = c :: rest) :
    (expandWith table b).toList = c :: (TableRef.scanner table).run .plain rest := by
  rw [TableRef.toList_expandWith, chars]
  exact TableRef.run_separated closed_nil separates rest

theorem toList_expandWith_ends (table : String → String) {c : Char} {rest : List Char}
    (before : Closed rest) (separates : isSeparator c = true) (chars : a.toList = rest ++ [c]) :
    (expandWith table a).toList = (TableRef.scanner table).run .plain rest ++ [c] := by
  rw [TableRef.toList_expandWith, chars]
  exact TableRef.run_separated before separates []

theorem expandWith_starts (closed : Closed a.toList) (starts : StartsSeparate b) :
    expandWith table (a ++ b) = expandWith table a ++ expandWith table b := by
  rcases starts with rfl | ⟨c, rest, separates, chars⟩
  · rw [String.append_empty, TableRef.expandWith_empty, String.append_empty]
  · rw [← String.toList_inj, String.toList_append,
      toList_expandWith_starts table separates chars, TableRef.toList_expandWith,
      TableRef.toList_expandWith, String.toList_append, chars,
      TableRef.run_separated closed separates]

theorem expandWith_ends (closed : Closed a.toList) (ends : EndsSeparate a) (b : String) :
    expandWith table (a ++ b) = expandWith table a ++ expandWith table b := by
  obtain ⟨rest, c, separates, chars⟩ := ends
  rw [chars] at closed
  have before := closed.of_separator separates
  rw [← String.toList_inj, String.toList_append,
    toList_expandWith_ends table before separates chars, TableRef.toList_expandWith,
    TableRef.toList_expandWith, String.toList_append, chars,
    List.append_assoc, List.singleton_append, TableRef.run_separated before separates,
    List.append_assoc]
  rfl

theorem StartsSeparate.expandWith (starts : StartsSeparate b) :
    StartsSeparate (expandWith table b) := by
  rcases starts with rfl | ⟨c, rest, separates, chars⟩
  · exact .inl rfl
  · exact .inr ⟨c, _, separates, toList_expandWith_starts table separates chars⟩

theorem EndsSeparate.expandWith (closed : Closed a.toList) (ends : EndsSeparate a) :
    EndsSeparate (expandWith table a) := by
  obtain ⟨rest, c, separates, chars⟩ := ends
  rw [chars] at closed
  exact ⟨_, c, separates, toList_expandWith_ends table
    (closed.of_separator separates) separates chars⟩

/-- A row is expanded text by text, and what comes of it is a row again. -/
theorem Spaced.expandWith (tables : NamedTables table) (spaced : Spaced as) :
    TableRef.expandWith table (String.join as) = String.join
      (as.map (TableRef.expandWith table)) ∧ Spaced (as.map (TableRef.expandWith table)) := by
  induction as with
  | nil => exact ⟨rfl, trivial⟩
  | cons t rest ih =>
    obtain ⟨closed, separate, later⟩ := spaced
    obtain ⟨joined, spaced⟩ := ih later
    rw [String.join_cons, List.map_cons, String.join_cons, ← joined]
    constructor
    · rcases separate with ends | starts
      · exact expandWith_ends closed ends _
      · exact expandWith_starts closed starts
    · refine ⟨(closed_expandWith tables t).mpr closed, ?_, spaced⟩
      rw [← joined]
      exact separate.imp (·.expandWith closed) (·.expandWith)

theorem Spaced.append (first : Spaced as) (second : Spaced bs)
    (starts : StartsSeparate (String.join bs)) : Spaced (as ++ bs) := by
  induction as with
  | nil => exact second
  | cons t rest ih =>
    obtain ⟨closed, separate, later⟩ := first
    refine ⟨closed, separate.imp_right fun begins => ?_, ih later⟩
    have joined : String.join (rest ++ bs) = String.join rest ++ String.join bs :=
      String.join_append
    exact joined ▸ begins.append starts

end Rows

namespace Marked

/-- No quote is left open, whatever placeholders fill the holes. -/
def ClosedText (a : Marked) : Prop := ∀ number, Closed (a.fill number)

theorem closedText_ofText {s : String} : ClosedText (ofText s) ↔ Closed s.toList := by
  simp [ClosedText]

theorem Tidied.closedText {a : Marked} (tidied : Tidied a) : ClosedText a := fun number =>
  congrArg TableRef.State.isQuoted (tidied number).after_eq

theorem fills_closedText (a : Marked) (number : Nat → Nat) (closed : ClosedText a) :
    ClosedText (ofChars (a.fill number)) := fun _ => by
  rw [fill_ofChars]
  exact closed number

theorem weaves_closedText : Weaves ClosedText TableRef.Named where
  nil _ := closed_nil
  hole i := (weaves_tidied.hole i).closedText
  lead harmless ha number := by
    rw [fill_append]
    exact ((weaves_tidied.word harmless).closedText number).append (ha number)
  append ha hb _ number := by
    rw [fill_append]
    exact (ha number).append (hb number)
  escape := weaves_tidied.escape.closedText
  expand {c a} named ha number := by
    have same := closed_expandWith (namedTables_tableRef named) (String.ofList (a.fill number))
    rw [TableRef.toList_expandWith, String.toList_ofList] at same
    rw [TableRef.fill_expandMarked _ (show TableRef.Sound .plain from trivial)]
    exact same.mpr (ha number)

end Marked

end Reports.Sql
