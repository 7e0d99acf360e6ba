import Reports.Proofs.Sql.Grammar
import Reports.Proofs.Sql.Spaced

/-! Quoted literals in statements. Doubling the quotes of a text keeps all of it inside the literal
for every scanner that takes quotes in pairs, and what stands before and behind is read as if it
stood alone. -/
namespace Reports.Sql

open Reports.Text (Scanner)
open TableRef (Closed closed_iff closed_joined isQuote turn)

namespace Quoting

variable {σ τ : Type} {m : Scanner σ τ} {plain : σ} {quoted : Char → σ} {copy : Char → τ}
  (quoting : Quoting m plain quoted copy)

/-- A scanner is inside the quote that is open. -/
def Tracks (quoted : Char → σ) (s : σ) : Option Char → Prop
  | some q => s = quoted q
  | none => ∀ q, s ≠ quoted q

include quoting

theorem tracks_step {s : σ} {o : Option Char} (tracks : Tracks quoted s o) (c : Char) :
    Tracks quoted (m.step s c).2 (turn o c) := by
  cases o with
  | some q =>
    obtain rfl : s = quoted q := tracks
    rw [quoting.within, turn]
    split
    · exact quoting.start
    · rfl
  | none =>
    rw [turn]
    split
    · next quote =>
      rw [quoting.opens tracks quote]
      rfl
    · next none => exact quoting.stays tracks (Bool.eq_false_iff.mpr none)

theorem tracks_after {s : σ} {o : Option Char} (tracks : Tracks quoted s o) (cs : List Char) :
    Tracks quoted (m.after s cs) (cs.foldl turn o) := by
  induction cs generalizing s o with
  | nil => exact tracks
  | cons c rest ih => exact ih (quoting.tracks_step tracks c)

theorem outside_of_closed {a : String} (closed : Closed a.toList) :
    ∀ q, m.after plain a.toList ≠ quoted q := by
  have start : Tracks quoted plain none := quoting.start
  have tracks := quoting.tracks_after start a.toList
  rw [closed_iff.mp closed] at tracks
  exact tracks

theorem run_doubled {q : Char} (quote : isQuote q = true) (cs rest : List Char) :
    m.run (quoted q) (cs.flatMap (Text.doubling q) ++ q :: rest) =
      (cs.flatMap (Text.doubling q) ++ [q]).map copy ++ m.run plain rest := by
  have closes : m.step (quoted q) q = ([copy q], plain) := by simp [quoting.within]
  have opens : m.step plain q = ([copy q], quoted q) := by
    rw [quoting.opens quoting.start quote, quoting.finish]
    rfl
  induction cs with
  | nil =>
    rw [List.flatMap_nil, List.nil_append, Scanner.run_cons, closes]
    rfl
  | cons c cs ih =>
    rw [List.flatMap_cons, List.append_assoc]
    by_cases same : c = q
    · subst same
      have doubled : Text.doubling c c = [c, c] := if_pos rfl
      rw [doubled, List.cons_append, List.singleton_append, Scanner.run_cons, closes,
        Scanner.run_cons, opens, ih]
      simp
    · have once : Text.doubling q c = [c] := if_neg same
      have step : m.step (quoted q) c = ([copy c], quoted q) := by simp [quoting.within, same]
      rw [once, List.singleton_append, Scanner.run_cons, step, ih]
      simp

theorem run_literal {a : String} (closed : Closed a.toList) (text b : String) :
    m.run plain (a ++ Dialect.quoteString text ++ b).toList =
      m.run plain a.toList ++ (Dialect.quoteString text).toList.map copy ++
      m.run plain b.toList := by
  have quote : isQuote '\x27' = true := rfl
  have literal : (Dialect.quoteString text).toList =
      '\x27' :: (text.toList.flatMap (Text.doubling '\x27') ++ ['\x27']) := String.toList_ofList
  have opens := quoting.opens (quoting.outside_of_closed closed) quote
  have before : m.run plain a.toList =
      m.emitted plain a.toList ++ m.finish (m.after plain a.toList) := rfl
  have doubled := quoting.run_doubled quote text.toList b.toList
  rw [← List.singleton_append, ← List.append_assoc] at doubled
  rw [String.toList_append, String.toList_append, List.append_assoc, Scanner.run_append, literal,
    List.cons_append, Scanner.run_cons, opens, doubled, before]
  simp

end Quoting

theorem turn_doubled (cs : List Char) :
    (cs.flatMap (Text.doubling '\x27') ++ ['\x27']).foldl turn (some '\x27') = none := by
  induction cs with
  | nil => rfl
  | cons c rest ih =>
    rw [List.flatMap_cons, List.append_assoc, List.foldl_append]
    by_cases same : c = '\x27'
    · subst same
      exact ih
    · have once : Text.doubling '\x27' c = [c] := if_neg same
      have step : [c].foldl turn (some '\x27') = some '\x27' := if_neg same
      rw [once, step, ih]

theorem closed_quoteString (text : String) : Closed (Dialect.quoteString text).toList := by
  rw [closed_iff, Dialect.quoteString, Text.quoted, String.toList_ofList]
  exact turn_doubled text.toList

theorem TableRef.expandWith_literal (table : String → String) {a : String}
    (closed : Closed a.toList) (text b : String) :
      expandWith table (a ++ Dialect.quoteString text ++ b) = expandWith table a ++
      Dialect.quoteString text ++ expandWith table b := by
  rw [← String.toList_inj, expandWith, String.toList_ofList, (quoting table).run_literal closed,
    List.map_id, String.toList_append, String.toList_append, expandWith, expandWith,
    String.toList_ofList,
    String.toList_ofList]

def namesOf (s : String) : List String := placeholders (lexemes s.toList)

/-- The bound form of a text, each placeholder with the place of its name among these. -/
def numbered (d : Dialect) (names : List String) (s : String) : String :=
  String.ofList ((lexemes s.toList).flatMap (Lexeme.bound d names))

namespace Binding

theorem namesOf_eq (s : String) : namesOf s = names (tokens s) := by
  rw [namesOf, tokens, run_lexemes, names_lexemes]

theorem numbered_eq (d : Dialect) (ns : List String) (s : String) :
    numbered d ns s = placed d ns.idxOf (tokens s) := by
  rw [numbered, tokens, run_lexemes, placed_lexemes]

theorem bind_eq (s : Statement) (d : Dialect) : s.bind d =
    match (namesOf s.sql).find? fun n => !s.params.contains n with
    | some n => .error (.configuration (.unboundParameter n))
    | none =>
      .ok ⟨numbered d (namesOf s.sql).eraseDups s.sql,
        (namesOf s.sql).eraseDups.map (given s.params)⟩ :=
  s.bind_outcome d

theorem names_chars (cs : List Char) : names (cs.map .char) = [] := by
  simp [names, List.filterMap_map, Function.comp_def, Token.name?]

/-- Behind a closed text it is copied, and lets what follows start anew. -/
def Passes (middle : String) : Prop := ∀ a b : String, Closed a.toList →
  tokens (a ++ middle ++ b) = tokens a ++ middle.toList.map .char ++ tokens b

theorem passes_literal (text : String) : Passes (Dialect.quoteString text) := by
  intro a b closed
  exact quoting.run_literal closed text b

theorem step_blank {s : State} (outside : ∀ q, s ≠ .quoted q) :
    scanner.step s ' ' = (scanner.finish s ++ [.char ' '], .plain) := by
  cases s with
  | plain => rfl
  | colon => rfl
  | name acc => rfl
  | quoted q => exact absurd rfl (outside q)

theorem passes_blank : Passes " " := by
  intro a b closed
  have step := step_blank (quoting.outside_of_closed closed)
  have blank : " ".toList = [' '] := rfl
  have before : scanner.run .plain a.toList =
      scanner.emitted .plain a.toList ++ scanner.finish (scanner.after .plain a.toList) := rfl
  rw [tokens, String.toList_append, String.toList_append, List.append_assoc,
    Scanner.run_append, blank, List.singleton_append, Scanner.run_cons, step, tokens,
    tokens, before]
  simp

section Pieces

variable {middle : String} (passes : Passes middle)

include passes

theorem namesOf_append {a : String} (closed : Closed a.toList) (b : String) :
    namesOf (a ++ middle ++ b) = namesOf a ++ namesOf b := by
  rw [namesOf_eq, passes a b closed, names, List.filterMap_append, List.filterMap_append,
    ← names, ← names, ← names, names_chars, List.append_nil, namesOf_eq, namesOf_eq]

theorem numbered_append (d : Dialect) (ns : List String) {a : String} (closed : Closed a.toList)
    (b : String) :
    numbered d ns (a ++ middle ++ b) = numbered d ns a ++ middle ++ numbered d ns b := by
  rw [numbered_eq, passes a b closed, placed_append, placed_append, placed_chars,
    String.ofList_toList, ← numbered_eq, ← numbered_eq]

theorem namesOf_join {pieces : List String} (closed : ∀ p ∈ pieces.dropLast, Closed p.toList) :
    namesOf (Text.join middle pieces) = pieces.flatMap namesOf := by
  induction pieces with
  | nil => simp [Text.join, namesOf, placeholders, lexemes]
  | cons p rest ih =>
    cases rest with
    | nil => simp [Text.join]
    | cons q rest =>
      obtain ⟨here, later⟩ := List.forall_mem_cons.mp closed
      rw [Text.join, namesOf_append passes here, ih later]
      rfl

theorem numbered_join (d : Dialect) (ns : List String) {pieces : List String}
    (closed : ∀ p ∈ pieces.dropLast, Closed p.toList) :
    numbered d ns (Text.join middle pieces) = Text.join middle (pieces.map (numbered d ns)) := by
  induction pieces with
  | nil => simp [Text.join, numbered, lexemes]
  | cons p rest ih =>
    cases rest with
    | nil => rfl
    | cons q rest =>
      obtain ⟨here, later⟩ := List.forall_mem_cons.mp closed
      rw [Text.join, numbered_append passes d ns here, ih later]
      rfl

/-- Pieces with such a middle between them bind side by side, their names numbered through. -/
theorem bind_join (d : Dialect) (params : Params) {pieces : List String}
    (closed : ∀ p ∈ pieces.dropLast, Closed p.toList) :
    Statement.bind ⟨Text.join middle pieces, params⟩ d =
      match (pieces.flatMap namesOf).find? fun n => !params.contains n with
      | some n => .error (.configuration (.unboundParameter n))
      | none =>
        .ok ⟨Text.join middle (pieces.map (numbered d (pieces.flatMap namesOf).eraseDups)),
          (pieces.flatMap namesOf).eraseDups.map (given params)⟩ := by
  rw [bind_eq, namesOf_join passes closed, numbered_join passes d _ closed]

end Pieces

theorem placed_congr {d : Dialect} {place place' : String → Nat} {ts : List Token}
    (same : ∀ n ∈ names ts, place n = place' n) : placed d place ts = placed d place' ts := by
  induction ts with
  | nil => rfl
  | cons t rest ih =>
    cases t with
    | char c => exact congrArg (String.ofList [c] ++ ·) (ih same)
    | parameter cs =>
      obtain ⟨here, later⟩ :=
        List.forall_mem_cons.mp (same : ∀ n ∈ String.ofList cs :: names rest, _)
      rw [placed, placed, here, ih later]

theorem numbered_first (d : Dialect) (a : String) (more : List String) :
    numbered d (namesOf a ++ more).eraseDups a = numbered d (namesOf a).eraseDups a := by
  rw [numbered_eq, numbered_eq]
  apply placed_congr
  intro n mem
  rw [← namesOf_eq] at mem
  rw [List.eraseDups_append, List.idxOf_append_of_mem (List.mem_eraseDups.mpr mem)]

theorem bind_first {d : Dialect} {params : Params} {a : String} {more : List String}
    (bound : ((namesOf a ++ more).find? fun n => !params.contains n) = none) :
    ∃ values, Statement.bind ⟨a, params⟩ d =
      .ok ⟨numbered d (namesOf a ++ more).eraseDups a, values⟩ ∧
      values <+: (namesOf a ++ more).eraseDups.map (given params) := by
  have here : ((namesOf a).find? fun n => !params.contains n) = none :=
    (List.find?_append.symm.trans bound |> Option.or_eq_none_iff.mp).1
  refine ⟨(namesOf a).eraseDups.map (given params), ?_, ?_⟩
  · rw [bind_eq, here, numbered_first]
  · rw [List.eraseDups_append, List.map_append]
    exact List.prefix_append _ _

end Binding

/-- Between the pieces of a statement a literal binds like a blank: it is copied, and the pieces
come to the same texts and values or fail with the same error. -/
def BindsLikeBlank (d : Dialect) (params : Params) (literal : String) (pieces : List String) :
    Prop :=
  let names := (pieces.flatMap namesOf).eraseDups
  match Statement.bind ⟨Text.join " " pieces, params⟩ d with
  | .error e => Statement.bind ⟨Text.join literal pieces, params⟩ d = .error e
  | .ok x => x.sql = Text.join " " (pieces.map (numbered d names)) ∧
      Statement.bind ⟨Text.join literal pieces, params⟩ d =
        .ok ⟨Text.join literal (pieces.map (numbered d names)), x.values⟩

theorem bindsLikeBlank_literal (d : Dialect) (params : Params) (text : String)
    {pieces : List String} (closed : ∀ p ∈ pieces.dropLast, Closed p.toList) :
    BindsLikeBlank d params (Dialect.quoteString text) pieces := by
  rw [BindsLikeBlank, Binding.bind_join Binding.passes_blank d params closed,
    Binding.bind_join (Binding.passes_literal text) d params closed]
  cases (pieces.flatMap namesOf).find? fun n => !params.contains n with
  | some n => rfl
  | none => exact ⟨rfl, rfl⟩

def openQuote (s : String) : Option Char := s.toList.foldl turn none

theorem openQuote_join {literal : String} (closed : Closed literal.toList) {pieces : List String}
    (each : ∀ p ∈ pieces.dropLast, Closed p.toList) :
    openQuote (Text.join literal pieces) = openQuote (pieces.getLast?.getD "") := by
  induction pieces with
  | nil => rfl
  | cons p rest ih =>
    cases rest with
    | nil => rfl
    | cons q rest =>
      obtain ⟨here, later⟩ := List.forall_mem_cons.mp each
      have before := closed_iff.mp (closed_joined here closed)
      have after := ih later
      rw [openQuote] at after
      rw [Text.join, openQuote, String.toList_append, List.foldl_append, before, after]
      rfl

end Reports.Sql
