import Reports.Proofs.List
import Reports.Proofs.Sql.Delivery
import Reports.Proofs.Sql.Quoting

/-! The grammar of statements that binding reads: quoted stretches, casts, placeholders, and all
other characters one by one. Binding numbers the names of the placeholders in order of
appearance. -/
namespace Reports.Sql

open TableRef (isQuote)

inductive Lexeme
  | quoted (text : List Char)
  | cast
  | placeholder (name : List Char)
  | other (c : Char)
  deriving DecidableEq

namespace Lexeme

def text : Lexeme → List Char
  | quoted t => t
  | cast => [':', ':']
  | placeholder name => ':' :: name
  | other c => [c]

def name? : Lexeme → Option String
  | placeholder name => some (String.ofList name)
  | _ => none

def bound (d : Dialect) (names : List String) : Lexeme → List Char
  | placeholder name => (d.positional (names.idxOf (String.ofList name) + 1)).toList
  | l => l.text

def tokens : Lexeme → List Binding.Token
  | placeholder name => [.parameter name]
  | l => l.text.map .char

end Lexeme

/-- A text taken apart from left to right. A name is as long as it can be. -/
def lexemes : List Char → List Lexeme
  | [] => []
  | c :: rest =>
    if isQuote c then .quoted (c :: Quoted.inside c rest) :: lexemes (Quoted.behind c rest)
    else if c = ':' then
      match rest with
      | [] => [.other ':']
      | d :: later =>
        if d = ':' then .cast :: lexemes later
        else if Text.isNameStart d then
          .placeholder (d :: later.takeWhile Text.isNameChar) ::
            lexemes (later.dropWhile Text.isNameChar)
        else .other ':' :: lexemes (d :: later)
    else .other c :: lexemes rest
termination_by cs => cs.length
decreasing_by
  · have shorter := Quoted.length_behind_le c rest
    simp only [List.length_cons]
    omega
  · simp only [List.length_cons]
    omega
  · have shorter := (List.dropWhile_sublist (l := later) Text.isNameChar).length_le
    simp only [List.length_cons]
    omega
  · simp
  · simp

/-- The names of the placeholders, as often as they stand. -/
def placeholders (ls : List Lexeme) : List String := ls.filterMap Lexeme.name?

theorem lexemes_quote {q : Char} (quote : isQuote q = true) (rest : List Char) :
    lexemes (q :: rest) = .quoted (q :: Quoted.inside q rest) ::
      lexemes (Quoted.behind q rest) := by
  cases rest <;> simp [lexemes, quote]

theorem lexemes_other {c : Char} (none : isQuote c = false) (other : c ≠ ':') (rest : List Char) :
    lexemes (c :: rest) = .other c :: lexemes rest := by
  cases rest <;> simp [lexemes, none, other]

theorem flatMap_text_lexemes (cs : List Char) : (lexemes cs).flatMap Lexeme.text = cs := by
  fun_induction lexemes cs with
  | case1 => rfl
  | case2 c rest quote ih => simp [Lexeme.text, ih, Quoted.inside_append_behind]
  | case3 => rfl
  | case4 later _ ih => simp [Lexeme.text, ih]
  | case5 d later _ start _ ih => simp [Lexeme.text, ih]
  | case6 d later _ start _ ih => simp [Lexeme.text, ih]
  | case7 c rest quote colon ih => simp [Lexeme.text, ih]

namespace Binding

open Reports.Text (Scanner)

theorem run_lexemes (cs : List Char) :
    scanner.run .plain cs = (lexemes cs).flatMap Lexeme.tokens := by
  have colon (rest : List Char) : scanner.run .plain (':' :: rest) = scanner.run .colon rest :=
    Scanner.run_cons _ _ _ _
  fun_induction lexemes cs with
  | case1 => rfl
  | case2 c rest quote ih =>
    rw [List.flatMap_cons, ← ih]
    exact quoting.run_cut (p := []) (fun _ mem => nomatch mem) quote rest
  | case3 => rfl
  | case4 later _ ih =>
    rw [colon, Scanner.run_cons, List.flatMap_cons, ← ih]
    rfl
  | case5 d later noColon start _ ih =>
    have step : scanner.step .colon d = ([], .name [d]) := by simp [scanner, noColon, start]
    rw [colon, Scanner.run_cons, step, run_nameFrom, List.flatMap_cons, ← ih]
    rfl
  | case6 d later noColon start _ ih =>
    have step : scanner.step .colon d = (.char ':' :: (stepPlain d).1, (stepPlain d).2) := by
      simp [scanner, noColon, start]
    have plain : scanner.step .plain d = stepPlain d := rfl
    rw [colon, Scanner.run_cons, step, List.flatMap_cons, ← ih, Scanner.run_cons, plain]
    rfl
  | case7 c rest quote other ih =>
    have neither : ¬(c = '\x27' ∨ c = '\x22') := by simpa [isQuote] using quote
    have step : scanner.step .plain c = ([.char c], .plain) := by
      simp only [scanner, stepPlain, other, neither, if_false]
    rw [Scanner.run_cons, step, List.flatMap_cons, ← ih]
    rfl

section Numbering

variable {d : Dialect} {params : Params} {seen : List String}

def given (params : Params) (name : String) : Json := (params.get? name).getD .null

/-- Names with their values, as binding keeps those it has seen. -/
def valued (params : Params) (names : List String) : List (String × Json) :=
  names.map fun n => (n, given params n)

theorem rank?_valued (name : String) :
    rank? name (valued params seen) = if name ∈ seen then some (seen.idxOf name) else none := by
  induction seen with
  | nil => rfl
  | cons n rest ih =>
    have later : rank? name (valued params rest) =
        if name ∈ rest then some (rest.idxOf name) else none := ih
    by_cases same : n = name
    · simp [valued, rank?, same]
    · have other : name ≠ n := fun h => same h.symm
      rw [valued, List.map_cons, rank?, if_neg same]
      change (rank? name (valued params rest)).map (· + 1) = _
      rw [later, List.idxOf_cons_ne _ same]
      by_cases mem : name ∈ rest
      · simp [mem]
      · simp [mem, other]

/-- Binding goes on with the places of all names, or stops at the first that has no value. -/
theorem resolve_outcome (ts : List Token) (distinct : seen.Nodup)
    (known : ∀ n ∈ seen, params.contains n = true) :
    resolve d params (valued params seen) ts =
      match (names ts).find? fun n => !params.contains n with
      | some n => .error (.configuration (.unboundParameter n))
      | none => .ok ⟨placed d (seen ++ names ts).eraseDups.idxOf ts,
          (seen ++ names ts).eraseDups.map (given params)⟩ := by
  induction ts generalizing seen with
  | nil =>
    have whole := List.eraseDups_of_nodup distinct
    simp [resolve, names, placed, valued, whole, Function.comp_def]
  | cons t rest ih =>
    cases t with
    | char c =>
      have skip : names (.char c :: rest) = names rest := rfl
      rw [resolve, ih distinct known, skip]
      cases (names rest).find? fun n => !params.contains n <;> rfl
    | parameter cs =>
      have cons : names (.parameter cs :: rest) = String.ofList cs :: names rest := rfl
      rw [resolve, rank?_valued, cons]
      by_cases mem : String.ofList cs ∈ seen
      · have place := List.idxOf_eraseDups_append distinct mem (names rest)
        have same := List.eraseDups_append_cons_of_mem mem (names rest)
        simp only [mem, if_true, ih distinct known, same, known _ mem,
          Bool.not_true, List.find?_cons]
        cases (names rest).find? fun n => !params.contains n with
        | some n => rfl
        | none => simp only [placed, place]; rfl
      · simp only [mem, if_false]
        cases found : params.get? (String.ofList cs) with
        | none => simp [OrderedMap.contains, found]
        | some v =>
          have value : given params (String.ofList cs) = v := by simp [given, found]
          have contained : params.contains (String.ofList cs) = true := by
            simp [OrderedMap.contains, found]
          have grown : valued params seen ++ [(String.ofList cs, v)] =
              valued params (seen ++ [String.ofList cs]) := by simp [valued, value]
          have distinct' : (seen ++ [String.ofList cs]).Nodup :=
            List.concat_eq_append ▸ distinct.concat mem
          have known' : ∀ n ∈ seen ++ [String.ofList cs], params.contains n = true := by
            intro n h
            rcases List.mem_append.mp h with h | h
            · exact known n h
            · rw [List.mem_singleton.mp h, contained]
          have place := List.idxOf_eraseDups_append distinct'
            (List.mem_append_right seen List.mem_cons_self) (names rest)
          rw [List.idxOf_append_of_notMem mem, List.idxOf_cons_self, Nat.add_zero] at place
          rw [List.append_assoc, List.singleton_append] at place
          simp only [grown, ih distinct' known', contained, Bool.not_true, List.find?_cons,
            List.append_assoc, List.singleton_append]
          cases (names rest).find? fun n => !params.contains n with
          | some n => rfl
          | none => simp only [placed, place, valued, List.length_map]; rfl

end Numbering

theorem names_lexemes (ls : List Lexeme) : names (ls.flatMap Lexeme.tokens) = placeholders ls := by
  have chars (cs : List Char) : names (cs.map .char) = [] := by
    simp [names, List.filterMap_map, Function.comp_def, Token.name?]
  induction ls with
  | nil => rfl
  | cons l rest ih =>
    rw [List.flatMap_cons, names, List.filterMap_append]
    change names l.tokens ++ names (rest.flatMap Lexeme.tokens) = _
    rw [ih]
    cases l with
    | placeholder name => rfl
    | quoted t => exact congrArg (· ++ placeholders rest) (chars t)
    | cast => rfl
    | other c => rfl

theorem placed_append (d : Dialect) (place : String → Nat) (ts us : List Token) :
    placed d place (ts ++ us) = placed d place ts ++ placed d place us := by
  induction ts with
  | nil => exact (String.empty_append).symm
  | cons t rest ih => cases t <;> simp [placed, ih, String.append_assoc]

theorem placed_chars (d : Dialect) (place : String → Nat) (cs : List Char) :
    placed d place (cs.map .char) = String.ofList cs := by
  induction cs with
  | nil => rfl
  | cons c rest ih =>
    rw [List.map_cons, placed, ih, ← String.ofList_append, List.singleton_append]

theorem placed_lexemes (d : Dialect) (names : List String) (ls : List Lexeme) :
    placed d names.idxOf (ls.flatMap Lexeme.tokens) =
      String.ofList (ls.flatMap (Lexeme.bound d names)) := by
  induction ls with
  | nil => rfl
  | cons l rest ih =>
    rw [List.flatMap_cons, List.flatMap_cons, placed_append, ih, String.ofList_append]
    cases l with
    | placeholder name => simp [Lexeme.tokens, Lexeme.bound, placed]
    | quoted t => exact congrArg (· ++ _) (placed_chars d _ t)
    | cast => exact congrArg (· ++ _) (placed_chars d _ [':', ':'])
    | other c => exact congrArg (· ++ _) (placed_chars d _ [c])

def outcome (d : Dialect) (ls : List Lexeme) (params : Params) : Except Error Bound :=
  match (placeholders ls).find? fun n => !params.contains n with
  | some n => .error (.configuration (.unboundParameter n))
  | none => .ok ⟨String.ofList (ls.flatMap (Lexeme.bound d (placeholders ls).eraseDups)),
      (placeholders ls).eraseDups.map (given params)⟩

theorem outcome_congr {ls : List Lexeme} {params others : Params}
    (agree : ∀ name ∈ placeholders ls, others.get? name = params.get? name) :
    outcome d ls others = outcome d ls params := by
  have contains : ∀ name ∈ placeholders ls, others.contains name = params.contains name :=
    fun name mem => by rw [OrderedMap.contains, OrderedMap.contains, agree name mem]
  have missing : ((placeholders ls).find? fun n => !others.contains n) =
      (placeholders ls).find? fun n => !params.contains n := by
    rw [← List.head?_filter, ← List.head?_filter,
      List.filter_congr fun name mem => by rw [contains name mem]]
  have values : (placeholders ls).eraseDups.map (given others) =
      (placeholders ls).eraseDups.map (given params) :=
    List.map_congr_left fun name mem => by rw [given, given, agree name (List.mem_eraseDups.mp mem)]
  rw [outcome, outcome, missing, values]

end Binding

namespace Statement

variable (s : Statement) (d : Dialect)

def lexemes : List Lexeme := Sql.lexemes s.sql.toList

/-- The names of the placeholders of a statement, as often as they stand. -/
def placeholders : List String := Sql.placeholders s.lexemes

theorem bind_outcome : s.bind d = Binding.outcome d s.lexemes s.params := by
  have start : Binding.valued s.params [] = [] := rfl
  rw [bind, Binding.tokens, Binding.run_lexemes, ← start,
    Binding.resolve_outcome _ List.nodup_nil (fun n mem => absurd mem List.not_mem_nil),
    Binding.names_lexemes, List.nil_append, Binding.placed_lexemes]
  rfl

/-- Binding follows the grammar. It fails at the first placeholder without a value; otherwise each
placeholder becomes the position at which its name came up first, every other lexeme stays as it is,
and the values are those of the distinct names in this order. -/
theorem bind_grammar :
    s.lexemes.flatMap Lexeme.text = s.sql.toList ∧
    ((∃ b, s.bind d = .ok b) ↔ ∀ name ∈ s.placeholders, s.params.contains name = true) ∧
    (∀ e, s.bind d = .error e ↔ ∃ name,
      s.placeholders.find? (fun n => !s.params.contains n) = some name ∧
        e = .configuration (.unboundParameter name)) ∧
    (∀ b, s.bind d = .ok b →
      b.sql.toList = s.lexemes.flatMap (Lexeme.bound d s.placeholders.eraseDups) ∧
      b.values.map some = s.placeholders.eraseDups.map s.params.get?) ∧
    ∀ others : Params, (∀ name ∈ s.placeholders, others.get? name = s.params.get? name) →
      Statement.bind ⟨s.sql, others⟩ d = s.bind d := by
  have all : (s.placeholders.find? fun n => !s.params.contains n) = none ↔
      ∀ name ∈ s.placeholders, s.params.contains name = true := by simp
  have whole : s.bind d = match s.placeholders.find? fun n => !s.params.contains n with
      | some n => .error (.configuration (.unboundParameter n))
      | none =>
        .ok ⟨_, s.placeholders.eraseDups.map (Binding.given s.params)⟩ := s.bind_outcome d
  refine ⟨flatMap_text_lexemes _, ?_, ?_, ?_, ?_⟩
  · rw [whole, ← all]
    cases s.placeholders.find? fun n => !s.params.contains n <;> simp
  · intro e
    rw [whole]
    cases s.placeholders.find? fun n => !s.params.contains n <;> simp [eq_comm]
  · intro b bound
    rw [whole] at bound
    cases missing : s.placeholders.find? fun n => !s.params.contains n with
    | some n =>
      rw [missing] at bound
      cases bound
    | none =>
      rw [missing] at bound
      cases bound
      refine ⟨String.toList_ofList, ?_⟩
      rw [List.map_map]
      refine List.map_congr_left fun name mem => ?_
      have contained := all.mp missing name (List.mem_eraseDups.mp mem)
      obtain ⟨v, found⟩ := Option.isSome_iff_exists.mp contained
      simp [Binding.given, found]
  · intro others agree
    rw [bind_outcome, bind_outcome]
    exact Binding.outcome_congr agree

/-- Colons as casts, in quotes, before a digit and at the end. -/
def crowded : Statement :=
  ⟨"SELECT x::int, ':c', t[1:2] FROM t WHERE b = :b AND a IN (:a, :b) AND \":d\"\" = ':e:",
    .ofList
    [("a", .string "A"), ("c", .null), ("b", .string "B")]⟩

theorem bind_grammar_crowded : ∃ b, crowded.bind .postgres = .ok b ∧
    b.sql =
      "SELECT x::int, ':c', t[1:2] FROM t WHERE b = $1 AND a IN ($2, $1) AND \":d\"\" = ':e:" ∧
    b.values.map some = [some (.string "B"), some (.string "A")] := by
  obtain ⟨-, succeeds, -, result, -⟩ := crowded.bind_grammar .postgres
  have names : crowded.placeholders = ["b", "a", "b"] := by decide +kernel
  obtain ⟨b, bound⟩ := succeeds.mpr (by rw [names]; decide)
  obtain ⟨sql, values⟩ := result b bound
  refine ⟨b, bound, ?_, ?_⟩
  · rw [← String.toList_inj, sql, names]
    decide +kernel
  · rw [values, names]
    rfl

end Statement

end Reports.Sql
