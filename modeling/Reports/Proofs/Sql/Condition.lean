import Reports.Proofs.Sql.Expansion
import Reports.Proofs.Sql.PlaceholderName
import Reports.Proofs.Sql.Precedence
import Reports.Sql.Rendering

/-! Conditions with references to tables. Texts that leave no quote open are expanded one by one,
and what a renderer writes between them keeps apart how they are read. -/
namespace Reports.Sql

open Reports.Text (Scanner)
open Precedence (Item Token Holds holds holds_iff isSeparator Tight)

namespace TableRef

def State.isQuoted : State → Bool
  | quoted _ => true
  | _ => false

/-- A text that leaves no quote open. -/
def Closed (cs : List Char) : Prop := ((scanner id).after .plain cs).isQuoted = false

instance (cs : List Char) : Decidable (Closed cs) := inferInstanceAs (Decidable (_ = _))

variable {table : String → String}

theorem after_eq (s : State) (cs : List Char) :
    (scanner table).after s cs = (scanner id).after s cs := by
  induction cs generalizing s with
  | nil => rfl
  | cons c rest ih =>
    have step : ((scanner table).step s c).2 = ((scanner id).step s c).2 := by
      cases s with
      | braced name =>
        simp only [scanner]
        split
        · rfl
        · split <;> rfl
      | _ => rfl
    rw [Scanner.after, Scanner.after, step, ih]

theorem step_separator {s : State} (closed : s.isQuoted = false) {c : Char}
    (separates : isSeparator c = true) :
    (scanner table).step s c = ((scanner table).finish s ++ [c], .plain) := by
  have plain : stepPlain c = ([c], .plain) ∧ Text.isNameStart c = false ∧
      Text.isNameChar c = false ∧ c ≠ '\x7d' := by
    rcases Precedence.separator_cases separates with rfl | rfl | rfl | rfl <;> decide
  obtain ⟨plain, noStart, noName, noBrace⟩ := plain
  cases s with
  | plain => exact plain
  | quoted q => cases closed
  | braced name =>
    have stops : continues name c = false := by
      unfold continues
      split
      · exact noStart
      · exact noName
    rw [step_stops table (fun closes => noBrace closes.1) stops, plain]
    rfl

theorem closed_nil : Closed [] := rfl

theorem closed_separated {a : List Char} (first : Closed a) {c : Char}
    (separates : isSeparator c = true) (b : List Char) : Closed (a ++ c :: b) ↔ Closed b := by
  rw [Closed, Closed, Scanner.after_append, Scanner.after, step_separator first separates]

theorem run_separated {a : List Char} (closed : Closed a) {c : Char}
    (separates : isSeparator c = true) (b : List Char) :
    (scanner table).run .plain (a ++ c :: b) =
      (scanner table).run .plain a ++ c :: (scanner table).run .plain b := by
  have state : ((scanner table).after .plain a).isQuoted = false := by
    rw [after_eq]
    exact closed
  rw [Scanner.run_append, Scanner.run_cons, step_separator state separates]
  simp only [Scanner.run, List.append_assoc, List.singleton_append]

theorem run_of_braceless {s : State} (known : ∀ name, s ≠ .braced name) {cs : List Char}
    (braceless : '\x7b' ∉ cs) : (scanner table).run s cs = cs := by
  induction cs generalizing s with
  | nil =>
    cases s with
    | braced name => exact absurd rfl (known name)
    | _ => rfl
  | cons c rest ih =>
    rw [List.mem_cons, not_or] at braceless
    obtain ⟨here, later⟩ := braceless
    have step : ((scanner table).step s c).1 = [c] ∧
        ∀ name, ((scanner table).step s c).2 ≠ .braced name := by
      cases s with
      | plain =>
        have other : c ≠ '\x7b' := fun same => here same.symm
        simp only [scanner, stepPlain, other, if_false]
        split <;> simp
      | quoted q =>
        refine ⟨rfl, fun name => ?_⟩
        simp only [scanner]
        split <;> simp
      | braced name => exact absurd rfl (known name)
    rw [Scanner.run_cons, step.1, ih step.2 later]
    rfl

theorem toList_expandWith (sql : String) :
    (expandWith table sql).toList = (scanner table).run .plain sql.toList := String.toList_ofList

theorem expandWith_of_braceless {sql : String} (braceless : '\x7b' ∉ sql.toList) :
    expandWith table sql = sql := by
  have plain : ∀ name, State.plain ≠ .braced name := fun name => State.noConfusion
  rw [expandWith, run_of_braceless plain braceless, String.ofList_toList]

theorem expandWith_empty : expandWith table "" = "" := rfl

theorem braced_name (table : String → String) {name cs : List Char} (some : name ≠ [])
    (names : ∀ c ∈ cs, Text.isNameChar c = true) :
    (scanner table).run (.braced name) (cs ++ ['\x7d']) =
        (table (String.ofList (name.reverse ++ cs))).toList ∧
      (scanner table).after (.braced name) (cs ++ ['\x7d']) = .plain := by
  induction cs generalizing name with
  | nil => simp [Scanner.run_cons, Scanner.run_nil, Scanner.after, scanner, some]
  | cons c rest ih =>
    have here := names c List.mem_cons_self
    have noBrace : c ≠ '\x7d' := by
      rintro rfl
      exact absurd here (by decide)
    have goesOn : continues name c = true := by simp [continues, some, here]
    have step : (scanner table).step (.braced name) c = ([], .braced (c :: name)) := by
      simp [scanner, noBrace, goesOn]
    obtain ⟨run, after⟩ :=
      ih (List.cons_ne_nil c name) fun d mem => names d (List.mem_cons_of_mem _ mem)
    constructor
    · rw [List.cons_append, Scanner.run_cons, step, run]
      simp
    · rw [List.cons_append, Scanner.after, step, after]

theorem braced (table : String → String) {name : String}
    (named : Text.isName name.toList = true) :
    expandWith table ("\x7b" ++ name ++ "\x7d") = table name ∧
      Closed ("\x7b" ++ name ++ "\x7d").toList := by
  cases chars : name.toList with
  | nil =>
    rw [chars] at named
    cases named
  | cons c cs =>
    rw [chars, Text.isName, Bool.and_eq_true, List.all_eq_true] at named
    obtain ⟨start, names⟩ := named
    have text : ("\x7b" ++ name ++ "\x7d").toList = '\x7b' :: c :: (cs ++ ['\x7d']) := by
      simp [chars]
    have noBrace : c ≠ '\x7d' := by
      rintro rfl
      exact absurd start (by decide)
    have opened (table : String → String) :
        (scanner table).step .plain '\x7b' = ([], .braced []) := rfl
    have started (table : String → String) :
        (scanner table).step (.braced []) c = ([], .braced [c]) := by
      simp [scanner, continues, start]
    constructor
    · obtain ⟨run, -⟩ := braced_name table (List.cons_ne_nil c []) names
      rw [← String.toList_inj, toList_expandWith, text, Scanner.run_cons, opened,
        Scanner.run_cons, started, run]
      simp [← chars]
    · obtain ⟨-, after⟩ := braced_name id (List.cons_ne_nil c []) names
      rw [Closed, text, Scanner.after, opened, Scanner.after, started, after]
      rfl

section Blank

variable {a b : String}

theorem toList_blank : (a ++ " " ++ b).toList = a.toList ++ ' ' :: b.toList := by simp

theorem closed_blank (first : Closed a.toList) :
    Closed (a ++ " " ++ b).toList ↔ Closed b.toList := by
  rw [toList_blank]
  exact closed_separated first (by decide) _

theorem expandWith_blank (closed : Closed a.toList) :
    expandWith table (a ++ " " ++ b) = expandWith table a ++ " " ++ expandWith table b := by
  rw [← String.toList_inj, toList_expandWith, toList_blank, run_separated closed (by decide)]
  simp [toList_expandWith]

end Blank

end TableRef

open TableRef (expandWith toList_expandWith Closed closed_nil closed_separated run_separated)

/-- A text that leaves no quote open, and how it is read with tables for its references. -/
structure Reads (table : String → String) (text : String) (is : List Item) : Prop where
  closed : Closed text.toList
  read : Precedence.read (expandWith table text) = some is

/-- A text that no AND beside it breaks up. -/
def ReadsTight (table : String → String) (text : String) : Prop :=
  ∃ is, Reads table text is ∧ is ≠ [] ∧ Tight is

variable {table : String → String} {a b : String} {is js : List Item}

namespace Reads

theorem separated (first : Reads table a is) (second : Reads table b js) :
    Reads table (a ++ " " ++ b) (is ++ js) := by
  constructor
  · exact (TableRef.closed_blank first.closed).mpr second.closed
  · rw [TableRef.expandWith_blank first.closed]
    exact Precedence.read_separated first.read second.read

theorem listed (first : Reads table a is) (second : Reads table b js) :
    Reads table (a ++ "," ++ b) (is ++ .plain (.symbol ',') :: js) := by
  have chars : (a ++ "," ++ b).toList = a.toList ++ ',' :: b.toList := by simp
  have expanded :
      expandWith table (a ++ "," ++ b) = expandWith table a ++ "," ++ expandWith table b := by
    rw [← String.toList_inj, toList_expandWith, chars, run_separated first.closed (by decide)]
    simp [toList_expandWith]
  constructor
  · rw [chars]
    exact (closed_separated first.closed (by decide) _).mpr second.closed
  · rw [expanded]
    exact Precedence.read_listed first.read second.read

theorem expandWith_parenthesized (closed : Closed a.toList) :
    expandWith table ("(" ++ a ++ ")") = "(" ++ expandWith table a ++ ")" := by
  have chars : ("(" ++ a ++ ")").toList = [] ++ '(' :: (a.toList ++ ')' :: []) := by simp
  rw [← String.toList_inj, toList_expandWith, chars, run_separated closed_nil (by decide),
    run_separated closed (by decide)]
  simp [toList_expandWith, Scanner.run_nil, TableRef.scanner]

theorem parenthesized (inner : Reads table a is) :
    Reads table ("(" ++ a ++ ")") [.group .parentheses is] := by
  constructor
  · have chars : ("(" ++ a ++ ")").toList = [] ++ '(' :: (a.toList ++ ')' :: []) := by simp
    rw [chars, closed_separated closed_nil (by decide), closed_separated inner.closed (by decide)]
    exact closed_nil
  · rw [expandWith_parenthesized inner.closed]
    exact Precedence.read_parenthesized inner.read

theorem of_braceless (braceless : '\x7b' ∉ a.toList) (closed : Closed a.toList)
    (reads : Precedence.read a = some is) : Reads table a is := by
  refine ⟨closed, ?_⟩
  rw [TableRef.expandWith_of_braceless braceless]
  exact reads

theorem braced {name : String} (named : Text.isName name.toList = true)
    (reads : Precedence.read (table name) = some is) :
    Reads table ("\x7b" ++ name ++ "\x7d") is := by
  constructor
  · exact (TableRef.braced table named).2
  · rw [(TableRef.braced table named).1]
    exact reads

theorem empty : Reads table "" [] := of_braceless (by decide) rfl rfl

theorem conjunction (c : Conjunction) :
    Reads table c.sql [match c with | .and => .and | .or => .or] := by
  cases c with
  | and =>
    have tokens : Precedence.tokens "AND".toList = [.word ['A', 'N', 'D']] := by decide
    refine of_braceless (by decide) (by decide) ?_
    rw [Conjunction.sql, Precedence.read, tokens]
    rfl
  | or =>
    have tokens : Precedence.tokens "OR".toList = [.word ['O', 'R']] := by decide
    refine of_braceless (by decide) (by decide) ?_
    rw [Conjunction.sql, Precedence.read, tokens]
    rfl

end Reads

theorem ReadsTight.separated (first : ReadsTight table a) (second : ReadsTight table b) :
    ReadsTight table (a ++ " " ++ b) := by
  obtain ⟨is, reads, some, tight⟩ := first
  obtain ⟨js, reads', -, tight'⟩ := second
  refine ⟨is ++ js, reads.separated reads', by simp [some], fun i mem => ?_⟩
  rcases List.mem_append.mp mem with left | right
  · exact tight i left
  · exact tight' i right

theorem ReadsTight.parenthesized (inner : Reads table a is) : ReadsTight table ("(" ++ a ++ ")") :=
  ⟨_, inner.parenthesized, by simp, Precedence.tight_group _ is⟩

def isReadable (text : String) : Bool :=
  !text.toList.contains '\x7b' && decide (Closed text.toList) && (Precedence.read text).isSome

def isTight (text : String) : Bool :=
  isReadable text && (Precedence.read text).any fun is => !is.isEmpty && is.all fun i => !i.isOr

theorem Reads.of_isReadable (readable : isReadable a = true) (found : Precedence.read a = some is) :
    Reads table a is := by
  simp only [isReadable, Bool.and_eq_true, Bool.not_eq_true', List.contains_eq_mem,
    decide_eq_false_iff_not, decide_eq_true_eq] at readable
  obtain ⟨⟨braceless, closed⟩, -⟩ := readable
  exact .of_braceless braceless closed found

theorem exists_reads (readable : isReadable a = true) : ∃ is, Reads table a is := by
  have read := readable
  rw [isReadable, Bool.and_eq_true] at read
  obtain ⟨is, found⟩ := Option.isSome_iff_exists.mp read.2
  exact ⟨is, .of_isReadable readable found⟩

theorem readsTight_of_isTight (tight : isTight a = true) : ReadsTight table a := by
  rw [isTight, Bool.and_eq_true] at tight
  obtain ⟨readable, tight⟩ := tight
  cases found : Precedence.read a with
  | none =>
    rw [found] at tight
    cases tight
  | some is =>
    rw [found] at tight
    simp only [Option.any_some, Bool.and_eq_true, Bool.not_eq_true', List.all_eq_true,
      List.isEmpty_eq_false_iff] at tight
    exact ⟨is, .of_isReadable readable found, tight⟩

theorem after_names {cs : List Char} (names : ∀ c ∈ cs, Text.isNameChar c = true) :
    (TableRef.scanner id).after .plain cs = .plain := by
  induction cs with
  | nil => rfl
  | cons c rest ih =>
    have step : (TableRef.scanner id).step .plain c = ([c], .plain) :=
      TableRef.stepPlain_of_isNameChar (names c List.mem_cons_self)
    rw [Scanner.after, step]
    exact ih fun d mem => names d (List.mem_cons_of_mem _ mem)

theorem tokens_word {cs : List Char} (parts : ∀ c ∈ cs, Precedence.isWordPart c = true)
    (acc : List Char) : Precedence.lexer.run (.word acc) cs = [.word (acc.reverse ++ cs)] := by
  induction cs generalizing acc with
  | nil => simp [Scanner.run_nil, Precedence.lexer]
  | cons c rest ih =>
    have step : Precedence.lexer.step (.word acc) c = ([], .word (c :: acc)) := by
      simp [Precedence.lexer, parts c List.mem_cons_self]
    rw [Scanner.run_cons, step]
    simpa using ih (fun d mem => parts d (List.mem_cons_of_mem _ mem)) (c :: acc)

theorem readsTight_placeholder (n : Nat) : ReadsTight table (":" ++ placeholderName n) := by
  have names : ∀ c ∈ (placeholderName n).toList, Text.isNameChar c = true := fun c mem =>
    isNameChar_of_mem_placeholderName mem
  have chars : (":" ++ placeholderName n).toList = ':' :: (placeholderName n).toList := by simp
  have braceless : '\x7b' ∉ (":" ++ placeholderName n).toList := by
    rw [chars, List.mem_cons, not_or]
    exact ⟨by decide, fun mem => absurd (names _ mem) (by decide)⟩
  have closed : Closed (":" ++ placeholderName n).toList := by
    rw [chars, Closed, Scanner.after]
    exact congrArg _ (after_names names)
  have word : Precedence.tokens (":" ++ placeholderName n).toList =
      [.word (':' :: (placeholderName n).toList)] := by
    have first : Precedence.lexer.step .plain ':' = ([], .word [':']) := by decide
    rw [chars, Precedence.tokens, Scanner.run_cons, first]
    refine tokens_word (fun c mem => ?_) [':']
    simp [Precedence.isWordPart, Text.isWordChar_of_isNameChar (names c mem)]
  -- No keyword begins with a colon.
  have plain : (Token.word (':' :: (placeholderName n).toList)).role = .plain := by
    have other (keyword : String) (start : keyword.toList.head? ≠ some ':') :
        Text.upper (String.ofList (':' :: (placeholderName n).toList)) ≠ keyword := by
      rintro rfl
      exact start (by simp [Text.upper, Text.upperChar])
    simp only [Token.role]
    rw [if_neg (other _ (by decide)), if_neg (other _ (by decide)), if_neg (other _ (by decide)),
      if_neg (other _ (by decide)), if_neg (other _ (by decide))]
  refine ⟨[.plain (.word (':' :: (placeholderName n).toList))], .of_braceless braceless closed ?_,
    by simp, fun i mem => ?_⟩
  · rw [Precedence.read, word, Precedence.items?_eq_some]
    simp [Precedence.push, plain]
  · rw [List.mem_singleton.mp mem]
    rfl

end Reports.Sql
