import Reports.Proofs.List
import Reports.Text.Scanner
import Reports.Sql.TableRef
import Reports.Text.Basic
import Reports.Text.Word

/-! How SQL reads a condition. Its text is cut into tokens, brackets are matched, and then OR binds
least, AND binds more, and what stands between them is atomic unless it is one condition in
parentheses. -/
namespace Reports.Sql.Precedence

open Reports.Text (Scanner)

inductive Token
  | word (chars : List Char)
  | symbol (c : Char)
  | quoted (quote : Char) (chars : List Char)
  /-- A comment begins, or a quote is not closed. -/
  | broken
  deriving DecidableEq, Repr

inductive Lexing
  | plain
  | word (acc : List Char)
  | symbol (c : Char)
  | quoted (quote : Char) (acc : List Char)
  deriving DecidableEq, Repr

namespace Lexing

def isQuoted : Lexing → Bool
  | quoted _ _ => true
  | _ => false

end Lexing

/-- Names with the names of their tables, numbers, placeholders. -/
def isWordPart (c : Char) : Bool := Text.isWordChar c || c == '.' || c == ':' || c == '$'

def beginsComment (a b : Char) : Bool := (a == '-' && b == '-') || (a == '/' && b == '*')

def stepPlain (c : Char) : List Token × Lexing :=
  if TableRef.isQuote c then ([], .quoted c [])
  else if isWordPart c then ([], .word [c])
  else if Text.isBlank c then ([], .plain)
  else ([.symbol c], .symbol c)

def lexer : Scanner Lexing Token where
  step
    | .plain, c => stepPlain c
    | .word acc, c =>
      if isWordPart c then ([], .word (c :: acc))
      else (.word acc.reverse :: (stepPlain c).1, (stepPlain c).2)
    | .symbol a, c => if beginsComment a c then ([.broken], .plain) else stepPlain c
    | .quoted q acc, c =>
      if c = q then ([.quoted q acc.reverse], .plain) else ([], .quoted q (c :: acc))
  finish
    | .word acc => [.word acc.reverse]
    | .quoted _ _ => [.broken]
    | _ => []

def tokens (cs : List Char) : List Token := lexer.run .plain cs

def isSeparator (c : Char) : Bool := c == ' ' || c == '(' || c == ')' || c == ','

def mark (c : Char) : List Token := if c = ' ' then [] else [.symbol c]

theorem separator_cases {c : Char} (separates : isSeparator c = true) :
    c = ' ' ∨ c = '(' ∨ c = ')' ∨ c = ',' := by
  simpa [isSeparator, or_assoc] using separates

theorem step_separator {s : Lexing} (closed : s.isQuoted = false) {c : Char}
    (separates : isSeparator c = true) :
    lexer.step s c = (lexer.finish s ++ mark c, (stepPlain c).2) := by
  have plain : stepPlain c = (mark c, (stepPlain c).2) ∧ isWordPart c = false ∧
      ∀ a, beginsComment a c = false := by
    rcases separator_cases separates with rfl | rfl | rfl | rfl <;>
      exact ⟨by decide, by decide, fun a => by simp [beginsComment]⟩
  obtain ⟨plain, noWord, noComment⟩ := plain
  cases s with
  | plain => exact plain
  | word acc => simp only [lexer, noWord, Bool.false_eq_true, if_false]; rw [plain]; rfl
  | symbol a => simp only [lexer, noComment, Bool.false_eq_true, if_false]; exact plain
  | quoted q acc => cases closed

theorem run_separator {c : Char} (separates : isSeparator c = true) (cs : List Char) :
    lexer.run (stepPlain c).2 cs = tokens cs := by
  have state : (stepPlain c).2 = .plain ∨ ∃ a, (stepPlain c).2 = .symbol a ∧
      ∀ b, beginsComment a b = false := by
    rcases separator_cases separates with rfl | rfl | rfl | rfl
    · exact .inl (by decide)
    all_goals exact .inr ⟨_, rfl, fun b => by simp [beginsComment]⟩
  rcases state with state | ⟨a, state, noComment⟩
  · rw [state]
    rfl
  · rw [state]
    -- A separator is a symbol that begins no comment, so the next character is read as after a
    -- blank.
    cases cs with
    | nil => rfl
    | cons b rest =>
      have step : lexer.step (.symbol a) b = lexer.step .plain b := by
        simp only [lexer, noComment, Bool.false_eq_true, if_false]
      rw [tokens, Scanner.run_cons, Scanner.run_cons, step]

theorem tokens_append {a : List Char} (closed : (lexer.after .plain a).isQuoted = false) {c : Char}
    (separates : isSeparator c = true) (b : List Char) :
    tokens (a ++ c :: b) = tokens a ++ mark c ++ tokens b := by
  rw [tokens, Scanner.run_append, Scanner.run_cons, step_separator closed separates,
    run_separator separates]
  simp only [tokens, Scanner.run, List.append_assoc]

/-- What holds conditions together: besides parentheses also CASE with its END, and BETWEEN with
the AND that belongs to it. -/
inductive Bracket
  | parentheses
  | cases
  | between
  deriving DecidableEq, Repr

inductive Item
  | plain (t : Token)
  | and
  | or
  | group (kind : Bracket) (items : List Item)

inductive Role
  | opens (kind : Bracket)
  | closes (kind : Bracket)
  | and
  | or
  | plain
  | broken
  deriving DecidableEq, Repr

def Token.role : Token → Role
  | symbol '(' => .opens .parentheses
  | symbol ')' => .closes .parentheses
  | symbol _ => .plain
  | quoted _ _ => .plain
  | broken => .broken
  | word chars =>
    let keyword := Text.upper (String.ofList chars)
    if keyword = "AND" then .and
    else if keyword = "OR" then .or
    else if keyword = "BETWEEN" then .opens .between
    else if keyword = "CASE" then .opens .cases
    else if keyword = "END" then .closes .cases
    else .plain

/-- What was read so far: items, and brackets that are open. -/
inductive Entry
  | item (i : Item)
  | opened (kind : Bracket)

def innermost : List Entry → Option Bracket
  | [] => none
  | .opened kind :: _ => some kind
  | .item _ :: rest => innermost rest

def unwind (acc : List Item) : List Entry → Option (List Item × Bracket × List Entry)
  | [] => none
  | .opened kind :: rest => some (acc, kind, rest)
  | .item i :: rest => unwind (i :: acc) rest

def close (kind : Bracket) (entries : List Entry) : Option (List Entry) :=
  match unwind [] entries with
  | some (items, opened, rest) =>
    if opened = kind then some (.item (.group kind items) :: rest) else none
  | none => none

def push (entries : List Entry) (t : Token) : Option (List Entry) :=
  match t.role with
  | .opens kind => some (.opened kind :: entries)
  | .closes kind => close kind entries
  | .and => if innermost entries = some .between then close .between entries
    else some (.item .and :: entries)
  | .or => some (.item .or :: entries)
  | .plain => some (.item (.plain t) :: entries)
  | .broken => none

def finished (acc : List Item) : List Entry → Option (List Item)
  | [] => some acc
  | .item i :: rest => finished (i :: acc) rest
  | .opened _ :: _ => none

def items? (ts : List Token) : Option (List Item) := (ts.foldlM push []).bind (finished [])

/-- Reads a text, if brackets match and quotes are closed and it has no comments. -/
def read (text : String) : Option (List Item) := items? (tokens text.toList)

theorem collect_items {β : Type} (f : List Item → List Entry → β)
    (step : ∀ acc i rest, f acc (.item i :: rest) = f (i :: acc) rest) (acc is : List Item)
    (base : List Entry) : f acc (is.reverse.map .item ++ base) = f (is ++ acc) base := by
  induction is generalizing acc base with
  | nil => rfl
  | cons i rest ih =>
    rw [List.reverse_cons, List.map_append, List.append_assoc, ih]
    exact step _ _ _

theorem eq_of_finished {acc : List Item} {entries : List Entry} {is : List Item}
    (h : finished acc entries = some is) :
    ∃ js, entries = js.reverse.map .item ∧ is = js ++ acc := by
  induction entries generalizing acc with
  | nil => exact ⟨[], rfl, by simpa [finished] using h.symm⟩
  | cons e rest ih =>
    cases e with
    | opened kind => cases h
    | item i =>
      obtain ⟨js, rfl, rfl⟩ := ih h
      exact ⟨js ++ [i], by simp, by simp⟩

theorem items?_eq_some {ts : List Token} {is : List Item} :
    items? ts = some is ↔ ts.foldlM push [] = some (is.reverse.map .item) := by
  constructor
  · intro h
    obtain ⟨entries, folded, done⟩ := Option.bind_eq_some_iff.mp h
    obtain ⟨js, rfl, rfl⟩ := eq_of_finished done
    simpa using folded
  · intro folded
    have done := collect_items finished (fun _ _ _ => rfl) [] is []
    rw [List.append_nil, List.append_nil] at done
    rw [items?, folded]
    exact done

theorem unwind_append {acc items : List Item} {entries rest : List Entry} {kind : Bracket}
    (h : unwind acc entries = some (items, kind, rest)) (base : List Entry) :
    unwind acc (entries ++ base) = some (items, kind, rest ++ base) := by
  induction entries generalizing acc with
  | nil => cases h
  | cons e later ih =>
    cases e with
    | opened kind' =>
      cases h
      rfl
    | item i => exact ih h

theorem close_append {entries next : List Entry} {kind : Bracket}
    (h : close kind entries = some next) (base : List Entry) :
    close kind (entries ++ base) = some (next ++ base) := by
  unfold close at h ⊢
  split at h
  · next items opened rest unwound =>
    rw [unwind_append unwound base]
    dsimp only
    split at h
    · next same =>
      cases h
      rw [if_pos same]
      rfl
    · cases h
  · cases h

theorem innermost_append (entries base : List Entry) :
    innermost (entries ++ base) = (innermost entries).or (innermost base) := by
  induction entries with
  | nil => rfl
  | cons e rest ih => cases e <;> simp [innermost, ih]

/-- What a token does to entries does not depend on those below, unless its AND might belong to a
BETWEEN there. -/
theorem push_append {entries next : List Entry} {t : Token} (h : push entries t = some next)
    {base : List Entry} (free : innermost base ≠ some .between) :
    push (entries ++ base) t = some (next ++ base) := by
  unfold push at h ⊢
  split at h
  · cases h
    rfl
  · exact close_append h base
  · split at h
    · next between =>
      rw [innermost_append, between, Option.some_or, if_pos rfl]
      exact close_append h base
    · next other =>
      cases h
      -- The AND is no part of a BETWEEN above, and `free` rules out one below.
      have still : innermost (entries ++ base) ≠ some .between := by
        rw [innermost_append]
        cases known : innermost entries with
        | none => simpa using free
        | some kind => simpa [known] using other
      rw [if_neg still]
      rfl
  · cases h
    rfl
  · cases h
    rfl
  · cases h

theorem foldlM_push_append {ts : List Token} {entries next : List Entry}
    (h : ts.foldlM push entries = some next) {base : List Entry}
    (free : innermost base ≠ some .between) :
    ts.foldlM push (entries ++ base) = some (next ++ base) := by
  induction ts generalizing entries with
  | nil =>
    cases h
    rfl
  | cons t rest ih =>
    rw [List.foldlM_cons] at h ⊢
    obtain ⟨middle, step, later⟩ := Option.bind_eq_some_iff.mp h
    rw [push_append step free]
    exact ih later

theorem innermost_items (is : List Item) (base : List Entry) :
    innermost (is.reverse.map .item ++ base) = innermost base := by
  rw [innermost_append]
  have none : innermost (is.reverse.map .item) = none := by
    induction is.reverse with
    | nil => rfl
    | cons i rest ih => exact ih
  rw [none, Option.none_or]

theorem items?_append {ts us : List Token} {is js : List Item} (first : items? ts = some is)
    (second : items? us = some js) : items? (ts ++ us) = some (is ++ js) := by
  rw [items?_eq_some] at first second ⊢
  have free : innermost (is.reverse.map .item) ≠ some .between := by
    have items := innermost_items is []
    rw [List.append_nil] at items
    rw [items]
    nofun
  have after := foldlM_push_append second free
  rw [List.foldlM_append, first]
  simpa using after

theorem items?_parenthesized {ts : List Token} {is : List Item} (inner : items? ts = some is) :
    items? (.symbol '(' :: ts ++ [.symbol ')']) = some [.group .parentheses is] := by
  rw [items?_eq_some] at inner ⊢
  have opened : push [] (.symbol '(') = some [.opened .parentheses] := rfl
  have inside : ts.foldlM push ([] ++ [.opened .parentheses]) =
      some (is.reverse.map .item ++ [.opened .parentheses]) := foldlM_push_append inner nofun
  have closed : push (is.reverse.map .item ++ [.opened .parentheses]) (.symbol ')') =
      some [.item (.group .parentheses is)] := by
    change close .parentheses _ = _
    rw [close, collect_items unwind fun _ _ _ => rfl, List.append_nil]
    rfl
  rw [List.cons_append, List.foldlM_cons, opened]
  change List.foldlM push ([] ++ [.opened .parentheses]) _ = _
  rw [List.foldlM_append, inside]
  change List.foldlM push _ [_] = _
  rw [List.foldlM_cons, closed]
  rfl

theorem broken_not_mem {ts : List Token} {is : List Item} (h : items? ts = some is) :
    .broken ∉ ts := by
  intro inside
  obtain ⟨before, after, rfl⟩ := List.append_of_mem inside
  rw [items?_eq_some, List.foldlM_append] at h
  obtain ⟨entries, -, later⟩ := Option.bind_eq_some_iff.mp h
  rw [List.foldlM_cons] at later
  cases later

theorem closed_of_read {text : String} {is : List Item} (h : read text = some is) :
    (lexer.after .plain text.toList).isQuoted = false := by
  have whole := broken_not_mem h
  rw [tokens, Scanner.run, List.mem_append, not_or] at whole
  cases state : lexer.after .plain text.toList with
  | quoted q acc =>
    rw [state] at whole
    exact absurd List.mem_cons_self whole.2
  | _ => rfl

theorem read_separated {a b : String} {is js : List Item} (first : read a = some is)
    (second : read b = some js) : read (a ++ " " ++ b) = some (is ++ js) := by
  have cut := tokens_append (closed_of_read first) (c := ' ') (by decide) b.toList
  have chars : (a ++ " " ++ b).toList = a.toList ++ ' ' :: b.toList := by simp
  rw [read, chars, cut]
  simpa [mark] using items?_append first second

theorem read_listed {a b : String} {is js : List Item} (first : read a = some is)
    (second : read b = some js) :
    read (a ++ "," ++ b) = some (is ++ .plain (.symbol ',') :: js) := by
  have cut := tokens_append (closed_of_read first) (c := ',') (by decide) b.toList
  have chars : (a ++ "," ++ b).toList = a.toList ++ ',' :: b.toList := by simp
  have comma : items? [.symbol ','] = some [.plain (.symbol ',')] := rfl
  rw [read, chars, cut]
  simpa [mark] using items?_append (items?_append first comma) second

theorem read_parenthesized {a : String} {is : List Item} (inner : read a = some is) :
    read ("(" ++ a ++ ")") = some [.group .parentheses is] := by
  have opening := tokens_append (a := []) rfl (c := '(') (by decide) (a.toList ++ [')'])
  have closing := tokens_append (closed_of_read inner) (c := ')') (by decide) []
  have chars : ("(" ++ a ++ ")").toList = [] ++ '(' :: (a.toList ++ [')']) := by simp
  rw [read, chars, opening, closing]
  simpa [mark, tokens, Scanner.run_nil, lexer] using items?_parenthesized inner

def Item.isOr : Item → Bool
  | or => true
  | _ => false

def Item.isAnd : Item → Bool
  | and => true
  | _ => false

theorem sizeOf_lt_of_operand {is conjuncts operand inner : List Item} {kind : Bracket}
    (inside : conjuncts ∈ is.splitOnP Item.isOr)
    (within : operand ∈ conjuncts.splitOnP Item.isAnd)
    (group : operand = [.group kind inner]) : sizeOf inner < sizeOf is := by
  have mem : .group kind inner ∈ operand := group ▸ List.mem_cons_self
  have smaller :=
    List.sizeOf_lt_of_mem (List.mem_of_mem_splitOnP inside (List.mem_of_mem_splitOnP within mem))
  simp only [Item.group.sizeOf_spec] at smaller
  omega

/-- Whether a condition holds, given what atomic conditions hold: OR is read before AND, and a
condition in parentheses holds when what stands in them does. -/
def holds (atomic : List Item → Bool) (is : List Item) : Bool :=
  (is.splitOnP Item.isOr).attach.any fun conjuncts =>
    (conjuncts.1.splitOnP Item.isAnd).attach.all fun operand =>
      match group : operand.1 with
      | [.group .parentheses inner] =>
        have := sizeOf_lt_of_operand conjuncts.2 operand.2 group
        holds atomic inner
      | other => atomic other
termination_by sizeOf is

def operandHolds (atomic : List Item → Bool) : List Item → Bool
  | [.group .parentheses inner] => holds atomic inner
  | other => atomic other

variable (atomic : List Item → Bool) {is js : List Item}

theorem holds_eq (is : List Item) :
    holds atomic is = (is.splitOnP Item.isOr).any fun conjuncts =>
      (conjuncts.splitOnP Item.isAnd).all (operandHolds atomic) := by
  have attachAny (l : List (List Item)) (f : List Item → Bool) :
      (l.attach.any fun x => f x.1) = l.any f := by simp
  have attachAll (l : List (List Item)) (f : List Item → Bool) :
      (l.attach.all fun x => f x.1) = l.all f := by simp
  rw [holds, ← attachAny]
  congr 1
  funext conjuncts
  rw [← attachAll]
  congr 1
  funext operand
  split
  · next inner group => exact (congrArg (operandHolds atomic) group).symm
  · next other => rw [operandHolds]; exact other

/-- No OR binds these items less than an AND beside them would. -/
def Tight (is : List Item) : Prop := ∀ i ∈ is, i.isOr = false

theorem holds_or : holds atomic (is ++ .or :: js) = (holds atomic is || holds atomic js) := by
  rw [holds_eq, holds_eq, holds_eq, List.splitOnP_append_cons is js rfl, List.any_append]

theorem holds_tight (tight : Tight is) :
    holds atomic is = (is.splitOnP Item.isAnd).all (operandHolds atomic) := by
  rw [holds_eq, List.splitOnP_eq_singleton tight, List.any_cons, List.any_nil, Bool.or_false]

theorem Tight.and (first : Tight is) (second : Tight js) : Tight (is ++ .and :: js) := by
  intro i inside
  rcases List.mem_append.mp inside with left | right
  · exact first i left
  · rcases List.mem_cons.mp right with rfl | right
    · rfl
    · exact second i right

theorem holds_and (first : Tight is) (second : Tight js) :
    holds atomic (is ++ .and :: js) = (holds atomic is && holds atomic js) := by
  rw [holds_tight atomic (first.and second), holds_tight atomic first, holds_tight atomic second,
    List.splitOnP_append_cons is js rfl, List.all_append]

theorem tight_group (kind : Bracket) (is : List Item) : Tight [.group kind is] := by
  intro i inside
  rw [List.mem_singleton] at inside
  subst inside
  rfl

theorem holds_group (is : List Item) : holds atomic [.group .parentheses is] = holds atomic is := by
  rw [holds_tight atomic (tight_group _ is), List.splitOnP_eq_singleton,
    List.all_cons, List.all_nil, Bool.and_true, operandHolds]
  intro i inside
  rw [List.mem_singleton] at inside
  subst inside
  rfl

/-- Conditions with AND between one and the next, and nothing around them. -/
def conjoin : List (List Item) → List Item
  | [] => []
  | [is] => is
  | is :: js :: rest => is ++ .and :: conjoin (js :: rest)

theorem conjoin_ne_nil {run : List (List Item)} (some : run ≠ [])
    (each : ∀ a ∈ run, a ≠ []) :
    conjoin run ≠ [] := by
  cases run with
  | nil => exact absurd rfl some
  | cons a rest =>
    cases rest with
    | nil => exact each a List.mem_cons_self
    | cons b rest => simp [conjoin]

theorem tight_conjoin {run : List (List Item)} (tight : ∀ a ∈ run, Tight a) :
    Tight (conjoin run) := by
  fun_induction conjoin run with
  | case1 => exact nofun
  | case2 is => exact tight is List.mem_cons_self
  | case3 is js rest ih =>
    obtain ⟨here, later⟩ := List.forall_mem_cons.mp tight
    exact here.and (ih later)

theorem holds_conjoin_tight {run : List (List Item)} (some : run ≠ [])
    (tight : ∀ a ∈ run, Tight a) :
    holds atomic (conjoin run) = true ↔ ∀ a ∈ run, holds atomic a = true := by
  fun_induction conjoin run with
  | case1 => exact absurd rfl some
  | case2 is => rw [List.forall_mem_singleton]
  | case3 is js rest ih =>
    obtain ⟨here, later⟩ := List.forall_mem_cons.mp tight
    rw [holds_and atomic here (tight_conjoin later), Bool.and_eq_true,
      ih (List.cons_ne_nil _ _) later, List.forall_mem_cons (l := js :: rest)]

def Holds (text : String) : Prop := ∃ is, read text = some is ∧ holds atomic is = true

theorem holds_iff {text : String} (reads : read text = some is) :
    Holds atomic text ↔ holds atomic is = true := by
  constructor
  · rintro ⟨js, again, truth⟩
    rw [reads] at again
    cases again
    exact truth
  · intro truth
    exact ⟨is, reads, truth⟩

end Reports.Sql.Precedence
