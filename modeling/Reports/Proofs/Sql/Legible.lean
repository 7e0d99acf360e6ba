import Reports.Proofs.Sql.Reader

/-! Texts in which no name can be mistaken for another: what looks like a drawn placeholder is one
for binding and for counting, and nothing looks like the numbers that counting puts in their
place. -/
namespace Reports.Sql

def EndsNumber : List Char → Prop
  | [] => True
  | c :: rest => if Text.isDigit c = true then EndsNumber rest else Text.isWordChar c = false

/-- What may follow a colon: `qp` and a digit only in a placeholder outside quotes, and `_` and a
digit never. -/
def AfterColon (p : Place) : List Char → Prop
  | '_' :: c :: _ => Text.isDigit c = false
  | 'q' :: 'p' :: c :: rest =>
    Text.isDecimalDigit c = true → p = .plain ∧ EndsNumber (c :: rest)
  | _ => True

def Legible (p : Place) : List Char → Prop
  | [] => True
  | c :: rest => c ≠ '\x00' ∧ (c = ':' → AfterColon p rest) ∧ Legible (p.next c) rest

instance : DecidablePred EndsNumber := go
where
  go : (cs : List Char) → Decidable (EndsNumber cs)
    | [] => inferInstanceAs (Decidable True)
    | c :: rest =>
      have := go rest
      inferInstanceAs (Decidable (if Text.isDigit c = true then EndsNumber rest else _))

instance (p : Place) : DecidablePred (AfterColon p) := fun cs => by
  unfold AfterColon
  split <;> infer_instance

instance (p : Place) : DecidablePred (Legible p) := go p
where
  go (p : Place) : (cs : List Char) → Decidable (Legible p cs)
    | [] => inferInstanceAs (Decidable True)
    | c :: rest =>
      have := go (p.next c) rest
      inferInstanceAs
        (Decidable (c ≠ '\x00' ∧ (c = ':' → AfterColon p rest) ∧ Legible (p.next c) rest))

/-- Neither the text nor a name can be mistaken, and no name has a null character. -/
structure Statement.Legible (s : Statement) : Prop where
  text : Sql.Legible .plain s.sql.toList
  names : ∀ name ∈ s.params.keys, '\x00' ∉ name.toList

instance : DecidablePred Statement.Legible := fun s =>
  decidable_of_iff (Sql.Legible .plain s.sql.toList ∧
    ∀ name ∈ s.params.keys, '\x00' ∉ name.toList)
    ⟨fun h => ⟨h.1, h.2⟩, fun h => ⟨h.text, h.names⟩⟩

example : Legible .plain "t.kind = :qp2 AND t.name = ':name'".toList := by decide +kernel

example : ¬Legible .plain "t.name = ':qp2'".toList := by decide +kernel

namespace CountKey

def OpensName : List Char → Prop
  | 'q' :: 'p' :: c :: _ => Text.isDecimalDigit c = true
  | _ => False

theorem run_plain {c : Char} (other : c ≠ ':') (rest : List Char) :
    scanner.run .plain (c :: rest) = .char c :: scanner.run .plain rest := by
  have step : scanner.step .plain c = ([.char c], .plain) := by simp [scanner, stepPlain, other]
  rw [Text.Scanner.run_cons, step]
  rfl

theorem run_release {acc : List Char} {c : Char}
    (lets : scanner.step (.held acc) c = (release acc ++ (stepPlain c).1, (stepPlain c).2))
    (rest : List Char) :
    scanner.run (.held acc) (c :: rest) = release acc ++ scanner.run .plain (c :: rest) := by
  have step : scanner.step .plain c = stepPlain c := rfl
  rw [Text.Scanner.run_cons, Text.Scanner.run_cons, lets, step, List.append_assoc]

theorem run_colon {cs : List Char} (none : ¬OpensName cs) :
    scanner.run .plain (':' :: cs) = .char ':' :: scanner.run .plain cs := by
  have colon : scanner.step .plain ':' = ([], .held []) := rfl
  rw [Text.Scanner.run_cons, colon, List.nil_append]
  match cs with
  | [] => rfl
  | c :: cs =>
    by_cases q : c = 'q'
    · subst q
      have second : scanner.step (.held []) 'q' = ([], .held ['q']) := rfl
      rw [run_plain (by decide), Text.Scanner.run_cons, second, List.nil_append]
      match cs with
      | [] => rfl
      | c :: cs =>
        by_cases p : c = 'p'
        · subst p
          have third : scanner.step (.held ['q']) 'p' = ([], .held ['p', 'q']) := rfl
          rw [run_plain (by decide), Text.Scanner.run_cons, third, List.nil_append]
          match cs with
          | [] => rfl
          | c :: cs =>
            have other : Text.isDecimalDigit c = false := by simpa [OpensName] using none
            exact run_release (by simp [scanner, other]) cs
        · exact run_release (by simp [scanner, p]) cs
    · exact run_release (by simp [scanner, q]) cs

def OpensNumber : List Char → Prop
  | '_' :: c :: _ => Text.isDigit c = true
  | _ => False

/-- How a legible text falls into characters and drawn names. -/
inductive Tokenized : Place → List Char → List Token → Prop
  | nil (p : Place) : Tokenized p [] []
  | char {p : Place} {c : Char} {cs : List Char} {ts : List Token} :
    c ≠ '\x00' → (c = ':' → ¬OpensName cs ∧ ¬OpensNumber cs) →
      Tokenized (p.next c) cs ts → Tokenized p (c :: cs) (.char c :: ts)
  | drawn {name cs : List Char} {ts : List Token} :
    IsPlaceholder name → Reader.EndsName cs → Tokenized .plain cs ts →
      Tokenized .plain (':' :: name ++ cs) (.drawn name :: ts)

theorem not_opensNumber {p : Place} {cs : List Char} (after : AfterColon p cs) :
    ¬OpensNumber cs := by
  match cs with
  | [] => exact id
  | [c] => exact fun h => by unfold OpensNumber at h; split at h <;> simp_all
  | c :: d :: rest =>
    by_cases low : c = '_'
    · subst low
      have digit : Text.isDigit d = false := after
      simp [OpensNumber, digit]
    · simp [OpensNumber, low]

theorem endsNumber_split {cs : List Char} (ends : EndsNumber cs) :
    ∃ ds tail, cs = ds ++ tail ∧ (∀ d ∈ ds, Text.isDigit d = true) ∧
    Reader.EndsName tail := by
  induction cs with
  | nil => exact ⟨[], [], rfl, by simp, trivial⟩
  | cons c rest ih =>
    by_cases digit : Text.isDigit c = true
    · rw [EndsNumber, if_pos digit] at ends
      obtain ⟨ds, tail, rfl, digits, ends⟩ := ih ends
      refine ⟨c :: ds, tail, rfl, ?_, ends⟩
      exact List.forall_mem_cons.mpr ⟨digit, digits⟩
    · rw [EndsNumber, if_neg digit] at ends
      exact ⟨[], c :: rest, rfl, by simp, ends⟩

theorem opensName_split {p : Place} {cs : List Char} (after : AfterColon p cs)
    (opens : OpensName cs) :
    p = .plain ∧ ∃ name tail, cs = name ++ tail ∧ IsPlaceholder name ∧
    Reader.EndsName tail := by
  unfold OpensName at opens
  split at opens
  · next c rest =>
    obtain ⟨place, ends⟩ : p = .plain ∧ EndsNumber (c :: rest) := after opens
    obtain ⟨ds, tail, split, digits, ends⟩ := endsNumber_split ends
    cases ds with
    | nil =>
      obtain rfl : c :: rest = tail := split
      have word := Text.isWordChar_of_isDecimalDigit opens
      have stops : Text.isWordChar c = false := ends
      rw [stops] at word
      cases word
    | cons d ds =>
      exact ⟨place, 'q' :: 'p' :: d :: ds,
        tail, by rw [split]; rfl, ⟨d, ds, rfl, digits⟩, ends⟩
  · exact absurd opens id

theorem isNameChar_of_isPlaceholder {name : List Char} (drawn : IsPlaceholder name) :
    ∀ c ∈ name, Text.isNameChar c = true := by
  obtain ⟨d, ds, rfl, digits⟩ := drawn
  intro c hc
  rcases List.mem_cons.mp hc with rfl | hc
  · decide
  · rcases List.mem_cons.mp hc with rfl | digit
    · decide
    · simp [Text.isNameChar, digits c digit]

theorem legible_append {p : Place} {as bs : List Char} (legible : Legible p (as ++ bs)) :
    Legible (Marked.after p (.ofChars as)) bs := by
  induction as generalizing p with
  | nil => exact legible
  | cons c rest ih => exact ih legible.2.2

def called (name : List Char) : Name → String
  | .drawn _ => String.ofList name
  | .written s => s

theorem run_drawn {name tail : List Char} (drawn : IsPlaceholder name)
    (ends : Reader.EndsName tail) :
    scanner.run .plain (':' :: name ++ tail) = .drawn name :: scanner.run .plain tail := by
  have naming : Naming (called name) :=
    ⟨fun _ => rfl, fun _ => (String.toList_ofList (l := name)).symm ▸ drawn⟩
  have run := lawful.placeholder (s := .plain) naming 0 tail trivial ends
  have same : (called name (.drawn 0)).toList = name := String.toList_ofList
  rw [same] at run
  exact run.trans (congrArg (fun cs => Token.drawn cs :: scanner.run .plain tail) same)

/-- A legible text is read without loss, and every drawn name in it stands outside quotes. -/
theorem tokenized {p : Place} {cs : List Char} (legible : Legible p cs) :
    Tokenized p cs (scanner.run .plain cs) := by
  match cs with
  | [] => exact .nil p
  | c :: cs =>
    obtain ⟨null, after, later⟩ := legible
    by_cases colon : c = ':'
    · subst colon
      by_cases opens : OpensName cs
      · obtain ⟨rfl, name, tail, split, drawn, ends⟩ := opensName_split (after rfl) opens
        have shorter : tail.length < (':' :: cs).length := by
          rw [split, List.length_cons, List.length_append]
          omega
        have some : name ≠ [] := by
          obtain ⟨d, ds, rfl, -⟩ := drawn
          exact List.cons_ne_nil _ _
        have place := Marked.after_name (p := .colon) rfl some (isNameChar_of_isPlaceholder drawn)
        have rest : Legible .plain tail := place ▸ legible_append (split ▸ later)
        have whole := Tokenized.drawn drawn ends (tokenized rest)
        rw [← run_drawn drawn ends, List.cons_append, ← split] at whole
        exact whole
      · rw [run_colon opens]
        exact .char null (fun _ => ⟨opens, not_opensNumber (after rfl)⟩) (tokenized later)
    · rw [run_plain colon]
      exact .char null (fun h => absurd h colon) (tokenized later)
termination_by cs.length
decreasing_by
  · exact shorter
  · exact Nat.lt_succ_self _
  · exact Nat.lt_succ_self _

end CountKey

end Reports.Sql
