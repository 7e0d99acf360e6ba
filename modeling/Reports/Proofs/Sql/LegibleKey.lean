import Reports.Proofs.Sql.KeyAgreement
import Reports.Proofs.Sql.Legible

/-! In a legible statement the key finds the placeholders that binding finds. -/
namespace Reports.Sql

namespace CountKey

def Opens (cs : List Char) : Prop := OpensName cs ∨ OpensNumber cs

theorem opens_of_isPlaceholder {name : List Char} (drawn : IsPlaceholder name) (rest : List Char) :
    Opens (name ++ rest) := by
  obtain ⟨d, ds, rfl, digits⟩ := drawn
  exact Or.inl (Text.isDecimalDigit_of_isDigit (digits d List.mem_cons_self))

theorem opens_of_isNumber {name : List Char} (number : isNumber name = true) (rest : List Char) :
    Opens (name ++ rest) := by
  unfold isNumber at number
  split at number
  · next d ds => exact Or.inr (List.all_eq_true.mp number d List.mem_cons_self)
  · cases number

theorem isNumber_of_isPlaceholder {name : List Char} (drawn : IsPlaceholder name) :
    isNumber name = false := by
  obtain ⟨d, ds, rfl, -⟩ := drawn
  rfl

theorem mem_ranked_of_mem {seen : List String} {ts : List Token} {name : List Char}
    (mem : .drawn name ∈ ts) : String.ofList name ∈ (ranked seen ts).2 := by
  induction ts generalizing seen with
  | nil => cases mem
  | cons t rest ih =>
    cases t with
    | char c => exact ih ((List.mem_cons.mp mem).resolve_left (by simp))
    | drawn chars =>
      rcases List.mem_cons.mp mem with here | later
      · cases here
        have there := List.mem_of_getElem? (enters seen (String.ofList name)).there
        exact (prefix_ranked _ rest).subset there
      · exact ih later

end CountKey

namespace Binding

open CountKey (Opens Tokenized ofBinding isNumber)

/-- No name that is being read comes to look like a drawn one or like a number. -/
def Fits : State → List Char → Prop
  | .colon, cs => ¬Opens cs
  | .name acc, cs => ¬Opens (acc.reverse ++ cs)
  | _, _ => True

theorem fits_stepPlain {c : Char} {cs : List Char} (apart : c = ':' → ¬Opens cs) :
    Fits (stepPlain c).2 cs := by
  unfold stepPlain
  split
  · next colon => exact apart colon
  · split <;> trivial

theorem fits_step {s : State} {c : Char} {cs : List Char} (apart : c = ':' → ¬Opens cs)
    (fits : Fits s (c :: cs)) : Fits (scanner.step s c).2 cs := by
  cases s with
  | plain => exact fits_stepPlain apart
  | quoted q =>
    simp only [scanner]
    split <;> trivial
  | colon =>
    simp only [scanner]
    split
    · trivial
    · split
      · exact fits
      · exact fits_stepPlain apart
  | name acc =>
    simp only [scanner]
    split
    · rw [Fits, List.reverse_cons, List.append_assoc]
      exact fits
    · exact fits_stepPlain apart

theorem own_of_fits {names : List String} (drawn : ∀ name ∈ names, IsPlaceholder name.toList)
    {acc cs : List Char} (fits : Fits (.name acc) cs) :
    String.ofList acc.reverse ∉ names ∧ isNumber acc.reverse = false := by
  constructor
  · intro mem
    have placeholder := drawn _ mem
    rw [String.toList_ofList] at placeholder
    exact fits (CountKey.opens_of_isPlaceholder placeholder cs)
  · by_contra number
    exact fits (CountKey.opens_of_isNumber (Bool.not_eq_false _ ▸ number) cs)

theorem own_of_step {names : List String}
    (drawn : ∀ name ∈ names, IsPlaceholder name.toList) {s : State}
    {c : Char} {cs : List Char} (fits : Fits s (c :: cs)) {name : List Char}
    (mem : .parameter name ∈ (scanner.step s c).1) :
    String.ofList name ∉ names ∧ isNumber name = false := by
  obtain ⟨rfl, -⟩ := SpelledFrom.parameter_mem_step mem
  have own := own_of_fits drawn fits
  rwa [List.reverse_reverse] at own

theorem own_of_finish {names : List String}
    (drawn : ∀ name ∈ names, IsPlaceholder name.toList) {s : State}
    {cs : List Char} (fits : Fits s cs) {name : List Char}
    (mem : .parameter name ∈ scanner.finish s) :
    String.ofList name ∉ names ∧ isNumber name = false := by
  cases s with
  | name acc =>
    obtain rfl : name = acc.reverse := by simpa [scanner] using mem
    exact own_of_fits drawn fits
  | colon => simp [scanner] at mem
  | plain => cases mem
  | quoted q => cases mem

/-- Binding finds the drawn names of a legible text, and no others that could be taken for them. -/
theorem agrees_of_tokenized {p : Place} {cs : List Char} {ts : List CountKey.Token} {s : State}
    {names : List String} (drawn : ∀ name ∈ names, IsPlaceholder name.toList)
    (all : ∀ name, .drawn name ∈ ts → String.ofList name ∈ names)
    (tokenized : Tokenized p cs ts)
    (ready : Ready p s) (fits : Fits s cs) :
    (scanner.run s cs).flatMap (ofBinding names) = (pending s).map .char ++ ts ∧
      ∀ name, .parameter name ∈ scanner.run s cs → isNumber name = false := by
  induction tokenized generalizing s with
  | nil p =>
    rw [Text.Scanner.run_nil, List.append_nil]
    exact ⟨flatMap_finish s fun name mem => (own_of_finish drawn fits mem).1,
      fun name mem => (own_of_finish drawn fits mem).2⟩
  | @char p c cs ts _ opens _ ih =>
    have apart : c = ':' → ¬Opens cs := fun colon => not_or.mpr (opens colon)
    have later :=
      ih (s := (scanner.step s c).2) (fun name mem => all name (List.mem_cons_of_mem _ mem))
      (lawful.step c ready) (fits_step apart fits)
    have foreign : Foreign names (scanner.step s c).1 :=
      fun name mem => (own_of_step drawn fits mem).1
    have step := flatMap_step s c foreign
    rw [Text.Scanner.run_cons]
    refine ⟨?_, fun name mem => ?_⟩
    · rw [List.flatMap_append, later.1, ← List.append_assoc, step, List.append_assoc,
        List.singleton_append]
    · exact (List.mem_append.mp mem).elim (fun here => (own_of_step drawn fits here).2)
        (later.2 name)
  | @drawn name cs ts placeholder ends _ ih =>
    obtain ⟨agrees, numbers⟩ := ih (fun name mem => all name (List.mem_cons_of_mem _ mem))
      lawful.start trivial
    have naming : Naming (CountKey.called name) :=
      ⟨fun _ => rfl, fun _ => (String.toList_ofList (l := name)).symm ▸ placeholder⟩
    have run := lawful.placeholder naming 0 cs ready ends
    have same : (CountKey.called name (.drawn 0)).toList = name := String.toList_ofList
    rw [same] at run
    change scanner.run s _ = scanner.finish s ++ .parameter _ :: scanner.run .plain cs at run
    rw [same] at run
    rw [run]
    refine ⟨?_, fun found mem => ?_⟩
    · have here := all name List.mem_cons_self
      rw [List.flatMap_append, flatMap_finish s fun name mem => (own_of_finish drawn fits mem).1,
        List.flatMap_cons, ofBinding, if_pos here]
      exact congrArg (_ ++ .drawn name :: ·) agrees
    · rcases List.mem_append.mp mem with before | mem
      · exact (own_of_finish drawn fits before).2
      · rcases List.mem_cons.mp mem with here | later
        · cases here
          exact CountKey.isNumber_of_isPlaceholder placeholder
        · exact numbers found later

end Binding

namespace CountKey

theorem Tokenized.isPlaceholder {p : Place} {cs : List Char} {ts : List Token}
    (tokenized : Tokenized p cs ts) {name : List Char} (mem : .drawn name ∈ ts) :
    IsPlaceholder name := by
  induction tokenized with
  | nil p => cases mem
  | char _ _ _ ih => exact ih ((List.mem_cons.mp mem).resolve_left (by simp))
  | drawn drawn _ _ ih =>
    rcases List.mem_cons.mp mem with here | later
    · cases here
      exact drawn
    · exact ih later

variable {s s' : Statement}

theorem agreed_of_legible (legible : s.Legible) : Agreed s := by
  have texts : Tokenized .plain s.sql.toList (tokens s.sql) := tokenized legible.text
  have drawn (name : String) (mem : name ∈ (ranked [] (tokens s.sql)).2) : IsPlaceholder
      name.toList :=
    texts.isPlaceholder ((mem_ranked mem).resolve_left List.not_mem_nil)
  have run := Binding.agrees_of_tokenized drawn (fun name => mem_ranked_of_mem) texts
    Binding.lawful.start trivial
  exact ⟨run.1, run.2⟩

theorem intact_of_legible (legible : s.Legible) : Intact s := by
  have whole {p : Place} {cs : List Char} (legible : Sql.Legible p cs) : '\x00' ∉ cs := by
    induction cs generalizing p with
    | nil => exact List.not_mem_nil
    | cons c rest ih => exact not_or.mpr ⟨legible.1.symm, ih legible.2.2⟩ ∘ List.mem_cons.mp
  exact ⟨whole legible.text, legible.names⟩

theorem bind_of_identity (legible : s.Legible) (legible' : s'.Legible)
    (same : identity s = identity s') {d : Dialect} {b : Bound} (bound : s.bind d = .ok b) :
    s'.bind d = .ok b :=
  bind_of_agreed (intact_of_legible legible) (intact_of_legible legible')
    (agreed_of_legible legible)
    (agreed_of_legible legible') same bound

end CountKey

end Reports.Sql
