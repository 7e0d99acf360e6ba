import Mathlib.Data.List.TakeWhile
import Reports.Proofs.Sql.Expansion
import Reports.Sql.Binding

/-! Quoted stretches of a statement: each runs from a quote to the next quote of its kind, or to the
end. The scanners of a statement copy such a stretch, and read what stands before it and behind it
each on its own. -/
namespace Reports.Sql

open Reports.Text (Scanner)
open TableRef (isQuote)

namespace Quoted

def inside (q : Char) : List Char → List Char
  | [] => []
  | c :: rest => if c = q then [c] else c :: inside q rest

def behind (q : Char) : List Char → List Char
  | [] => []
  | c :: rest => if c = q then rest else behind q rest

theorem inside_append_behind (q : Char) (cs : List Char) : inside q cs ++ behind q cs = cs := by
  induction cs with
  | nil => rfl
  | cons c rest ih =>
    by_cases h : c = q
    · simp [inside, behind, h]
    · simp [inside, behind, h, ih]

theorem length_behind_le (q : Char) (cs : List Char) : (behind q cs).length ≤ cs.length := by
  have whole := congrArg List.length (inside_append_behind q cs)
  rw [List.length_append] at whole
  omega

end Quoted

inductive Stretch
  | plain (text : List Char)
  | quoted (text : List Char)
  deriving DecidableEq

namespace Stretch

def text : Stretch → List Char
  | plain t => t
  | quoted t => t

def quoted? : Stretch → Option (List Char)
  | plain _ => none
  | quoted t => some t

end Stretch

def stretches (cs : List Char) : List Stretch :=
  match _cut : cs.dropWhile fun c => !isQuote c with
  | [] => [.plain cs]
  | q :: rest =>
    .plain (cs.takeWhile fun c => !isQuote c) :: .quoted (q :: Quoted.inside q rest) ::
      stretches (Quoted.behind q rest)
termination_by cs.length
decreasing_by
  have shorter := Quoted.length_behind_le q rest
  have left := (List.dropWhile_sublist (l := cs) fun c => !isQuote c).length_le
  rw [_cut, List.length_cons] at left
  omega

def Unquoted (cs : List Char) : Prop := ∀ c ∈ cs, isQuote c = false

instance : DecidablePred Unquoted := fun cs => List.decidableBAll (fun c => isQuote c = false) cs

theorem unquoted_or_cut (cs : List Char) :
    Unquoted cs ∨ ∃ p q rest, Unquoted p ∧ isQuote q = true ∧ cs = p ++ q :: rest := by
  induction cs with
  | nil => exact .inl fun c mem => nomatch mem
  | cons c rest ih =>
    cases quote : isQuote c with
    | true => exact .inr ⟨[], c, rest, fun d mem => (nomatch mem), quote, rfl⟩
    | false =>
      rcases ih with none | ⟨p, q, later, none, opens, rfl⟩
      · exact .inl (List.forall_mem_cons.mpr ⟨quote, none⟩)
      · exact .inr ⟨c :: p, q, later, List.forall_mem_cons.mpr ⟨quote, none⟩, opens, rfl⟩

theorem stretches_unquoted {cs : List Char} (none : Unquoted cs) : stretches cs = [.plain cs] := by
  have all : cs.dropWhile (fun c => !isQuote c) = [] :=
    List.dropWhile_eq_nil_iff.mpr fun c mem => by simp [none c mem]
  rw [stretches]
  split
  · rfl
  · next other => cases all.symm.trans other

theorem stretches_cut {p : List Char} (none : Unquoted p) {q : Char} (quote : isQuote q = true)
    (rest : List Char) : stretches (p ++ q :: rest) =
      .plain p :: .quoted (q :: Quoted.inside q rest) :: stretches (Quoted.behind q rest) := by
  have inert : ∀ c ∈ p, (!isQuote c) = true := fun c mem => by simp [none c mem]
  have dropped : (p ++ q :: rest).dropWhile (fun c => !isQuote c) = q :: rest := by
    rw [List.dropWhile_append_of_pos inert, List.dropWhile_cons_of_neg (by simp [quote])]
  have taken : (p ++ q :: rest).takeWhile (fun c => !isQuote c) = p := by
    rw [List.takeWhile_append_of_pos inert, List.takeWhile_cons_of_neg (by simp [quote]),
      List.append_nil]
  rw [stretches]
  split
  · next other => cases dropped.symm.trans other
  · next other =>
    cases dropped.symm.trans other
    rw [taken]

/-- Induction from one quoted stretch to the next. -/
theorem induct_quotes {P : List Char → Prop} (plain : ∀ cs, Unquoted cs → P cs)
    (cut : ∀ p q rest, Unquoted p → isQuote q = true → P (Quoted.behind q rest) →
      P (p ++ q :: rest)) (cs : List Char) : P cs := by
  induction length : cs.length using Nat.strong_induction_on generalizing cs with
  | h n ih =>
    subst length
    rcases unquoted_or_cut cs with none | ⟨p, q, rest, none, quote, rfl⟩
    · exact plain cs none
    · refine cut p q rest none quote (ih _ ?_ _ rfl)
      have shorter := Quoted.length_behind_le q rest
      simp only [List.length_append, List.length_cons]
      omega

theorem flatMap_text_stretches (cs : List Char) : (stretches cs).flatMap Stretch.text = cs := by
  induction cs using induct_quotes with
  | plain cs none => simp [stretches_unquoted none, Stretch.text]
  | cut p q rest none quote ih =>
    rw [stretches_cut none quote, List.flatMap_cons, List.flatMap_cons, ih]
    simp [Stretch.text, Quoted.inside_append_behind]

/-- How a scanner takes quotes: outside of quoted stretches a quote lets go what was held back and
opens one, and that is copied to its end. -/
structure Quoting {σ τ : Type} (m : Scanner σ τ) (plain : σ) (quoted : Char → σ)
    (copy : Char → τ) :
    Prop where
  start (q : Char) : plain ≠ quoted q
  finish : m.finish plain = []
  within (q c : Char) : m.step (quoted q) c = ([copy c], if c = q then plain else quoted q)
  cutOff (q : Char) : m.finish (quoted q) = []
  opens {s : σ} {c : Char} : (∀ q, s ≠ quoted q) → isQuote c = true →
    m.step s c = (m.finish s ++ [copy c], quoted c)
  stays {s : σ} {c : Char} : (∀ q, s ≠ quoted q) → isQuote c = false →
    ∀ q, (m.step s c).2 ≠ quoted q

namespace Quoting

variable {σ τ : Type} {m : Scanner σ τ} {plain : σ} {quoted : Char → σ} {copy : Char → τ}
  (quoting : Quoting m plain quoted copy)

include quoting

theorem run_quoted (q : Char) (cs : List Char) :
    m.run (quoted q) cs = (Quoted.inside q cs).map copy ++ m.run plain (Quoted.behind q cs) := by
  induction cs with
  | nil =>
    rw [Scanner.run_nil, quoting.cutOff, Quoted.inside, Quoted.behind, Scanner.run_nil,
      quoting.finish]
    rfl
  | cons c rest ih =>
    rw [Scanner.run_cons, quoting.within]
    by_cases h : c = q
    · simp [Quoted.inside, Quoted.behind, h]
    · simp [Quoted.inside, Quoted.behind, h, ih]

theorem after_unquoted {s : σ} (outside : ∀ q, s ≠ quoted q) {cs : List Char}
    (none : Unquoted cs) :
    ∀ q, m.after s cs ≠ quoted q := by
  induction cs generalizing s with
  | nil => exact outside
  | cons c rest ih =>
    exact ih (quoting.stays outside (none c List.mem_cons_self)) fun d mem =>
      none d (List.mem_cons_of_mem _ mem)

theorem run_cut {p : List Char} (none : Unquoted p) {q : Char} (quote : isQuote q = true)
    (rest : List Char) : m.run plain (p ++ q :: rest) =
      m.run plain p ++ (q :: Quoted.inside q rest).map copy ++
      m.run plain (Quoted.behind q rest) := by
  have outside := quoting.after_unquoted quoting.start none
  have before : m.run plain p = m.emitted plain p ++ m.finish (m.after plain p) := rfl
  rw [Scanner.run_append, Scanner.run_cons, quoting.opens outside quote, quoting.run_quoted, before]
  simp only [List.map_cons, List.append_assoc, List.cons_append, List.nil_append]

end Quoting

theorem TableRef.other_of_isQuote {c : Char} (quote : isQuote c = true) :
    c ≠ ':' ∧ c ≠ '\x7b' ∧ c ≠ '\x7d' ∧ Text.isNameStart c = false ∧
    Text.isNameChar c = false := by
  rw [isQuote, Bool.or_eq_true, beq_iff_eq, beq_iff_eq] at quote
  rcases quote with rfl | rfl <;> decide

namespace Binding

theorem stepPlain_quote {c : Char} (quote : isQuote c = true) :
    stepPlain c = ([.char c], .quoted c) := by
  have colon := (TableRef.other_of_isQuote quote).1
  have either : c = '\x27' ∨ c = '\x22' := by simpa [isQuote] using quote
  simp [stepPlain, colon, either]

theorem stepPlain_unquoted {c : Char} (none : isQuote c = false) (q : Char) :
    (stepPlain c).2 ≠ .quoted q := by
  have neither : ¬(c = '\x27' ∨ c = '\x22') := by simpa [isQuote] using none
  unfold stepPlain
  split
  · exact State.noConfusion
  · exact State.noConfusion

theorem quoting : Quoting scanner .plain .quoted .char where
  start _ := State.noConfusion
  finish := rfl
  within _ _ := rfl
  cutOff _ := rfl
  opens := by
    intro s c outside quote
    obtain ⟨colon, -, -, noStart, noName⟩ := TableRef.other_of_isQuote quote
    cases s with
    | plain => exact stepPlain_quote quote
    | colon => simp [scanner, colon, noStart, stepPlain_quote quote]
    | name acc => simp [scanner, noName, stepPlain_quote quote]
    | quoted q => exact absurd rfl (outside q)
  stays := by
    intro s c outside none q
    have plain := stepPlain_unquoted none q
    cases s with
    | plain => exact plain
    | colon =>
      simp only [scanner]
      split
      · exact State.noConfusion
      · split
        · exact State.noConfusion
        · exact plain
    | name acc =>
      simp only [scanner]
      split
      · exact State.noConfusion
      · exact plain
    | quoted q => exact absurd rfl (outside q)

end Binding

namespace TableRef

theorem stepPlain_quote {c : Char} (quote : isQuote c = true) : stepPlain c = ([c], .quoted c) := by
  rw [stepPlain_of_ne (other_of_isQuote quote).2.1, quote, if_pos rfl]

theorem stepPlain_unquoted {c : Char} (none : isQuote c = false) (q : Char) :
    (stepPlain c).2 ≠ .quoted q := by
  by_cases brace : c = '\x7b'
  · subst brace
    exact State.noConfusion
  · rw [stepPlain_of_ne brace, none, if_neg Bool.false_ne_true]
    exact State.noConfusion

theorem quoting (table : String → String) : Quoting (scanner table) .plain .quoted id where
  start _ := State.noConfusion
  finish := rfl
  within _ _ := rfl
  cutOff _ := rfl
  opens := by
    intro s c outside quote
    obtain ⟨-, -, closes, noStart, noName⟩ := other_of_isQuote quote
    cases s with
    | plain => exact stepPlain_quote quote
    | braced name =>
      have stops : continues name c = false := by
        unfold continues
        split
        · exact noStart
        · exact noName
      rw [step_stops table (fun closed => closes closed.1) stops, stepPlain_quote quote]
      rfl
    | quoted q => exact absurd rfl (outside q)
  stays := by
    intro s c outside none q
    have plain := stepPlain_unquoted none q
    cases s with
    | plain => exact plain
    | braced name =>
      simp only [scanner]
      split
      · exact State.noConfusion
      · split
        · exact State.noConfusion
        · exact plain
    | quoted q => exact absurd rfl (outside q)

end TableRef

end Reports.Sql
