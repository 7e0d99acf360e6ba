/-! Scanners: machines that read a text once, from left to right, and give pieces of output as
they go. Reading two texts in a row is reading the first and going on in the state it left. -/
namespace Reports.Text

/-- `finish` gives what is still held back when the text ends. -/
structure Scanner (σ : Type) (τ : Type) where
  step : σ → Char → List τ × σ
  finish : σ → List τ

namespace Scanner

variable {σ τ : Type} (m : Scanner σ τ)

def after (s : σ) : List Char → σ
  | [] => s
  | c :: rest => after (m.step s c).2 rest

/-- The output up to the end of a text, without what is held back there. -/
def emitted (s : σ) : List Char → List τ
  | [] => []
  | c :: rest => (m.step s c).1 ++ emitted (m.step s c).2 rest

def run (s : σ) (cs : List Char) : List τ := m.emitted s cs ++ m.finish (m.after s cs)

@[simp] theorem after_append (s : σ) (xs ys : List Char) :
    m.after s (xs ++ ys) = m.after (m.after s xs) ys := by
  induction xs generalizing s with
  | nil => rfl
  | cons c xs ih => simp [after, ih]

@[simp] theorem emitted_append (s : σ) (xs ys : List Char) :
    m.emitted s (xs ++ ys) = m.emitted s xs ++ m.emitted (m.after s xs) ys := by
  induction xs generalizing s with
  | nil => rfl
  | cons c xs ih => simp [emitted, after, ih]

theorem run_append (s : σ) (xs ys : List Char) :
    m.run s (xs ++ ys) = m.emitted s xs ++ m.run (m.after s xs) ys := by
  simp [run]

theorem run_cons (s : σ) (c : Char) (rest : List Char) :
    m.run s (c :: rest) = (m.step s c).1 ++ m.run (m.step s c).2 rest := by
  simp [run, emitted, after]

theorem run_nil (s : σ) : m.run s [] = m.finish s := rfl

section Copied

variable {m} {f : Char → τ} {P : σ → Prop} {inert : Char → Prop}

theorem run_copied (copies : ∀ s c, P s → inert c →
    (m.step s c).1 = [f c] ∧ P (m.step s c).2) (ends : ∀ s, P s → m.finish s = []) {s : σ}
      (here : P s) {cs : List Char}
    (all : ∀ c ∈ cs, inert c) : m.run s cs = cs.map f := by
  induction cs generalizing s with
  | nil => exact ends s here
  | cons c rest ih =>
    obtain ⟨out, next⟩ := copies s c here (all c List.mem_cons_self)
    rw [run_cons, out, ih next fun c mem => all c (List.mem_cons_of_mem _ mem)]
    rfl

/-- What follows a character that settles every state is copied to the end. -/
theorem run_ending (copies : ∀ s c, P s → inert c →
    (m.step s c).1 = [f c] ∧ P (m.step s c).2) (ends : ∀ s, P s → m.finish s = [])
      {first : Char}
    (settles : ∀ s, ∃ held, (m.step s first).1 = held ++ [f first] ∧ P (m.step s first).2)
    (s : σ) (before : List Char) {cs : List Char} (all : ∀ c ∈ cs, inert c) :
    ∃ head, m.run s (before ++ first :: cs) = head ++ (first :: cs).map f := by
  obtain ⟨held, out, here⟩ := settles (m.after s before)
  refine ⟨m.emitted s before ++ held, ?_⟩
  rw [run_append, run_cons, out, run_copied copies ends here all]
  simp

end Copied

end Scanner

end Reports.Text
