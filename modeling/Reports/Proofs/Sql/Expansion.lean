import Reports.Proofs.Sql.Marked
import Reports.Text.Scanner
import Reports.Sql.TableRef

/-! Table references in marked texts. Putting tables for references passes over placeholders, so it
does not matter whether a text is filled before or after. -/
namespace Reports.Sql.TableRef

open Reports.Text (Scanner)

variable (table : String → String)

/-- The state after a placeholder: a reference does not go on behind one. -/
def afterHole : State → State
  | .quoted q => .quoted q
  | _ => .plain

/-- Puts tables for the references of a marked text, from a state on. -/
def expandMarked (s : State) : Marked → Marked
  | [] => .ofChars ((scanner table).finish s)
  | .char c :: rest =>
    .ofChars ((scanner table).step s c).1 ++ expandMarked ((scanner table).step s c).2 rest
  | .hole i :: rest =>
    .ofChars ((scanner table).finish s) ++ .hole i :: expandMarked (afterHole s) rest

/-- A state that the scanner can be in: what opens a quoted part is a quote. -/
def Sound : State → Prop
  | .quoted q => isQuote q = true
  | _ => True

theorem sound_stepPlain (c : Char) : Sound (stepPlain c).2 := by
  unfold stepPlain
  split
  · trivial
  · split
    · next quote => exact quote
    · trivial

theorem sound_step {s : State} (sound : Sound s) (c : Char) :
    Sound ((scanner table).step s c).2 := by
  cases s with
  | plain => exact sound_stepPlain c
  | quoted q =>
    simp only [scanner]
    split
    · trivial
    · exact sound
  | braced name =>
    simp only [scanner]
    split
    · trivial
    · split
      · trivial
      · exact sound_stepPlain c

theorem sound_afterHole {s : State} (sound : Sound s) : Sound (afterHole s) := by
  cases s with
  | quoted q => exact sound
  | plain => trivial
  | braced name => trivial

theorem isQuote_of_isNameChar {c : Char} (h : Text.isNameChar c = true) : isQuote c = false := by
  by_contra quote
  rw [Bool.not_eq_false, isQuote, Bool.or_eq_true, beq_iff_eq, beq_iff_eq] at quote
  rcases quote with rfl | rfl <;> exact absurd h (by decide)

theorem isNameChar_of_continues {name : List Char} {c : Char} (h : continues name c = true) :
    Text.isNameChar c = true := by
  unfold continues at h
  split at h
  · exact Text.isNameChar_of_isNameStart h
  · exact h

theorem step_closes {name : List Char} {c : Char} (closes : c = '\x7d' ∧ name ≠ []) :
    (scanner table).step (.braced name) c = ((table (String.ofList name.reverse)).toList, .plain) :=
  if_pos closes

theorem step_continues {name : List Char} {c : Char} (goesOn : continues name c = true) :
    (scanner table).step (.braced name) c = ([], .braced (c :: name)) := by
  have stays : ¬(c = '\x7d' ∧ name ≠ []) := by
    rintro ⟨rfl, -⟩
    exact absurd (isNameChar_of_continues goesOn) (by decide)
  exact (if_neg stays).trans (if_pos goesOn)

theorem step_stops {name : List Char} {c : Char} (stays : ¬(c = '\x7d' ∧ name ≠ []))
    (stops : continues name c = false) :
    (scanner table).step (.braced name) c = (held name ++ (stepPlain c).1, (stepPlain c).2) :=
  (if_neg stays).trans (if_neg (Bool.eq_false_iff.mp stops))

theorem stepPlain_of_ne {c : Char} (other : c ≠ '\x7b') :
    stepPlain c = ([c], if isQuote c then .quoted c else .plain) := by
  rw [stepPlain, if_neg other]
  split <;> rfl

theorem stepPlain_of_isNameChar {c : Char} (h : Text.isNameChar c = true) :
    stepPlain c = ([c], .plain) := by
  have brace : c ≠ '\x7b' := by
    rintro rfl
    exact absurd h (by decide)
  simp [stepPlain, isQuote_of_isNameChar h, brace]

theorem run_name_plain (cs rest : List Char) (names : ∀ c ∈ cs, Text.isNameChar c = true) :
    (scanner table).run .plain (cs ++ rest) = cs ++ (scanner table).run .plain rest := by
  induction cs with
  | nil => rfl
  | cons c cs ih =>
    have step : (scanner table).step .plain c = ([c], .plain) :=
      stepPlain_of_isNameChar (names c List.mem_cons_self)
    have later := ih fun d hd => names d (List.mem_cons_of_mem _ hd)
    rw [List.cons_append, Scanner.run_cons, step, later]
    rfl

theorem run_name_quoted {q : Char} (quote : isQuote q = true) (cs rest : List Char)
    (names : ∀ c ∈ cs, Text.isNameChar c = true) :
    (scanner table).run (.quoted q) (cs ++ rest) = cs ++ (scanner table).run (.quoted q) rest := by
  induction cs with
  | nil => rfl
  | cons c cs ih =>
    have other : c ≠ q := by
      rintro rfl
      exact absurd quote (by simp [isQuote_of_isNameChar (names c List.mem_cons_self)])
    have step : (scanner table).step (.quoted q) c = ([c], .quoted q) := by simp [scanner, other]
    have later := ih fun d hd => names d (List.mem_cons_of_mem _ hd)
    rw [List.cons_append, Scanner.run_cons, step, later]
    rfl

theorem run_placeholder {s : State} (sound : Sound s) (n : Nat) (rest : List Char) :
    (scanner table).run s (':' :: (placeholderName n).toList ++ rest) =
      (scanner table).finish s ++
        ':' :: (placeholderName n).toList ++ (scanner table).run (afterHole s) rest := by
  have names : ∀ c ∈ (placeholderName n).toList, Text.isNameChar c = true := fun c h =>
    isNameChar_of_mem_placeholderName h
  cases s with
  | plain =>
    have step : (scanner table).step .plain ':' = ([':'], .plain) := rfl
    rw [List.cons_append, Scanner.run_cons, step, run_name_plain table _ _ names]
    rfl
  | quoted q =>
    have other : ':' ≠ q := by
      rintro rfl
      have quote : isQuote ':' = true := sound
      exact absurd quote (by decide)
    have step : (scanner table).step (.quoted q) ':' = ([':'], .quoted q) := by
      simp [scanner, other]
    rw [List.cons_append, Scanner.run_cons, step, run_name_quoted table sound _ _ names]
    rfl
  | braced name =>
    have step : (scanner table).step (.braced name) ':' = (held name ++ [':'], .plain) := by
      have stops : continues name ':' = false := by
        unfold continues
        split <;> decide
      simp [scanner, stops, stepPlain, isQuote]
    rw [List.cons_append, Scanner.run_cons, step, run_name_plain table _ _ names]
    simp [scanner, afterHole]

/-- Filling and expanding may be done in either order. -/
theorem fill_expandMarked {s : State} (sound : Sound s) (number : Nat → Nat) (a : Marked) :
    (expandMarked table s a).fill number = (scanner table).run s (a.fill number) := by
  induction a generalizing s with
  | nil => simp [expandMarked, Scanner.run_nil]
  | cons x rest ih =>
    cases x with
    | char c =>
      rw [expandMarked, Marked.fill_append, Marked.fill_ofChars, ih (sound_step table sound c),
        Marked.fill, Scanner.run_cons]
    | hole i =>
      rw [expandMarked, Marked.fill_append, Marked.fill_ofChars, Marked.fill,
        ih (sound_afterHole sound), Marked.fill, run_placeholder table sound, List.append_assoc]

@[simp] theorem holes_expandMarked (s : State) (a : Marked) :
    (expandMarked table s a).holes = a.holes := by
  induction a generalizing s with
  | nil => simp [expandMarked, Marked.holes]
  | cons x rest ih => cases x <;> simp [expandMarked, Marked.holes, ih]

end Reports.Sql.TableRef
