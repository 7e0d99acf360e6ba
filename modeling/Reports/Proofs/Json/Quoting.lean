import Reports.Proofs.Json.Text

/-! Named values written as `name=text`. The name may hold anything, also `=` and quotes, but the
text of a value has `=` only within its strings, and what stands behind such a place is no text of a
value: its quotes open where they should close. -/
namespace Reports.Json

/-- Where a text of a value stands after some of it was read. -/
inductive Quoting
  | outside
  | inside
  | escape
  deriving DecidableEq

namespace Quoting

/-- One character more; none where a text of a value does not have it. -/
def step : Quoting → Char → Option Quoting
  | outside, c =>
    if c = '\x22' then some inside
    else if c = '\\' ∨ c = '=' ∨ c = '\x00' then none
    else some outside
  | inside, c =>
    if c = '\x22' then some outside
    else if c = '\\' then some escape
    else if c = '\x00' then none
    else some inside
  | escape, c => if "\x22\\bfnrtu".toList.contains c then some inside else none

def scan : Quoting → List Char → Option Quoting
  | s, [] => some s
  | s, c :: rest => (s.step c).bind fun s => scan s rest

theorem scan_append (s : Quoting) (as bs : List Char) :
    s.scan (as ++ bs) = (s.scan as).bind fun s => s.scan bs := by
  induction as generalizing s with
  | nil => rfl
  | cons c rest ih =>
    simp only [List.cons_append, scan]
    cases s.step c with
    | none => rfl
    | some t => exact ih t

theorem step_null (s : Quoting) : s.step '\x00' = none := by
  cases s <;> decide

theorem step_equals {s t : Quoting} (h : s.step '=' = some t) : t = inside := by
  have refused : outside.step '=' = none ∧ escape.step '=' = none := by decide
  cases s with
  | outside =>
    rw [refused.1] at h
    cases h
  | inside => exact (Option.some.inj h).symm
  | escape =>
    rw [refused.2] at h
    cases h

theorem null_notMem {s t : Quoting} {cs : List Char} (h : s.scan cs = some t) : '\x00' ∉ cs := by
  induction cs generalizing s with
  | nil => exact List.not_mem_nil
  | cons c rest ih =>
    obtain ⟨next, step, later⟩ := Option.bind_eq_some_iff.mp h
    intro mem
    rcases List.mem_cons.mp mem with rfl | inRest
    · rw [step_null] at step
      cases step
    · exact ih later inRest

/-- One of them is within a string just where the other one is not. -/
def Opposite : Quoting → Quoting → Prop
  | outside, inside => True
  | inside, outside => True
  | _, _ => False

theorem Opposite.step {s t s' t' : Quoting} {c : Char} (opposite : Opposite s t)
    (left : s.step c = some s') (right : t.step c = some t') : Opposite s' t' := by
  -- Outside of strings nothing is escaped, so a backslash ends one of the two.
  have crossed {s' t' : Quoting} (out : outside.step c = some s')
    (within : inside.step c = some t') :
      Opposite s' t' ∧ Opposite t' s' := by
    unfold Quoting.step at out within
    by_cases quote : c = '\x22'
    · simp only [quote, if_true, Option.some.injEq] at out within
      subst out within
      exact ⟨trivial, trivial⟩
    · by_cases ends : c = '\\' ∨ c = '=' ∨ c = '\x00'
      · simp [quote, ends] at out
      · rw [not_or, not_or] at ends
        simp only [quote, ends.1, ends.2.1, ends.2.2, or_self, if_false,
          Option.some.injEq] at out within
        subst out within
        exact ⟨trivial, trivial⟩
  cases s with
  | outside =>
    cases t with
    | inside => exact (crossed left right).1
    | _ => exact absurd opposite id
  | inside =>
    cases t with
    | outside => exact (crossed right left).2
    | _ => exact absurd opposite id
  | escape => exact absurd opposite (by cases t <;> exact id)

theorem Opposite.scan {s t s' t' : Quoting} {cs : List Char} (opposite : Opposite s t)
    (left : s.scan cs = some s') (right : t.scan cs = some t') : Opposite s' t' := by
  induction cs generalizing s t with
  | nil =>
    cases left
    cases right
    exact opposite
  | cons c rest ih =>
    obtain ⟨s₁, first, left⟩ := Option.bind_eq_some_iff.mp left
    obtain ⟨t₁, first', right⟩ := Option.bind_eq_some_iff.mp right
    exact ih (opposite.step first first') left right

end Quoting

open Quoting

def isHarmless (c : Char) : Bool := !"\x22\\=\x00".toList.contains c

theorem scan_harmless {cs : List Char} (harmless : ∀ c ∈ cs, isHarmless c = true) :
    outside.scan cs = some outside := by
  induction cs with
  | nil => rfl
  | cons c rest ih =>
    have here := harmless c List.mem_cons_self
    simp [isHarmless] at here
    have stays : outside.step c = some outside := by simp [step, here]
    rw [scan, stays, Option.bind_some, ih fun d hd => harmless d (List.mem_cons_of_mem _ hd)]

theorem scan_hexDigit (n : Nat) (small : n < 16) :
    inside.step (Text.lowerHexDigit n) = some inside := by
  have all : ∀ n : Fin 16, inside.step (Text.lowerHexDigit n) = some inside := by decide
  exact all ⟨n, small⟩

theorem scan_escapeChar (c : Char) : inside.scan (escapeChar c) = some inside := by
  unfold escapeChar
  split
  · decide
  · decide
  · decide
  · decide
  · decide
  · decide
  · decide
  · next quote escape _ _ _ _ _ =>
    split
    · next small =>
      have high := scan_hexDigit (c.toNat / 16) (by omega)
      have low := scan_hexDigit (c.toNat % 16) (by omega)
      have digits : inside.scan
          [Text.lowerHexDigit (c.toNat / 16), Text.lowerHexDigit (c.toNat % 16)] = some inside := by
        rw [scan, high, Option.bind_some, scan, low]
        rfl
      exact (scan_append inside ['\\', 'u', '0', '0'] _).trans digits
    · next shown =>
      have null : c ≠ '\x00' := by
        rintro rfl
        exact shown (by decide)
      have stays : inside.step c = some inside := by
        rw [step, if_neg quote, if_neg escape, if_neg null]
      rw [scan, stays]
      rfl

theorem scan_quote (s : String) : outside.scan (quote s).toList = some outside := by
  have body (cs : List Char) : inside.scan (cs.flatMap escapeChar) = some inside := by
    induction cs with
    | nil => rfl
    | cons c cs ih => rw [List.flatMap_cons, scan_append, scan_escapeChar, Option.bind_some, ih]
  have opens : outside.step '\x22' = some inside := rfl
  have closes : inside.scan ['\x22'] = some outside := rfl
  rw [quote, String.toList_ofList, scan, opens, Option.bind_some, scan_append, body,
    Option.bind_some, closes]

theorem isHarmless_of_isNumberChar {c : Char} (h : Number.isNumberChar c = true) :
    isHarmless c = true := by
  rw [isHarmless, Bool.not_eq_true']
  by_contra harms
  rw [Bool.not_eq_false, List.contains_iff_mem] at harms
  have none : ∀ c ∈ "\x22\\=\x00".toList, Number.isNumberChar c = false :=
    Text.forall_of_all (by decide)
  rw [none c harms] at h
  cases h

def Scans (t : String) : Prop := outside.scan t.toList = some outside

theorem Scans.append {t u : String} (ht : Scans t) (hu : Scans u) : Scans (t ++ u) := by
  rw [Scans, String.toList_append, scan_append, ht, Option.bind_some, hu]

theorem scans_items {xs : List Json} (all : ∀ x ∈ xs, Scans x.text) : Scans (itemsText xs) := by
  induction xs with
  | nil => rfl
  | cons x xs ih =>
    have first := all x List.mem_cons_self
    have others := ih fun y hy => all y (List.mem_cons_of_mem _ hy)
    cases xs with
    | nil => exact first
    | cons y ys => exact (first.append (u := ",") rfl).append others

theorem scans_members {ms : List (String × Json)} (all : ∀ m ∈ ms, Scans m.2.text) :
    Scans (membersText ms) := by
  induction ms with
  | nil => rfl
  | cons m ms ih =>
    obtain ⟨k, x⟩ := m
    have first : Scans (quote k ++ ":" ++ x.text) :=
      (Scans.append (scan_quote k) (u := ":") rfl).append (all (k, x) List.mem_cons_self)
    have others := ih fun m hm => all m (List.mem_cons_of_mem _ hm)
    cases ms with
    | nil => exact first
    | cons m ms => exact (first.append (u := ",") rfl).append others

theorem scans_text (v : Json) : Scans v.text := by
  refine induct (P := fun v => Scans v.text) rfl ?_ ?_ scan_quote ?_ ?_ v
  · intro b
    cases b <;> rfl
  · exact fun n => scan_harmless fun c hc => isHarmless_of_isNumberChar (n.numeric_text c hc)
  · exact fun xs all => (Scans.append (t := "[") rfl (scans_items all)).append (u := "]") rfl
  · exact fun ms all =>
      (Scans.append (t := "\x7b") rfl (scans_members all)).append (u := "\x7d") rfl

theorem null_notMem_text (v : Json) : '\x00' ∉ v.text.toList := null_notMem (scans_text v)

theorem text_ne_behind_equals (v w : Json) (head : List Char) :
    v.text.toList ≠ head ++ '=' :: w.text.toList := by
  intro same
  have scanned := scans_text v
  rw [Scans, same, scan_append] at scanned
  obtain ⟨s, -, tail⟩ := Option.bind_eq_some_iff.mp scanned
  obtain ⟨t, equals, rest⟩ := Option.bind_eq_some_iff.mp tail
  rw [step_equals equals] at rest
  exact Quoting.Opposite.scan (s := outside) (t := inside) trivial (scans_text w) rest

/-- A named value tells its name and its value. -/
theorem named_injective {name name' : String} {v v' : Json}
    (same : name ++ "=" ++ v.text = name' ++ "=" ++ v'.text) : name = name' ∧ v = v' := by
  have chars := congrArg String.toList same
  simp only [String.toList_append, List.append_assoc] at chars
  have longer {a b : List Char} {t u : Json} (split : ∃ x, a = b ++ x ∧
      '=' :: u.text.toList = x ++ '=' :: t.text.toList) : a = b ∧ u = t := by
    obtain ⟨x, rfl, rest⟩ := split
    cases x with
    | nil =>
      exact ⟨List.append_nil b, text_injective (String.toList_inj.mp (List.cons.inj rest).2)⟩
    | cons c x => exact absurd (List.cons.inj rest).2 (text_ne_behind_equals u t x)
  rcases List.append_eq_append_iff.mp chars with ⟨x, left, right⟩ | ⟨x, left, right⟩
  · obtain ⟨names, values⟩ := longer ⟨x, left, right⟩
    exact ⟨String.toList_inj.mp names.symm, values⟩
  · obtain ⟨names, values⟩ := longer ⟨x, left, right⟩
    exact ⟨String.toList_inj.mp names, values.symm⟩

end Reports.Json
