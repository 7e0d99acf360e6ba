import Reports.Json.Reader
import Reports.Proofs.Json.Number

/-! Numbers as the reader takes them apart: a literal is read as it is written, and the text of a
number is that of one literal. -/
namespace Reports

open Text (isDigit Ends ends_nil ends_cons takeWhile_run dropWhile_run)

namespace Json

/-- What may stand behind a value: nothing, or what separates or closes. -/
def Delimited (rest : List Char) : Prop :=
  ∀ c, rest.head? = some c → c = ',' ∨ c = ']' ∨ c = '\x7d'

theorem delimited_nil : Delimited [] := by
  rintro c ⟨⟩

theorem delimited_cons {c : Char} {rest : List Char} (h : c = ',' ∨ c = ']' ∨ c = '\x7d') :
    Delimited (c :: rest) := by
  rintro d ⟨⟩
  exact h

theorem Delimited.ends {rest : List Char} (after : Delimited rest) : Ends isDigit rest := by
  intro c first
  rcases after c first with rfl | rfl | rfl <;> decide

namespace Literal

def fractionChars : List Char → List Char
  | [] => []
  | d :: ds => '.' :: d :: ds

def exponentChars : Option (Bool × List Char) → List Char
  | none => []
  | some (negative, ds) => 'e' :: (if negative then '-' else '+') :: ds

def magnitude (l : Literal) : List Char :=
  l.whole ++ (fractionChars l.fraction ++ exponentChars l.exponent)

def chars (l : Literal) : List Char := (if l.negative then ['-'] else []) ++ l.magnitude

/-- Digits where they belong, and no needless leading zero. -/
structure Proper (l : Literal) : Prop where
  given : l.whole ≠ []
  leading : ∀ d ds, l.whole ≠ '0' :: d :: ds
  whole : ∀ c ∈ l.whole, isDigit c = true
  fraction : ∀ c ∈ l.fraction, isDigit c = true
  exponent : ∀ e, l.exponent = some e → e.2 ≠ [] ∧ ∀ c ∈ e.2, isDigit c = true

theorem exponentPart_chars (negative : Bool) {ds rest : List Char} (given : ds ≠ [])
    (digits : ∀ c ∈ ds, isDigit c = true) (after : Ends isDigit rest) :
    Tree.exponentPart ((if negative then '-' else '+') :: (ds ++ rest)) =
      some ((negative, ds), rest) := by
  have some : ds.isEmpty = false := by simpa using given
  cases negative with
  | true => simp [Tree.exponentPart, takeWhile_run digits after, dropWhile_run digits after, some]
  | false => simp [Tree.exponentPart, takeWhile_run digits after, dropWhile_run digits after, some]

theorem ends_exponentChars {rest : List Char} (e : Option (Bool × List Char))
    (after : Delimited rest) :
    Ends isDigit (exponentChars e ++ rest) := by
  cases e with
  | none => exact after.ends
  | some e => exact ends_cons (by decide)

theorem ends_fractionChars {rest : List Char} (ds : List Char) (after : Ends isDigit rest) :
    Ends isDigit (fractionChars ds ++ rest) := by
  cases ds with
  | nil => exact after
  | cons d ds => exact ends_cons (by decide)

def ending (negative : Bool) (whole fraction cs : List Char) : Option (Literal × List Char) :=
  match cs with
  | c :: tail =>
    if c = 'e' ∨ c = 'E' then do
      let (e, rest) ← Tree.exponentPart tail
      return (⟨negative, whole, fraction, some e⟩, rest)
    else return (⟨negative, whole, fraction, none⟩, cs)
  | [] => return (⟨negative, whole, fraction, none⟩, [])

theorem ending_chars (negative : Bool) (whole fraction : List Char)
    {exponent : Option (Bool × List Char)} (powers : ∀ e, exponent = some e →
      e.2 ≠ [] ∧ ∀ c ∈ e.2, isDigit c = true) {rest : List Char}
    (after : Delimited rest) :
    ending negative whole fraction (exponentChars exponent ++ rest) =
      some (⟨negative, whole, fraction, exponent⟩, rest) := by
  cases exponent with
  | none =>
    cases rest with
    | nil => rfl
    | cons c tail =>
      have other : ¬(c = 'e' ∨ c = 'E') := by
        rcases after c rfl with rfl | rfl | rfl <;> decide
      exact if_neg other
  | some e =>
    obtain ⟨given, digits⟩ := powers e rfl
    have read := exponentPart_chars e.1 given digits after.ends
    simp only [exponentChars, List.cons_append, ending, read]
    rfl

theorem numberBody_magnitude {l : Literal} (proper : l.Proper) {rest : List Char}
    (after : Delimited rest) :
    Tree.numberBody l.negative (l.magnitude ++ rest) = some (l, rest) := by
  obtain ⟨negative, whole, fraction, exponent⟩ := l
  obtain ⟨given, leading, digits, places, powers⟩ := proper
  dsimp only at given leading digits places powers
  have tail : Ends isDigit (exponentChars exponent ++ rest) := ends_exponentChars exponent after
  have point : Ends isDigit (fractionChars fraction ++ (exponentChars exponent ++ rest)) :=
    ends_fractionChars fraction tail
  have finish := ending_chars negative whole fraction powers after
  rw [Tree.numberBody, magnitude]
  simp only [List.append_assoc]
  rw [takeWhile_run digits point, dropWhile_run digits point]
  split
  · exact absurd rfl given
  · next d ds => exact absurd rfl (leading d ds)
  · cases fraction with
    | nil =>
      rw [fractionChars, List.nil_append]
      split
      · next same =>
        have first : (exponentChars exponent ++ rest).head? = some '.' := congrArg List.head? same
        exfalso
        cases exponent with
        | none => exact absurd (after '.' first) (by decide)
        | some e => cases first
      · exact finish
    | cons d ds =>
      have run : d :: (ds ++ (exponentChars exponent ++ rest)) =
        (d :: ds) ++ (exponentChars exponent ++ rest) := rfl
      rw [fractionChars, List.cons_append, List.cons_append, run]
      split
      · next same =>
        cases (List.cons.inj same).2
        rw [takeWhile_run places tail, dropWhile_run places tail]
        exact finish
      · next other => exact absurd rfl (other _)

end Literal

end Json

namespace Number

def laidOut (negative : Bool) (ds : List Char) (point : Int) : Json.Literal :=
  if style.positionalFrom ≤ point ∧ point ≤ 0 then
    ⟨negative, ['0'], List.replicate (-point).toNat '0' ++ ds, none⟩
  else if 0 < point ∧ point ≤ style.positionalTo then
    if ds.length ≤ point.toNat then
      ⟨negative, ds ++ List.replicate (point.toNat - ds.length) '0', ['0'], none⟩
    else ⟨negative, ds.take point.toNat, ds.drop point.toNat, none⟩
  else
    ⟨negative, ds.take 1, ds.drop 1,
      some (decide (point - 1 < 0), Nat.toDigits 10 (point - 1).natAbs)⟩

def literal : Number → Json.Literal
  | int n => ⟨decide (n < 0), Nat.toDigits 10 n.natAbs, [], none⟩
  | float x =>
    if x.isZero then ⟨x.negative, ['0'], ['0'], none⟩
    else
      let ds := Nat.toDigits 10 x.shortest.digits
      laidOut x.negative ds (ds.length + x.shortest.exponent)

@[simp] theorem laidOut_negative (negative : Bool) (ds : List Char) (point : Int) :
    (laidOut negative ds point).negative = negative := by
  unfold laidOut
  split_ifs <;> rfl

theorem fractionChars_of_ne_nil {ds : List Char} (given : ds ≠ []) :
    Json.Literal.fractionChars ds = '.' :: ds := by
  obtain ⟨d, rest, rfl⟩ := List.exists_cons_of_ne_nil given
  rfl

theorem mantissa_eq (ds : List Char) :
    mantissa ds = ds.take 1 ++ Json.Literal.fractionChars (ds.drop 1) := by
  match ds with
  | [] => rfl
  | [d] => rfl
  | d :: e :: rest => rfl

theorem exponentChars_eq (e : Int) :
    'e' :: Binary64.exponentChars e =
      Json.Literal.exponentChars (some (decide (e < 0), Nat.toDigits 10 e.natAbs)) := by
  cases e with
  | ofNat n =>
    have sign : ¬(Int.ofNat n < 0) := Int.not_lt.mpr (Int.natCast_nonneg n)
    simp only [Json.Literal.exponentChars, sign]
    rfl
  | negSucc n =>
    have sign : Int.negSucc n < 0 := Int.negSucc_lt_zero n
    simp only [Json.Literal.exponentChars, sign]
    rfl

theorem laidOut_magnitude (negative : Bool) {ds : List Char} (given : ds ≠ []) (point : Int) :
    (laidOut negative ds point).magnitude = (layout style ds point).toList := by
  by_cases small : style.positionalFrom ≤ point ∧ point ≤ 0
  · have places : List.replicate (-point).toNat '0' ++ ds ≠ [] := by simp [given]
    unfold laidOut layout
    rw [if_pos small, if_pos small, String.toList_ofList, Json.Literal.magnitude,
      fractionChars_of_ne_nil places]
    simp [Json.Literal.exponentChars]
  · by_cases large : 0 < point ∧ point ≤ style.positionalTo
    · unfold laidOut layout
      rw [if_neg small, if_pos large, if_neg small, if_pos large]
      dsimp only
      split
      · rw [String.toList_append, String.toList_ofList]
        rfl
      · next narrow =>
        have places : ds.drop point.toNat ≠ [] := by simpa using narrow
        rw [String.toList_ofList, Json.Literal.magnitude, fractionChars_of_ne_nil places]
        simp [Json.Literal.exponentChars]
    · rw [laidOut, if_neg small, if_neg large, layout_scientific small large, mantissa_eq,
        exponentChars_eq, Json.Literal.magnitude, List.append_assoc]

theorem literal_chars (n : Number) : n.literal.chars = n.text.toList := by
  cases n with
  | int n =>
    cases n with
    | ofNat n =>
      have sign : ¬(Int.ofNat n < 0) := Int.not_lt.mpr (Int.natCast_nonneg n)
      simp [literal, text, Json.Literal.chars, Json.Literal.magnitude, Json.Literal.fractionChars,
        Json.Literal.exponentChars, Text.signedDecimal, Text.decimal_toList]
    | negSucc n =>
      have sign : Int.negSucc n < 0 := Int.negSucc_lt_zero n
      simp [literal, text, Json.Literal.chars, Json.Literal.magnitude, Json.Literal.fractionChars,
        Json.Literal.exponentChars, Text.signedDecimal, Text.decimal_toList, sign]
  | float x =>
    have sign : (if x.negative then "-" else "").toList = if x.negative then ['-'] else [] := by
      split <;> rfl
    rw [literal, text, floatText]
    dsimp only
    split
    · rw [String.toList_append, sign]
      rfl
    · rw [String.toList_append, sign, Json.Literal.chars, laidOut_negative,
        laidOut_magnitude _ Nat.toDigits_ne_nil]

theorem toDigits_head {n : Nat} (positive : n ≠ 0) : (Nat.toDigits 10 n).head? ≠ some '0' := by
  induction n using Nat.strongRecOn with
  | ind n ih =>
    by_cases small : n < 10
    · have all : ∀ n : Fin 10, n.val ≠ 0 → n.val.digitChar ≠ '0' := by decide
      rw [Nat.toDigits_of_lt_base small]
      exact fun same => all ⟨n, small⟩ positive (Option.some.inj same)
    · obtain ⟨c, rest, chars⟩ :=
        List.exists_cons_of_ne_nil (Nat.toDigits_ne_nil (n := n / 10) (b := 10))
      have before := ih (n / 10) (by omega) (by omega)
      rw [chars] at before
      rw [Nat.toDigits_of_base_le (by decide) (Nat.not_lt.mp small), chars]
      exact before

theorem proper_laidOut (negative : Bool) {ds : List Char} (given : ds ≠ [])
    (digits : ∀ c ∈ ds, isDigit c = true) (first : ds.head? ≠ some '0') (point : Int) :
    (laidOut negative ds point).Proper := by
  have zeros (k : Nat) : ∀ c ∈ List.replicate k '0', isDigit c = true := by
    intro c zero
    rw [List.eq_of_mem_replicate zero]
    decide
  have zero : ∀ c ∈ ['0'], isDigit c = true := zeros 1
  obtain ⟨d, rest, rfl⟩ := List.exists_cons_of_ne_nil given
  have leading (more : List Char) : ∀ e es, d :: more ≠ '0' :: e :: es := fun e es same =>
    first (congrArg List.head? same)
  unfold laidOut
  split_ifs with small large wide
  · exact ⟨List.cons_ne_nil _ _, fun _ _ => by simp, zero,
      List.forall_mem_append.mpr ⟨zeros _, digits⟩, by simp⟩
  · exact ⟨List.cons_ne_nil _ _, leading _, List.forall_mem_append.mpr ⟨digits, zeros _⟩,
      zero, by simp⟩
  · obtain ⟨p, exponent⟩ : ∃ p : Nat, point.toNat = p + 1 := ⟨point.toNat - 1, by omega⟩
    rw [exponent]
    exact ⟨List.cons_ne_nil _ _, leading _, fun c mem => digits c (List.mem_of_mem_take mem),
      fun c mem => digits c (List.mem_of_mem_drop mem), by simp⟩
  · refine ⟨List.cons_ne_nil _ _, leading _, fun c mem => digits c (List.mem_of_mem_take mem),
      fun c mem => digits c (List.mem_of_mem_drop mem), ?_⟩
    rintro e ⟨⟩
    exact ⟨Nat.toDigits_ne_nil, fun c => Text.isDigit_of_mem_toDigits⟩

theorem proper_literal (n : Number) : n.literal.Proper := by
  cases n with
  | int n =>
    refine ⟨Nat.toDigits_ne_nil, fun d ds same => ?_,
      fun c => Text.isDigit_of_mem_toDigits, by simp [literal], by simp [literal]⟩
    by_cases zero : n.natAbs = 0
    · rw [literal, zero] at same
      cases same
    · exact toDigits_head zero (congrArg List.head? same)
  | float x =>
    rw [literal]
    split
    · next zero =>
      have digit : ∀ c ∈ ['0'], isDigit c = true := Text.forall_of_all (by decide)
      exact ⟨List.cons_ne_nil _ _, fun _ _ => by simp, digit, digit, by simp⟩
    · next shown =>
      have positive : x.units ≠ 0 := by simpa [Binary64.isZero] using shown
      have digits := (Binary64.for_shortest positive).digits_ne_zero positive
      exact proper_laidOut _ Nat.toDigits_ne_nil (fun c => Text.isDigit_of_mem_toDigits)
        (toDigits_head digits) _

end Number

end Reports
