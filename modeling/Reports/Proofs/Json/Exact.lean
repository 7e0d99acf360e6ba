import Reports.Proofs.Json.Literal

/-! Numbers that the reader gets back from their texts: whole numbers of 64 bits, and floating-point
numbers with few digits and a small power of ten. Of others it may be one unit off. -/
namespace Reports

open Text (isDigit)

namespace Number

/-- The literal of the number stands for it. -/
def Exact (n : Number) : Prop := ofLiteral n.literal = some n

theorem le_ofDigitChars (cs : List Char) (start : Nat) :
    start ≤ Nat.ofDigitChars 10 cs start := by
  induction cs generalizing start with
  | nil => exact Nat.le_refl _
  | cons c rest ih =>
    rw [Nat.ofDigitChars_cons]
    exact Nat.le_trans (by omega) (ih _)

theorem gather_all {cs : List Char} {start : Nat}
    (fits : Nat.ofDigitChars 10 cs start ≤ maxUInt64) :
    gather start cs = (Nat.ofDigitChars 10 cs start, []) := by
  induction cs generalizing start with
  | nil => rfl
  | cons c rest ih =>
    rw [Nat.ofDigitChars_cons] at fits ⊢
    have here : ¬maxUInt64 < 10 * start + (c.toNat - '0'.toNat) :=
      Nat.not_lt.mpr (Nat.le_trans (le_ofDigitChars rest _) fits)
    rw [gather, if_neg here, ih fits]

/-- Whole numbers of 64 bits, signed or not, are read as they are written. -/
theorem exact_int {n : Int} (low : minInt64 ≤ n) (high : n ≤ maxUInt64) : (int n).Exact := by
  have wide : -(maxUInt64 : Int) ≤ minInt64 := by decide
  have fits : n.natAbs ≤ maxUInt64 := by omega
  have gathered : gather 0 (Nat.toDigits 10 n.natAbs) = (n.natAbs, []) := by
    rw [gather_all (Nat.ofDigitChars_ten_toDigits.symm ▸ fits), Nat.ofDigitChars_ten_toDigits]
  simp only [Exact, literal, ofLiteral, gathered, List.isEmpty_nil, Option.isNone_none,
    Bool.and_self, if_true]
  by_cases negative : n < 0
  · have small : n.natAbs ≠ 0 ∧ minInt64 ≤ -(n.natAbs : Int) := by omega
    rw [decide_eq_true negative, if_neg (by decide), if_pos small]
    congr 2
    omega
  · rw [decide_eq_false negative, if_pos (by decide)]
    congr 2
    omega

end Number

namespace Binary64

theorem one_pos : 0 < one := by decide +kernel

theorem spacing_dvd {n : Nat} (positive : n ≠ 0) (few : n < 2 ^ 53) (k : Nat)
    (halvings : one = 2 ^ k) : spacing (n * one) ∣ one := by
  have below : n * one < 2 ^ (53 + k) := by
    rw [Nat.pow_add, halvings]
    exact Nat.mul_lt_mul_of_pos_right few (Nat.pow_pos (by decide))
  have bits : (n * one).log2 < 53 + k :=
    (Nat.log2_lt (Nat.mul_ne_zero positive one_pos.ne')).mpr below
  rw [halvings] at bits ⊢
  exact Nat.pow_dvd_pow 2 (by omega)

theorem representable_of_lt {n : Nat} (few : n < 2 ^ 53) : Representable (n * one) := by
  by_cases zero : n = 0
  · rw [zero, Nat.zero_mul]
    exact representable_zero
  have below : n * one < limit := by
    calc n * one < 2 ^ 53 * one := Nat.mul_lt_mul_of_pos_right few one_pos
      _ ≤ limit := by decide +kernel
  exact ⟨Nat.dvd_trans (spacing_dvd zero few 1074 rfl) (Nat.dvd_mul_left one n), below⟩

theorem representable_ten {k : Nat} (small : k ≤ 22) : Representable (10 ^ k * one) := by
  have all : ∀ k : Fin 23, Representable (10 ^ k.val * one) := by decide +kernel
  exact all ⟨k, Nat.lt_succ_of_le small⟩

theorem ofRatio_of_representable (negative : Bool) {u : Nat} (representable : Representable u) :
    ofRatio negative u 1 = .finite ⟨negative, u, representable⟩ :=
  ofRatio_eq_finite.mpr ⟨rfl, nearest_of_representable representable⟩

section

variable (negative : Bool) {n k : Nat} (whole : Representable (n * one))
  (power : Representable (10 ^ k * one))

theorem mul_power : (Extended.finite ⟨negative, n * one, whole⟩).mul
    (.finite ⟨false, 10 ^ k * one, power⟩) = ofRatio negative (n * 10 ^ k * one) 1 := by
  have product : n * one * (10 ^ k * one) = n * 10 ^ k * one * one := by ring
  have rounded := ofRatio_scale one_pos negative (n * 10 ^ k * one) 1
  rw [Nat.one_mul] at rounded
  rw [Extended.mul, product, ← rounded, Bool.bne_false]

theorem div_power : (Extended.finite ⟨negative, n * one, whole⟩).div
    (.finite ⟨false, 10 ^ k * one, power⟩) = ofRatio negative (n * one) (10 ^ k) := by
  have positive : 10 ^ k * one ≠ 0 := Nat.mul_ne_zero (Nat.pow_pos (by decide)).ne' one_pos.ne'
  have shown : isZero ⟨false, 10 ^ k * one, power⟩ = false := by simpa [isZero] using positive
  rw [Extended.div, shown, if_neg Bool.false_ne_true, Bool.bne_false, ofRatio_scale one_pos]

end

end Binary64

namespace Number

open Binary64

theorem powerOfTen_of_le {k : Nat} (small : k ≤ 22) :
    powerOfTen k = .finite ⟨false, 10 ^ k * one, representable_ten small⟩ := by
  rw [← ofRatio_of_representable, powerOfTen]
  exact (ofDecimal_ofNat false 1 k).trans (by rw [Nat.one_mul])

/-- Few digits and a small power of ten are represented, so only their product or quotient is
rounded. -/
theorem scale_of_small {negative : Bool} {n : Nat} (few : n < 2 ^ 53) {e : Int}
    (near : e.natAbs ≤ 22) (fuel : Nat) {x : Binary64}
    (rounds : ofDecimal negative n e = .finite x) :
    scale (fuel + 1) (Binary64.ofNat negative n) e = some x := by
  have power := powerOfTen_of_le near
  have within : e.natAbs ≤ 308 := by omega
  have whole : Binary64.ofNat negative n = .finite
      ⟨negative, n * one, representable_of_lt few⟩ :=
    ofRatio_of_representable negative (representable_of_lt few)
  have scaled : (if 0 ≤ e then (Binary64.ofNat negative n).mul (powerOfTen e.natAbs)
      else (Binary64.ofNat negative n).div (powerOfTen e.natAbs)) = .finite x := by
    rw [power, whole]
    cases e with
    | ofNat k =>
      have sign : (0 : Int) ≤ .ofNat k := Int.natCast_nonneg k
      rw [if_pos sign, mul_power, ← rounds, ofDecimal_ofNat]
      rfl
    | negSucc k =>
      have sign : ¬(0 : Int) ≤ .negSucc k := Int.not_le.mpr (Int.negSucc_lt_zero k)
      rw [if_neg sign, div_power, ← rounds, ofDecimal_negSucc]
      rfl
  simp only [scale, if_pos within, scaled]

end Number

namespace Json.Literal

def significand (l : Literal) : Nat := Nat.ofDigitChars 10 (l.whole ++ l.fraction) 0

def power : Option (Bool × List Char) → Int
  | none => 0
  | some (negative, ds) =>
    if negative then -(Nat.ofDigitChars 10 ds 0 : Int) else Nat.ofDigitChars 10 ds 0

def place (l : Literal) : Int := power l.exponent - l.fraction.length

/-- At most fifteen digits, and a power of ten that is represented exactly. -/
structure Short (l : Literal) : Prop where
  few : l.whole.length + l.fraction.length ≤ 15
  near : l.place.natAbs ≤ 22

def Marked (l : Literal) : Prop := l.fraction ≠ [] ∨ l.exponent ≠ none

section

variable {l : Literal} (proper : l.Proper) (marked : l.Marked)

include proper

theorem Short.significand_lt (short : l.Short) : l.significand < 2 ^ 53 := by
  have digits : ∀ c ∈ l.whole ++ l.fraction, isDigit c = true :=
    List.forall_mem_append.mpr ⟨proper.whole, proper.fraction⟩
  have below := Text.ofDigitChars_lt digits 0
  have few : (l.whole ++ l.fraction).length ≤ 15 := by
    rw [List.length_append]
    exact short.few
  calc l.significand < (0 + 1) * 10 ^ (l.whole ++ l.fraction).length := below
    _ ≤ (0 + 1) * 10 ^ 15 := Nat.mul_le_mul_left _ (Nat.pow_le_pow_right (by decide) few)
    _ < 2 ^ 53 := by decide

include marked

theorem Short.ofLiteral (short : l.Short) :
    Number.ofLiteral l = Number.ofParts l.negative l.significand l.place := by
  have fits : l.significand ≤ maxUInt64 :=
    Nat.le_of_lt (Nat.lt_trans (short.significand_lt proper) (by decide))
  have both : Nat.ofDigitChars 10 l.fraction (Nat.ofDigitChars 10 l.whole 0) = l.significand := by
    rw [significand, Nat.ofDigitChars_append]
  have first : Number.gather 0 l.whole = (Nat.ofDigitChars 10 l.whole 0, []) :=
    Number.gather_all (Nat.le_trans (Number.le_ofDigitChars l.fraction _) (both ▸ fits))
  have second := Number.gather_all (both ▸ fits)
  rw [both] at second
  have other : (l.fraction.isEmpty && l.exponent.isNone) = false := by
    rcases marked with point | power
    · simp [point]
    · simp [Option.ne_none_iff_isSome.mp power]
  obtain ⟨few, near⟩ := short
  simp only [Number.ofLiteral, first, second, List.isEmpty_nil, Bool.true_and, other,
    Bool.false_eq_true, if_false, List.length_nil]
  cases written : l.exponent with
  | none =>
    rw [place, written]
    rfl
  | some e =>
    obtain ⟨less, ds⟩ := e
    rw [place, written] at near
    have small : Nat.ofDigitChars 10 ds 0 ≤ 37 := by
      cases less <;> simp only [power, if_true, Bool.false_eq_true, if_false] at near <;> omega
    have value : Number.exponentValue ds = some (Nat.ofDigitChars 10 ds 0) :=
      if_pos (Nat.le_trans small (by decide))
    simp only [value]
    congr 1
    rw [place, written]
    cases less <;> simp only [power, if_true, Bool.false_eq_true, if_false] <;> omega

omit marked

theorem readExponent_power {e : Bool × List Char} (written : l.exponent = some e) :
    Binary64.readExponent ((if e.1 then '-' else '+') :: e.2) = some (power l.exponent) := by
  obtain ⟨given, digits⟩ := proper.exponent e written
  have some : e.2.isEmpty = false := by simpa using given
  have all : e.2.all isDigit = true := List.all_eq_true.mpr digits
  rw [written]
  obtain ⟨negative, ds⟩ := e
  cases negative with
  | true => simp [Binary64.readExponent, some, all, power, Nat.ofDigitChars]
  | false => simp [Binary64.readExponent, some, all, power, Nat.ofDigitChars]

theorem scaled_exponentChars : Binary64.Scaled (exponentChars l.exponent) (power l.exponent) := by
  cases written : l.exponent with
  | none => exact Or.inl ⟨rfl, rfl⟩
  | some e => exact Or.inr ⟨_, rfl, written ▸ readExponent_power proper written⟩

include marked

theorem readMagnitude : Binary64.readMagnitude l.negative l.magnitude =
    some (Binary64.ofDigits l.negative (l.whole ++ l.fraction) l.place) := by
  cases digits : l.fraction with
  | cons d ds =>
    rw [magnitude, digits, place, digits]
    exact Binary64.readMagnitude_point _ proper.given proper.whole (digits ▸ proper.fraction)
      (scaled_exponentChars proper)
  | nil =>
    obtain ⟨e, written⟩ :=
      Option.ne_none_iff_exists'.mp (marked.resolve_left (not_not.mpr digits))
    have read := Binary64.readMagnitude_whole l.negative proper.given proper.whole
      (readExponent_power proper written)
    rw [magnitude, digits, place, digits, List.append_nil, written]
    rw [written] at read
    simpa [fractionChars, exponentChars] using read

end

end Json.Literal

namespace Number

theorem marked_laidOut (negative : Bool) {ds : List Char} (given : ds ≠ []) (point : Int) :
    (laidOut negative ds point).Marked := by
  unfold laidOut
  split_ifs with small large wide
  · exact Or.inl (by simp [given])
  · exact Or.inl (List.cons_ne_nil _ _)
  · exact Or.inl (by simpa using wide)
  · exact Or.inr (by simp)

theorem marked_float (x : Binary64) : (float x).literal.Marked := by
  rw [literal]
  split
  · exact Or.inl (List.cons_ne_nil _ _)
  · exact marked_laidOut _ Nat.toDigits_ne_nil _

theorem ofDecimal_of_ofDigits {negative : Bool} {cs : List Char} {e : Int} {x : Binary64}
    (positive : x.units ≠ 0) (near : e.natAbs ≤ 22)
    (read : Binary64.ofDigits negative cs e = .finite x) :
    Binary64.ofDecimal negative (Nat.ofDigitChars 10 cs 0) e = .finite x := by
  have value : cs.foldl (fun acc c => 10 * acc + (c.toNat - '0'.toNat)) 0 =
    Nat.ofDigitChars 10 cs 0 := rfl
  simp only [Binary64.ofDigits, value] at read
  rw [if_neg (c := 400 < e) (by omega), if_neg (c := e < -400 - (cs.length : Int))
    (by omega)] at read
  split at read
  · cases read
    exact absurd rfl positive
  · exact read

theorem ofDecimal_literal {x : Binary64} (near : (float x).literal.place.natAbs ≤ 22) :
    Binary64.ofDecimal (float x).literal.negative (float x).literal.significand
      (float x).literal.place = .finite x := by
  by_cases zero : x.units = 0
  · have signed : ∀ b, Binary64.ofDecimal (float (.zero b)).literal.negative
        (float (.zero b)).literal.significand (float (.zero b)).literal.place =
          .finite (.zero b) := by
      decide +kernel
    obtain ⟨negative, units, representable⟩ := x
    obtain rfl : units = 0 := zero
    exact signed negative
  · have shown : x.isZero = false := by simpa [Binary64.isZero] using zero
    have laid : (float x).literal = laidOut x.negative (Nat.toDigits 10 x.shortest.digits)
        ((Nat.toDigits 10 x.shortest.digits).length + x.shortest.exponent) := by
      rw [literal, shown]
      rfl
    have sign : (float x).literal.negative = x.negative := by rw [laid, laidOut_negative]
    have text := readMagnitude_layout zero (Binary64.for_shortest zero)
      (fun c => Text.isDigit_of_mem_toDigits) Nat.ofDigitChars_ten_toDigits Nat.toDigits_ne_nil
    rw [← laidOut_magnitude x.negative Nat.toDigits_ne_nil, ← laid, ← sign,
      Json.Literal.readMagnitude (proper_literal _) (marked_float x), Option.some.injEq] at text
    exact ofDecimal_of_ofDigits zero near text

/-- Floating-point numbers with a short text are read as they are written. -/
theorem exact_float {x : Binary64} (short : (float x).literal.Short) : (float x).Exact := by
  have few := short.significand_lt (proper_literal _)
  rw [Exact, short.ofLiteral (proper_literal _) (marked_float x), ofParts,
    scale_of_small few short.near 3 (ofDecimal_literal short.near)]
  rfl

end Number

end Reports
