import Reports.Binary64.Decimal
import Mathlib.Tactic.Ring
import Mathlib.Tactic.GCongr
import Mathlib.Algebra.Order.Ring.Nat

/-! Decimals that stand for a binary number. A value does not depend on how many zeros its decimal
ends in, and the digits chosen for a number round to it. -/
namespace Reports.Binary64

theorem roundDiv_scale {c : Nat} (hc : 0 < c) (num den : Nat) :
    roundDiv (num * c) (den * c) = roundDiv num den := by
  have quotient : num * c / (den * c) = num / den := Nat.mul_div_mul_right num den hc
  have remainder : num * c % (den * c) = num % den * c := Nat.mul_mod_mul_right c num den
  have below : 2 * (num % den * c) < den * c ↔ 2 * (num % den) < den := by
    rw [← Nat.mul_assoc]
    exact Nat.mul_lt_mul_right hc
  have above : den * c < 2 * (num % den * c) ↔ den < 2 * (num % den) := by
    rw [← Nat.mul_assoc]
    exact Nat.mul_lt_mul_right hc
  simp only [roundDiv, quotient, remainder, below, above]

theorem roundDiv_mul {den : Nat} (hden : 0 < den) (k : Nat) : roundDiv (k * den) den = k := by
  simp [roundDiv, hden]

theorem div_le_roundDiv (num den : Nat) : num / den ≤ roundDiv num den := by
  simp only [roundDiv]
  split
  · exact Nat.le_refl _
  · split
    · exact Nat.le_succ _
    · split
      · exact Nat.le_refl _
      · exact Nat.le_succ _

theorem nearest_scale {c : Nat} (hc : 0 < c) (num den : Nat) :
    nearest (num * c) (den * c) = nearest num den := by
  have quotient : num * c / (den * c) = num / den := Nat.mul_div_mul_right num den hc
  simp only [nearest, quotient, Nat.mul_right_comm den c, roundDiv_scale hc]

theorem ofRatio_scale {c : Nat} (hc : 0 < c) (negative : Bool) (num den : Nat) :
    ofRatio negative (num * c) (den * c) = ofRatio negative num den := by
  simp only [ofRatio, nearest_scale hc]

theorem spacing_pos (u : Nat) : 0 < spacing u := Nat.pow_pos (by decide)

theorem nearest_of_representable {u : Nat} (representable : Representable u) : nearest u 1 = u := by
  have multiple : u / spacing u * spacing u = u := Nat.div_mul_cancel representable.1
  have exact := roundDiv_mul (spacing_pos u) (u / spacing u)
  rw [multiple] at exact
  rw [nearest, Nat.div_one, Nat.one_mul, exact, multiple]

theorem ofRatio_eq_finite {negative : Bool} {num den : Nat} {x : Binary64} :
    ofRatio negative num den = .finite x ↔
    x.negative = negative ∧ nearest num den = x.units := by
  obtain ⟨sign, u, representable⟩ := x
  simp only [ofRatio]
  constructor
  · intro h
    split at h
    · cases h
      exact ⟨rfl, rfl⟩
    · cases h
  · rintro ⟨rfl, rfl⟩
    rw [dif_pos representable]

theorem nearest_of_small {num den : Nat} (small : 2 * num < den) : nearest num den = 0 := by
  have less : num < den := by omega
  have whole : num / den = 0 := Nat.div_eq_of_lt less
  have rest : num % den = num := Nat.mod_eq_of_lt less
  have unit : spacing 0 = 1 := by decide
  simp [nearest, roundDiv, whole, rest, unit, small]

theorem limit_le_nearest {q : Nat} (large : limit ≤ q) : limit ≤ nearest q 1 := by
  have positive : q ≠ 0 := by
    rintro rfl
    exact absurd large (Nat.not_le.mpr (Nat.pow_pos (by decide)))
  have digits : 2098 ≤ q.log2 := (Nat.le_log2 positive).mpr large
  have split : 2 ^ q.log2 = 2 ^ 52 * spacing q := by
    rw [spacing, Nat.pow_eq, ← Nat.pow_add]
    congr 1
    omega
  have leading : 2 ^ 52 ≤ q / spacing q := by
    rw [Nat.le_div_iff_mul_le (spacing_pos q), ← split]
    exact Nat.log2_self_le positive
  calc limit ≤ 2 ^ q.log2 := by
        rw [limit, Nat.pow_eq]
        exact Nat.pow_le_pow_right (by decide) digits
    _ = 2 ^ 52 * spacing q := split
    _ ≤ roundDiv q (spacing q) * spacing q :=
      Nat.mul_le_mul_right _ (leading.trans (div_le_roundDiv _ _))
    _ = nearest q 1 := by rw [nearest, Nat.div_one, Nat.one_mul]

theorem ofDecimal_shift (negative : Bool) (n : Nat) (e : Int) :
    ofDecimal negative (n * 10) e = ofDecimal negative n (e + 1) := by
  cases e with
  | ofNat e =>
    have same : n * 10 * 10 ^ e * one = n * 10 ^ (e + 1) * one := by ring
    simp only [ofDecimal, Nat.pow_eq, same, Int.ofNat_eq_natCast]
    rfl
  | negSucc e =>
    have num : n * 10 * one = n * one * 10 := by ring
    cases e with
    | zero =>
      have scaled := ofRatio_scale (c := 10) (by decide) negative (n * one) 1
      have next : (Int.negSucc 0 + 1 : Int) = .ofNat 0 := rfl
      simpa [ofDecimal, next, num] using scaled
    | succ e =>
      have den : 10 ^ (e + 1 + 1) = 10 ^ (e + 1) * 10 := by ring
      have scaled := ofRatio_scale (c := 10) (by decide) negative (n * one) (10 ^ (e + 1))
      have next : (Int.negSucc (e + 1) + 1 : Int) = .negSucc e := rfl
      simpa [ofDecimal, next, num, den] using scaled

theorem ofDecimal_mul_pow (negative : Bool) (n k : Nat) (e : Int) :
    ofDecimal negative (n * 10 ^ k) e = ofDecimal negative n (e + k) := by
  induction k generalizing e with
  | zero => simp
  | succ k ih =>
    have same : n * 10 ^ (k + 1) = n * 10 ^ k * 10 := by ring
    rw [same, ofDecimal_shift, ih, Int.add_assoc, Int.add_comm 1, Int.natCast_succ]

theorem ofDecimal_strip (negative : Bool) (fuel : Nat) (d : Digits) :
    ofDecimal negative (d.strip fuel).digits (d.strip fuel).exponent =
      ofDecimal negative d.digits d.exponent := by
  induction fuel generalizing d with
  | zero => rfl
  | succ fuel ih =>
    rw [Digits.strip]
    split
    · next h =>
      have whole : d.digits / 10 * 10 = d.digits := Nat.div_mul_cancel (Nat.dvd_of_mod_eq_zero h.2)
      rw [ih, ← ofDecimal_shift, whole]
    · rfl

theorem ofDecimal_ofNat (negative : Bool) (n k : Nat) :
    ofDecimal negative n (.ofNat k) = ofRatio negative (n * 10 ^ k * one) 1 := rfl

theorem ofDecimal_negSucc (negative : Bool) (n k : Nat) :
    ofDecimal negative n (.negSucc k) = ofRatio negative (n * one) (10 ^ (k + 1)) := rfl

theorem ofDecimal_negative {n : Nat} {e : Int} {x : Binary64} (h : ofDecimal false n e = .finite x)
    (negative : Bool) : ofDecimal negative n e = .finite { x with negative } := by
  cases e with
  | ofNat k => exact ofRatio_eq_finite.mpr ⟨rfl, (ofRatio_eq_finite.mp h).2⟩
  | negSucc k => exact ofRatio_eq_finite.mpr ⟨rfl, (ofRatio_eq_finite.mp h).2⟩

/-- The digits round to the number. -/
def Digits.For (d : Digits) (x : Binary64) : Prop :=
  ofDecimal x.negative d.digits d.exponent = .finite x

theorem for_of_readsAs {d : Digits} {x : Binary64} (h : readsAs x.units d = true) : d.For x := by
  unfold readsAs at h
  split at h
  · next y finite =>
    rw [Digits.For, ofDecimal_negative finite]
    obtain ⟨negative, units, representable⟩ := x
    obtain rfl : y.units = units := by simpa using h
    rfl
  · cases h

/-- As many digits stand behind the point as the unit was halved times. -/
theorem ofDecimal_halved (negative : Bool) (u k : Nat) (halvings : one = 2 ^ (k + 1)) :
    ofDecimal negative (u * 5 ^ (k + 1)) (.negSucc k) = ofRatio negative u 1 := by
  have num : u * 5 ^ (k + 1) * one = u * 10 ^ (k + 1) := by
    rw [halvings, Nat.mul_assoc, ← Nat.mul_pow]
  have scaled := ofRatio_scale (Nat.pow_pos (n := k + 1) (show 0 < 10 by decide)) negative u 1
  rw [Nat.one_mul] at scaled
  rw [ofDecimal_negSucc, num, scaled]

theorem for_expansion (x : Binary64) : (expansion x.units).For x := by
  have rounded : ofRatio x.negative x.units 1 = .finite x :=
    ofRatio_eq_finite.mpr ⟨rfl, nearest_of_representable x.representable⟩
  exact (ofDecimal_halved x.negative x.units 1073 rfl).trans rounded

theorem firstReading_induct {reads : Digits → Bool} {candidates : Nat → Digits × Digits}
    {otherwise : Digits} {P : Digits → Prop} (read : ∀ d, reads d = true → P d)
    (last : P otherwise)
    (fuel count : Nat) : P (firstReading reads candidates otherwise fuel count) := by
  induction fuel generalizing count with
  | zero => exact last
  | succ fuel ih =>
    rw [firstReading]
    dsimp only
    split
    · next near => exact read _ near
    · split
      · next far => exact read _ far
      · exact ih (count + 1)

theorem for_shortestFrom (x : Binary64) (fuel count : Nat) :
    (shortestFrom x.units fuel count).For x :=
  firstReading_induct (P := fun d => d.For x) (fun _ => for_of_readsAs) (for_expansion x) fuel count

/-- The shortest digits of a number stand for it. -/
theorem for_shortest {x : Binary64} (positive : x.units ≠ 0) : x.shortest.For x := by
  rw [shortest, if_neg positive, Digits.For, ofDecimal_strip]
  exact for_shortestFrom x 17 1

namespace Digits.For

variable {d : Digits} {x : Binary64} (h : d.For x) (positive : x.units ≠ 0)

include h positive

theorem digits_ne_zero : d.digits ≠ 0 := by
  intro none
  have nothing (den : Nat) : nearest 0 den = 0 := by simp [nearest, roundDiv]
  rw [Digits.For, none] at h
  cases e : d.exponent with
  | ofNat k =>
    rw [e, ofDecimal_ofNat, Nat.zero_mul, Nat.zero_mul, ofRatio_eq_finite, nothing] at h
    exact positive h.2.symm
  | negSucc k =>
    rw [e, ofDecimal_negSucc, Nat.zero_mul, ofRatio_eq_finite, nothing] at h
    exact positive h.2.symm

theorem exponent_le : d.exponent ≤ 400 := by
  have some : 1 ≤ d.digits := Nat.one_le_iff_ne_zero.mpr (digits_ne_zero h positive)
  by_contra beyond
  obtain ⟨k, large, same⟩ : ∃ k : Nat, 401 ≤ k ∧ d.exponent = .ofNat k :=
    ⟨d.exponent.toNat, by omega, by simp; omega⟩
  have much : limit ≤ d.digits * 10 ^ k * one := by
    have tens : 10 ^ 401 ≤ 10 ^ k := Nat.pow_le_pow_right (by decide) large
    calc limit ≤ 1 * 10 ^ 401 * one := by decide +kernel
      _ ≤ d.digits * 10 ^ k * one := by gcongr
  rw [Digits.For, same, ofDecimal_ofNat, ofRatio_eq_finite] at h
  have fits := h.2 ▸ limit_le_nearest much
  exact absurd x.representable.2 (Nat.not_lt.mpr fits)

theorem le_exponent {places : Nat} (fits : d.digits < 10 ^ places) :
    -400 - (places : Int) ≤ d.exponent := by
  by_contra beyond
  obtain ⟨k, small, same⟩ : ∃ k : Nat, 400 + places ≤ k ∧ d.exponent = .negSucc k :=
    ⟨(-d.exponent - 1).toNat, by omega, by rw [Int.negSucc_eq]; omega⟩
  have little : 2 * (d.digits * one) < 10 ^ (k + 1) := by
    have half : 2 * one < 10 ^ 400 := by decide +kernel
    calc 2 * (d.digits * one) ≤ 2 * (10 ^ places * one) := by gcongr
      _ = 2 * one * 10 ^ places := by ring
      _ < 10 ^ 400 * 10 ^ places := Nat.mul_lt_mul_of_pos_right half (Nat.pow_pos (by decide))
      _ = 10 ^ (400 + places) := (Nat.pow_add _ _ _).symm
      _ ≤ 10 ^ (k + 1) := Nat.pow_le_pow_right (by decide) (by omega)
  rw [Digits.For, same, ofDecimal_negSucc, ofRatio_eq_finite, nearest_of_small little] at h
  exact positive h.2.symm

end Digits.For

end Reports.Binary64
