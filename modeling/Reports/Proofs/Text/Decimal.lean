import Reports.Text.Basic
import Mathlib.Tactic.Ring
import Mathlib.Algebra.Order.Ring.Nat

/-! Whole numbers in decimal: what their digits are, where they end, and what a list of digits
stands for. -/
namespace Reports.Text

theorem forall_of_all {p : Char → Prop} [DecidablePred p] {cs : List Char}
    (all : (cs.all fun c => decide (p c)) = true) : ∀ c ∈ cs, p c :=
  fun c mem => of_decide_eq_true (List.all_eq_true.mp all c mem)

/-- A run of characters with a property ends before this text. -/
def Ends (p : Char → Bool) (tail : List Char) : Prop := ∀ c, tail.head? = some c → p c = false

section

variable {p : Char → Bool} {run tail : List Char}

theorem ends_nil : Ends p [] := by
  rintro c ⟨⟩

theorem ends_cons {c : Char} {rest : List Char} (h : p c = false) : Ends p (c :: rest) := by
  rintro d ⟨⟩
  exact h

theorem takeWhile_run (inside : ∀ c ∈ run, p c = true) (ends : Ends p tail) :
    (run ++ tail).takeWhile p = run := by
  rw [List.takeWhile_append_of_pos inside]
  cases tail with
  | nil => simp
  | cons c rest => simp [ends c rfl]

theorem dropWhile_run (inside : ∀ c ∈ run, p c = true) (ends : Ends p tail) :
    (run ++ tail).dropWhile p = tail := by
  rw [List.dropWhile_append_of_pos inside]
  cases tail with
  | nil => rfl
  | cons c rest => simp [ends c rfl]

/-- Where a run ends, two texts that are the same fall apart in the same way. -/
theorem run_unique {run' tail' : List Char} (inside : ∀ c ∈ run, p c = true)
    (inside' : ∀ c ∈ run', p c = true) (ends : Ends p tail) (ends' : Ends p tail')
    (same : run ++ tail = run' ++ tail') : run = run' ∧ tail = tail' := by
  have left := takeWhile_run inside ends
  have right := dropWhile_run inside ends
  rw [same, takeWhile_run inside' ends'] at left
  rw [same, dropWhile_run inside' ends'] at right
  exact ⟨left.symm, right.symm⟩

end

theorem isDigit_iff {c : Char} : isDigit c = true ↔
    '0'.toNat ≤ c.toNat ∧ c.toNat ≤ '9'.toNat := by
  simp only [isDigit, Bool.and_eq_true, decide_eq_true_eq, Char.le_def, UInt32.le_iff_toNat_le]
  rfl

theorem isDigit_of_mem_toDigits {n : Nat} {c : Char} (h : c ∈ Nat.toDigits 10 n) :
    isDigit c = true := by
  have digit := Nat.isDigit_of_mem_toDigits (by decide) (by decide) h
  simp only [Char.isDigit, Bool.and_eq_true, decide_eq_true_eq] at digit
  simp only [isDigit, Bool.and_eq_true, decide_eq_true_eq, Char.le_def]
  exact digit

theorem decimal_toList (n : Nat) : (decimal n).toList = Nat.toDigits 10 n := String.toList_ofList

theorem isDigit_of_mem_decimal {n : Nat} {c : Char} (h : c ∈ (decimal n).toList) :
    isDigit c = true :=
  isDigit_of_mem_toDigits (decimal_toList n ▸ h)

theorem decimal_injective {m n : Nat} (h : decimal m = decimal n) : m = n := by
  have digits := congrArg String.toList h
  rw [decimal_toList, decimal_toList] at digits
  rw [← @Nat.ofDigitChars_ten_toDigits m, digits, Nat.ofDigitChars_ten_toDigits]

theorem ofDigitChars_lt {cs : List Char} (digits : ∀ c ∈ cs, isDigit c = true) (start : Nat) :
    Nat.ofDigitChars 10 cs start < (start + 1) * 10 ^ cs.length := by
  induction cs generalizing start with
  | nil => simp
  | cons c rest ih =>
    have digit := (isDigit_iff.mp (digits c List.mem_cons_self)).2
    have later :=
      ih (fun d hd => digits d (List.mem_cons_of_mem _ hd)) (10 * start + (c.toNat - '0'.toNat))
    have small : 10 * start + (c.toNat - '0'.toNat) + 1 ≤ (start + 1) * 10 := by
      have nine : '9'.toNat - '0'.toNat = 9 := by decide
      omega
    calc Nat.ofDigitChars 10 (c :: rest) start
      _ < (10 * start + (c.toNat - '0'.toNat) + 1) * 10 ^ rest.length := by
        rw [Nat.ofDigitChars_cons]
        exact later
      _ ≤ (start + 1) * 10 * 10 ^ rest.length := Nat.mul_le_mul_right _ small
      _ = (start + 1) * 10 ^ (c :: rest).length := by rw [List.length_cons]; ring

theorem ofDigitChars_zeros_append (k : Nat) (cs : List Char) :
    Nat.ofDigitChars 10 (List.replicate k '0' ++ cs) 0 = Nat.ofDigitChars 10 cs 0 := by
  simp [Nat.ofDigitChars_append, Nat.ofDigitChars_replicate_zero]

theorem ofDigitChars_append_zeros (cs : List Char) (k : Nat) :
    Nat.ofDigitChars 10 (cs ++ List.replicate k '0') 0 = Nat.ofDigitChars 10 cs 0 * 10 ^ k := by
  rw [Nat.ofDigitChars_append, Nat.ofDigitChars_replicate_zero, Nat.mul_comm]

end Reports.Text
