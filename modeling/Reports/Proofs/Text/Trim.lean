import Mathlib.Data.List.DropRight
import Reports.Proofs.Json.Number
import Reports.Text.Basic

/-! Text without blanks around it: trimming leaves it as it is. -/
namespace Reports.Text

theorem trimEnd_eq (cs : List Char) : trimEnd cs = cs.rdropWhile isBlank := rfl

theorem trimStart_trimEnd {cs : List Char} (started : trimStart cs = cs) :
    trimStart (trimEnd cs) = trimEnd cs := by
  have short : trimEnd cs <+: cs := List.rdropWhile_prefix isBlank cs
  generalize trimEnd cs = ds at short
  obtain ⟨rest, rfl⟩ := short
  cases ds with
  | nil => rfl
  | cons c ds =>
    rw [trimStart, List.dropWhile_eq_self_iff] at started
    have visible : ¬isBlank c = true := started (Nat.succ_pos _)
    rw [trimStart, List.dropWhile_cons_of_neg visible]

theorem trimChars_trimChars (cs : List Char) : trimChars (trimChars cs) = trimChars cs := by
  have started : trimStart (trimStart cs) = trimStart cs := List.dropWhile_idempotent isBlank cs
  have ended (cs : List Char) : trimEnd (trimEnd cs) = trimEnd cs :=
    List.rdropWhile_idempotent isBlank cs
  rw [trimChars, trimChars, trimStart_trimEnd started, ended]

theorem trim_trim (s : String) : trim (trim s) = trim s := by
  rw [trim, trim, String.toList_ofList, trimChars_trimChars]

theorem trimChars_of_visible {cs : List Char} (visible : ∀ c ∈ cs, isBlank c = false) :
    trimChars cs = cs := by
  have started : trimStart cs = cs := by
    cases cs with
    | nil => rfl
    | cons c rest =>
      rw [trimStart, List.dropWhile_cons_of_neg (by simp [visible c List.mem_cons_self])]
  rw [trimChars, started, trimEnd_eq, List.rdropWhile_eq_self_iff]
  intro some
  rw [visible _ (List.getLast_mem some)]
  exact Bool.false_ne_true

theorem isBlank_of_isNumberChar {c : Char} (number : Number.isNumberChar c = true) :
    isBlank c = false := by
  rcases Number.isNumberChar_cases number with digit | rfl | rfl | rfl | rfl
  · obtain ⟨low, high⟩ : 48 ≤ c.toNat ∧ c.toNat ≤ 57 := isDigit_iff.mp digit
    simp only [isBlank, Bool.or_eq_false_iff, Bool.and_eq_false_iff, decide_eq_false_iff_not,
      beq_eq_false_iff_ne]
    omega
  all_goals decide

theorem trim_number (n : Number) : trim n.text = n.text := by
  have visible : ∀ c ∈ n.text.toList, isBlank c = false := fun c mem =>
    isBlank_of_isNumberChar (n.numeric_text c mem)
  rw [trim, trimChars_of_visible visible, String.ofList_toList]

end Reports.Text
