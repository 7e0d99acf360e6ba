import Reports.Proofs.Text.Decimal
import Reports.Sql.Template
import Reports.Text.Word

/-! Names of placeholders: `qp` and a number in decimal. Different numbers have different names,
and a scanner for names and one for words both read such a name as a whole. -/
namespace Reports.Text

theorem isWordChar_of_isNameChar {c : Char} (h : isNameChar c = true) : isWordChar c = true := by
  have ascii : c.toNat < 128 := by
    simp only [isNameChar, isLetter, isDigit, Bool.or_eq_true, Bool.and_eq_true,
      decide_eq_true_eq, beq_iff_eq, Char.le_def, UInt32.le_iff_toNat_le] at h
    rcases h with ((⟨-, h⟩ | ⟨-, h⟩) | ⟨-, h⟩) | rfl
    · exact Nat.lt_of_le_of_lt h (by decide)
    · exact Nat.lt_of_le_of_lt h (by decide)
    · exact Nat.lt_of_le_of_lt h (by decide)
    · decide
  rw [isWordChar, if_pos ascii, h]

theorem isNameChar_of_isNameStart {c : Char} (h : isNameStart c = true) : isNameChar c = true := by
  rw [isNameStart, Bool.or_eq_true] at h
  rw [isNameChar, Bool.or_eq_true, Bool.or_eq_true]
  exact h.imp_left Or.inl

/-- Every range of decimal digits lies within a range of word characters. -/
theorem digitRanges_within :
    (digitRanges.all fun r => wordRanges.any fun w => w.1.ble r.1 && r.2.ble w.2) = true := by
  decide +kernel

theorem isWordChar_of_isDecimalDigit {c : Char} (h : isDecimalDigit c = true) :
    isWordChar c = true := by
  by_cases ascii : c.toNat < 128
  · rw [isDecimalDigit, if_pos ascii] at h
    exact isWordChar_of_isNameChar (by simp [isNameChar, h])
  · rw [isDecimalDigit, if_neg ascii] at h
    obtain ⟨r, hr, inside⟩ := List.any_eq_true.mp h
    obtain ⟨w, hw, within⟩ := List.any_eq_true.mp (List.all_eq_true.mp digitRanges_within r hr)
    simp only [Bool.and_eq_true, decide_eq_true_eq, Nat.ble_eq] at inside within
    rw [isWordChar, if_neg ascii]
    apply List.any_eq_true.mpr
    refine ⟨w, hw, ?_⟩
    simp only [Bool.and_eq_true, decide_eq_true_eq]
    exact ⟨Nat.le_trans within.1 inside.1, Nat.le_trans inside.2 within.2⟩

theorem isDecimalDigit_of_isDigit {c : Char} (h : isDigit c = true) : isDecimalDigit c = true := by
  have ascii : c.toNat < 128 := by
    simp only [isDigit, Bool.and_eq_true, decide_eq_true_eq, Char.le_def,
      UInt32.le_iff_toNat_le] at h
    exact Nat.lt_of_le_of_lt h.2 (by decide)
  rw [isDecimalDigit, if_pos ascii, h]

end Reports.Text

namespace Reports.Sql

theorem placeholderName_toList (n : Nat) :
    (placeholderName n).toList = 'q' :: 'p' :: (Text.decimal n).toList := by
  rw [placeholderName, String.toList_append]
  rfl

theorem placeholderName_injective {m n : Nat} (h : placeholderName m = placeholderName n) :
    m = n := by
  have letters := congrArg String.toList h
  rw [placeholderName_toList, placeholderName_toList, List.cons.injEq, List.cons.injEq] at letters
  exact Text.decimal_injective (String.toList_inj.mp letters.2.2)

theorem isNameChar_of_mem_placeholderName {n : Nat} {c : Char}
    (h : c ∈ (placeholderName n).toList) : Text.isNameChar c = true := by
  rw [placeholderName_toList, List.mem_cons, List.mem_cons] at h
  rcases h with rfl | rfl | h
  · decide
  · decide
  · simp [Text.isNameChar, Text.isDigit_of_mem_decimal h]

theorem decimal_eq_cons (n : Nat) :
    ∃ c rest, (Text.decimal n).toList = c :: rest ∧ Text.isDecimalDigit c = true ∧
      ∀ c ∈ rest, Text.isDecimalDigit c = true := by
  have digits : ∀ c ∈ (Text.decimal n).toList, Text.isDecimalDigit c = true := fun c h =>
    Text.isDecimalDigit_of_isDigit (Text.isDigit_of_mem_decimal h)
  cases chars : (Text.decimal n).toList with
  | nil => exact absurd (Text.decimal_toList n ▸ chars) Nat.toDigits_ne_nil
  | cons c rest =>
    rw [chars] at digits
    exact ⟨c, rest, rfl, digits c List.mem_cons_self,
      fun d h => digits d (List.mem_cons_of_mem _ h)⟩

end Reports.Sql
