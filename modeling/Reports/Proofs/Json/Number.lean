import Reports.Json.Printer
import Reports.Proofs.Binary64.ReadBack
import Reports.Proofs.Text.Decimal

/-! The text of a number reads back as that number, so different numbers have different texts. -/
namespace Reports

open Text (isDigit Ends ends_nil ends_cons takeWhile_run dropWhile_run)

namespace Binary64

/-- What follows the digits of a number is its exponent. -/
def Scaled (tail : List Char) (e : Int) : Prop :=
  (tail = [] ∧ e = 0) ∨ ∃ es, tail = 'e' :: es ∧ readExponent es = some e

theorem Scaled.ends {tail : List Char} {e : Int} (scaled : Scaled tail e) : Ends isDigit tail := by
  rcases scaled with ⟨rfl, -⟩ | ⟨es, rfl, -⟩
  · exact ends_nil
  · exact ends_cons (by decide)

theorem readMagnitude_point (negative : Bool) {whole fraction tail : List Char} {e : Int}
    (given : whole ≠ []) (left : ∀ c ∈ whole, isDigit c = true)
    (right : ∀ c ∈ fraction, isDigit c = true) (scaled : Scaled tail e) :
    readMagnitude negative (whole ++ '.' :: (fraction ++ tail)) =
      some (ofDigits negative (whole ++ fraction) (e - fraction.length)) := by
  have point : Ends isDigit ('.' :: (fraction ++ tail)) := ends_cons (by decide)
  have notEmpty : whole.isEmpty = false := by simpa using given
  simp only [readMagnitude, takeWhile_run left point, dropWhile_run left point,
    takeWhile_run right scaled.ends, dropWhile_run right scaled.ends]
  rcases scaled with ⟨rfl, rfl⟩ | ⟨es, rfl, read⟩
  · simp [notEmpty]
  · simp [notEmpty, read]

theorem readMagnitude_whole (negative : Bool) {whole es : List Char} {e : Int}
    (given : whole ≠ []) (left : ∀ c ∈ whole, isDigit c = true)
    (read : readExponent es = some e) :
    readMagnitude negative (whole ++ 'e' :: es) = some (ofDigits negative whole e) := by
  have letter : Ends isDigit ('e' :: es) := ends_cons (by decide)
  have notEmpty : whole.isEmpty = false := by simpa using given
  simp [readMagnitude, takeWhile_run left letter, dropWhile_run left letter, notEmpty, read]

def exponentChars : Int → List Char
  | .ofNat n => '+' :: Nat.toDigits 10 n
  | .negSucc n => '-' :: Nat.toDigits 10 (n + 1)

theorem exponentChars_eq (e : Int) :
    ((if 0 ≤ e then "+" else "") ++ Text.signedDecimal e).toList = exponentChars e := by
  cases e with
  | ofNat n =>
    have sign : (0 : Int) ≤ .ofNat n := Int.natCast_nonneg n
    rw [if_pos sign, Text.signedDecimal, String.toList_append, Text.decimal_toList]
    rfl
  | negSucc n =>
    have sign : ¬(0 : Int) ≤ .negSucc n := Int.not_le.mpr (Int.negSucc_lt_zero n)
    rw [if_neg sign, Text.signedDecimal, String.toList_append, String.toList_append,
      Text.decimal_toList]
    rfl

theorem readExponent_exponentChars (e : Int) : readExponent (exponentChars e) = some e := by
  have given (n : Nat) : (Nat.toDigits 10 n).isEmpty = false := by simp [Nat.toDigits_ne_nil]
  have digits (n : Nat) : (Nat.toDigits 10 n).all isDigit = true :=
    List.all_eq_true.mpr fun c => Text.isDigit_of_mem_toDigits
  have value (n : Nat) :
      (Nat.toDigits 10 n).foldl (fun acc c => 10 * acc + (c.toNat - '0'.toNat)) 0 = n :=
    Nat.ofDigitChars_ten_toDigits
  cases e with
  | ofNat n =>
    simp only [exponentChars, readExponent, given, digits, value]
    rfl
  | negSucc n =>
    simp only [exponentChars, readExponent, given, digits, value]
    rfl

theorem ofDigits_of_for {x : Binary64} (positive : x.units ≠ 0) {cs : List Char} {e : Int}
    (digits : ∀ c ∈ cs, isDigit c = true)
    (stands : Digits.For ⟨Nat.ofDigitChars 10 cs 0, e⟩ x) :
    ofDigits x.negative cs e = .finite x := by
  have fits : Nat.ofDigitChars 10 cs 0 < 10 ^ cs.length := by
    simpa using Text.ofDigitChars_lt digits 0
  have high := stands.exponent_le positive
  have low := stands.le_exponent positive fits
  have nonzero := stands.digits_ne_zero positive
  have value : cs.foldl (fun acc c => 10 * acc + (c.toNat - '0'.toNat)) 0 =
    Nat.ofDigitChars 10 cs 0 := rfl
  simp only [ofDigits, value]
  rw [if_neg nonzero, if_neg (Int.not_lt.mpr high), if_neg (Int.not_lt.mpr low)]
  exact stands

end Binary64

namespace Number

theorem for_zeros {x : Binary64} {d : Binary64.Digits} (stands : d.For x) {cs : List Char} (k : Nat)
    {e : Int} (value : Nat.ofDigitChars 10 cs 0 = d.digits * 10 ^ k)
    (exponent : e + k = d.exponent) :
    Binary64.Digits.For ⟨Nat.ofDigitChars 10 cs 0, e⟩ x := by
  rw [Binary64.Digits.For, value, Binary64.ofDecimal_mul_pow, exponent]
  exact stands

def mantissa : List Char → List Char
  | [] => []
  | [d] => [d]
  | d :: rest => d :: '.' :: rest

theorem layout_scientific {s : FloatStyle} {ds : List Char} {point : Int}
    (small : ¬(s.positionalFrom ≤ point ∧ point ≤ 0))
    (large : ¬(0 < point ∧ point ≤ s.positionalTo)) :
    (layout s ds point).toList = mantissa ds ++ 'e' :: Binary64.exponentChars (point - 1) := by
  unfold layout
  rw [if_neg small, if_neg large, ← Binary64.exponentChars_eq]
  simp only [String.toList_append, String.toList_ofList, List.append_assoc]
  rfl

section

variable {x : Binary64} {d : Binary64.Digits} (positive : x.units ≠ 0) (stands : d.For x)
  {ds : List Char} (digits : ∀ c ∈ ds, isDigit c = true)
  (value : Nat.ofDigitChars 10 ds 0 = d.digits)

include positive stands digits value

theorem readMagnitude_small {point : Int} (low : point ≤ 0)
    (exponent : point = ds.length + d.exponent) :
    Binary64.readMagnitude x.negative ("0.".toList ++ List.replicate (-point).toNat '0' ++ ds) =
      some (.finite x) := by
  have right : ∀ c ∈ List.replicate (-point).toNat '0' ++ ds, isDigit c = true := by
    intro c hc
    rcases List.mem_append.mp hc with zero | digit
    · rw [List.eq_of_mem_replicate zero]
      decide
    · exact digits c digit
  have chars : "0.".toList ++ List.replicate (-point).toNat '0' ++ ds =
      ['0'] ++ '.' :: ((List.replicate (-point).toNat '0' ++ ds) ++ []) := by
    simp
  have zeros : ['0'] ++ (List.replicate (-point).toNat '0' ++ ds) =
      List.replicate ((-point).toNat + 1) '0' ++ ds := by
    rw [List.replicate_succ]
    rfl
  rw [chars, Binary64.readMagnitude_point _ (by decide) (Text.forall_of_all (by decide)) right
    (Or.inl ⟨rfl, rfl⟩)]
  congr 1
  refine Binary64.ofDigits_of_for positive ?_ (for_zeros stands 0 ?_ ?_)
  · intro c hc
    rcases List.mem_cons.mp hc with rfl | rest
    · decide
    · exact right c rest
  · rw [zeros, Text.ofDigitChars_zeros_append, value, Nat.pow_zero, Nat.mul_one]
  · rw [List.length_append, List.length_replicate]
    omega

theorem readMagnitude_large {p : Nat} (given : ds ≠ []) (wide : ds.length ≤ p)
    (exponent : (p : Int) = ds.length + d.exponent) :
    Binary64.readMagnitude x.negative (ds ++ List.replicate (p - ds.length) '0' ++ ".0".toList) =
      some (.finite x) := by
  have left : ∀ c ∈ ds ++ List.replicate (p - ds.length) '0', isDigit c = true := by
    intro c hc
    rcases List.mem_append.mp hc with digit | zero
    · exact digits c digit
    · rw [List.eq_of_mem_replicate zero]
      decide
  have chars : ".0".toList = '.' :: (['0'] ++ []) := rfl
  have zeros : ds ++ List.replicate (p - ds.length) '0' ++ ['0'] =
      ds ++ List.replicate (p - ds.length + 1) '0' := by
    rw [List.append_assoc, ← List.replicate_succ']
  rw [chars, Binary64.readMagnitude_point _ (by simp [given]) left (Text.forall_of_all (by decide))
    (Or.inl ⟨rfl, rfl⟩)]
  congr 1
  refine Binary64.ofDigits_of_for positive ?_ (for_zeros stands (p - ds.length + 1) ?_ ?_)
  · intro c hc
    rcases List.mem_append.mp hc with whole | zero
    · exact left c whole
    · rw [List.mem_singleton.mp zero]
      decide
  · rw [zeros, Text.ofDigitChars_append_zeros, value]
  · rw [List.length_singleton]
    omega

theorem readMagnitude_split {p : Nat} (first : 0 < p) (within : p < ds.length)
    (exponent : (p : Int) = ds.length + d.exponent) :
    Binary64.readMagnitude x.negative (ds.take p ++ '.' :: ds.drop p) = some (.finite x) := by
  have given : ds.take p ≠ [] := by
    rw [← List.length_pos_iff, List.length_take]
    omega
  have left : ∀ c ∈ ds.take p, isDigit c = true :=
    fun c hc => digits c (List.mem_of_mem_take hc)
  have right : ∀ c ∈ ds.drop p, isDigit c = true :=
    fun c hc => digits c (List.mem_of_mem_drop hc)
  have read := Binary64.readMagnitude_point x.negative given left right (Or.inl ⟨rfl, rfl⟩)
  rw [List.append_nil, List.take_append_drop] at read
  rw [read]
  congr 1
  refine Binary64.ofDigits_of_for positive digits (for_zeros stands 0 ?_ ?_)
  · rw [value, Nat.pow_zero, Nat.mul_one]
  · rw [List.length_drop]
    omega

theorem readMagnitude_scientific (given : ds ≠ []) {e : Int}
    (exponent : e + 1 = ds.length + d.exponent) :
    Binary64.readMagnitude x.negative (mantissa ds ++ 'e' :: Binary64.exponentChars e) =
      some (.finite x) := by
  have same : Nat.ofDigitChars 10 ds 0 = d.digits * 10 ^ 0 := by
    rw [value, Nat.pow_zero, Nat.mul_one]
  have read := Binary64.readExponent_exponentChars e
  match ds with
  | [] => exact absurd rfl given
  | [c] =>
    rw [mantissa, Binary64.readMagnitude_whole _ given digits read]
    congr 1
    refine Binary64.ofDigits_of_for positive digits (for_zeros stands 0 same ?_)
    rw [List.length_singleton] at exponent
    omega
  | c :: c' :: rest =>
    have left : ∀ x ∈ [c], isDigit x = true := fun x hx =>
      digits x (List.mem_cons.mpr (Or.inl (List.mem_singleton.mp hx)))
    have right : ∀ x ∈ c' :: rest, isDigit x = true :=
      fun x hx => digits x (List.mem_cons_of_mem _ hx)
    have chars (tail : List Char) : mantissa (c :: c' :: rest) ++ tail =
      [c] ++ '.' :: ((c' :: rest) ++ tail) := rfl
    rw [chars, Binary64.readMagnitude_point _ (by simp) left right (Or.inr ⟨_, rfl, read⟩)]
    congr 1
    refine Binary64.ofDigits_of_for positive digits (for_zeros stands 0 same ?_)
    rw [List.length_cons] at exponent
    omega

/-- However the digits are laid out, they are read as the number that they stand for. -/
theorem readMagnitude_layout (given : ds ≠ []) :
    Binary64.readMagnitude x.negative (layout style ds (ds.length + d.exponent)).toList =
      some (.finite x) := by
  by_cases small : style.positionalFrom ≤ ds.length + d.exponent ∧ ds.length + d.exponent ≤ 0
  · unfold layout
    rw [if_pos small, String.toList_ofList]
    exact readMagnitude_small positive stands digits value small.2 rfl
  · by_cases large : 0 < ds.length + d.exponent ∧ ds.length + d.exponent ≤ style.positionalTo
    · obtain ⟨p, exponent⟩ : ∃ p : Nat, (p : Int) = ds.length + d.exponent :=
        ⟨_, Int.toNat_of_nonneg (Int.le_of_lt large.1)⟩
      have first : 0 < p := by omega
      unfold layout
      rw [if_neg small, if_pos large, ← exponent]
      dsimp only [Int.toNat_natCast]
      split
      · next wide =>
        rw [String.toList_append, String.toList_ofList]
        exact readMagnitude_large positive stands digits value given wide exponent
      · next narrow =>
        rw [String.toList_ofList]
        exact readMagnitude_split positive stands digits value first (Nat.not_le.mp narrow) exponent
    · rw [layout_scientific small large]
      exact readMagnitude_scientific positive stands digits value given (Int.sub_add_cancel _ _)

end

theorem layout_head {ds : List Char} (digits : ∀ c ∈ ds, isDigit c = true) (given : ds ≠ [])
    (point : Int) : ∃ c rest, (layout style ds point).toList = c :: rest ∧
    isDigit c = true := by
  obtain ⟨c, rest, rfl⟩ := List.exists_cons_of_ne_nil given
  have digit := digits c List.mem_cons_self
  by_cases small : style.positionalFrom ≤ point ∧ point ≤ 0
  · unfold layout
    rw [if_pos small, String.toList_ofList]
    exact ⟨'0', _, rfl, by decide⟩
  · by_cases large : 0 < point ∧ point ≤ style.positionalTo
    · obtain ⟨p, exponent⟩ : ∃ p : Nat, point.toNat = p + 1 :=
        ⟨point.toNat - 1, by omega⟩
      unfold layout
      rw [if_neg small, if_pos large, exponent]
      dsimp only
      split
      · rw [String.toList_append, String.toList_ofList]
        exact ⟨c, _, rfl, digit⟩
      · rw [String.toList_ofList]
        exact ⟨c, _, rfl, digit⟩
    · rw [layout_scientific small large]
      cases rest with
      | nil => exact ⟨c, _, rfl, digit⟩
      | cons d rest => exact ⟨c, _, rfl, digit⟩

theorem lowerChar_digit {c : Char} (digit : isDigit c = true) : Text.lowerChar c = c := by
  have last := (Text.isDigit_iff.mp digit).2
  have before : ¬ 'A' ≤ c := by
    rw [Char.le_def, UInt32.le_iff_toNat_le]
    have order : '9'.toNat < 'A'.toNat := by decide
    exact Nat.not_le.mpr (Nat.lt_of_le_of_lt last order)
  simp [Text.lowerChar, before]

theorem read_signed (negative : Bool) {c : Char} {rest : List Char} (digit : isDigit c = true) :
    Binary64.read ((if negative then "-" else "") ++ String.ofList (c :: rest)) =
      Binary64.readMagnitude negative (c :: rest) := by
  have word {w : String} {d : Char} {ds : List Char} (chars : w.toList = d :: ds)
      (letter : isDigit d = false) : String.ofList ((c :: rest).map Text.lowerChar) ≠ w := by
    rintro rfl
    rw [String.toList_ofList, List.map_cons, lowerChar_digit digit, List.cons.injEq] at chars
    rw [chars.1, letter] at digit
    cases digit
  have infinite : ¬(String.ofList ((c :: rest).map Text.lowerChar) = "inf" ∨
      String.ofList ((c :: rest).map Text.lowerChar) = "infinity") := by
    rintro (same | same)
    · exact word (w := "inf") rfl (by decide) same
    · exact word (w := "infinity") rfl (by decide) same
  have nan : String.ofList ((c :: rest).map Text.lowerChar) ≠ "nan" := word rfl (by decide)
  cases negative with
  | true =>
    have chars : ("-" ++ String.ofList (c :: rest)).toList = '-' :: c :: rest := by simp
    rw [if_pos rfl]
    simp only [Binary64.read, chars, infinite, nan, if_false]
  | false =>
    have minus : c ≠ '-' := by
      rintro rfl
      exact absurd digit (by decide)
    have plus : c ≠ '+' := by
      rintro rfl
      exact absurd digit (by decide)
    have chars : ("" ++ String.ofList (c :: rest)).toList = c :: rest := by simp
    rw [if_neg Bool.false_ne_true]
    simp only [Binary64.read, chars]
    split
    · next same => exact absurd (List.cons.inj same).1 minus
    · next same => exact absurd (List.cons.inj same).1 plus
    · simp only [infinite, nan, if_false]

/-- The text of a floating-point number reads back as that number, and so does its sign when it is
zero. -/
theorem read_floatText (x : Binary64) : Binary64.read (floatText x) = some (.finite x) := by
  have digits : ∀ c ∈ Nat.toDigits 10 x.shortest.digits, isDigit c = true := fun c =>
    Text.isDigit_of_mem_toDigits
  by_cases zero : x.units = 0
  · have signed : ∀ b, Binary64.read (floatText (.zero b)) = some (.finite (.zero b)) := by
      decide +kernel
    obtain ⟨negative, units, representable⟩ := x
    obtain rfl : units = 0 := zero
    exact signed negative
  · have shown : x.isZero = false := by simpa [Binary64.isZero] using zero
    have stands := Binary64.for_shortest zero
    obtain ⟨c, rest, chars, digit⟩ := layout_head digits Nat.toDigits_ne_nil
      ((Nat.toDigits 10 x.shortest.digits).length + x.shortest.exponent)
    have read := readMagnitude_layout zero stands digits Nat.ofDigitChars_ten_toDigits
      Nat.toDigits_ne_nil
    have text : floatText x = (if x.negative then "-" else "") ++ String.ofList (c :: rest) := by
      rw [floatText, shown, ← chars, String.ofList_toList]
      rfl
    rw [text, read_signed x.negative digit, ← chars, read]

theorem floatText_injective {x y : Binary64} (h : floatText x = floatText y) : x = y := by
  have read := read_floatText x
  rw [h, read_floatText y] at read
  exact (Binary64.Extended.finite.inj (Option.some.inj read)).symm

def isNumberChar (c : Char) : Bool := isDigit c || ['-', '+', '.', 'e'].contains c

theorem isNumberChar_cases {c : Char} (number : isNumberChar c = true) :
    isDigit c = true ∨ c = '-' ∨ c = '+' ∨ c = '.' ∨ c = 'e' := by
  simpa [isNumberChar] using number

def Numeric (cs : List Char) : Prop := ∀ c ∈ cs, isNumberChar c = true

theorem numeric_of_digits {cs : List Char} (digits : ∀ c ∈ cs, isDigit c = true) :
    Numeric cs := by
  intro c hc
  rw [isNumberChar, digits c hc, Bool.true_or]

theorem numeric_append {as bs : List Char} : Numeric (as ++ bs) ↔ Numeric as ∧ Numeric bs :=
  List.forall_mem_append

theorem numeric_cons {c : Char} {cs : List Char} : Numeric (c :: cs) ↔
    isNumberChar c = true ∧ Numeric cs :=
  List.forall_mem_cons

theorem numeric_zeros (k : Nat) : Numeric (List.replicate k '0') := by
  intro c hc
  rw [List.eq_of_mem_replicate hc]
  decide

theorem numeric_mantissa {ds : List Char} (digits : Numeric ds) : Numeric (mantissa ds) := by
  match ds with
  | [] => exact digits
  | [c] => exact digits
  | c :: d :: rest =>
    obtain ⟨first, later⟩ := numeric_cons.mp digits
    exact numeric_cons.mpr ⟨first, numeric_cons.mpr ⟨by decide, later⟩⟩

theorem numeric_exponentChars (e : Int) : Numeric (Binary64.exponentChars e) := by
  have digits (n : Nat) : Numeric (Nat.toDigits 10 n) :=
    numeric_of_digits fun c => Text.isDigit_of_mem_toDigits
  cases e with
  | ofNat n => exact numeric_cons.mpr ⟨by decide, digits n⟩
  | negSucc n => exact numeric_cons.mpr ⟨by decide, digits (n + 1)⟩

theorem layout_chars {ds : List Char} (digits : Numeric ds) (point : Int) :
    Numeric (layout style ds point).toList ∧ ∃ c ∈ (layout style ds point).toList,
    c = '.' ∨ c = 'e' := by
  by_cases small : style.positionalFrom ≤ point ∧ point ≤ 0
  · unfold layout
    rw [if_pos small, String.toList_ofList, numeric_append, numeric_append]
    exact ⟨⟨⟨Text.forall_of_all (by decide), numeric_zeros _⟩, digits⟩,
      '.', by simp, Or.inl rfl⟩
  · by_cases large : 0 < point ∧ point ≤ style.positionalTo
    · unfold layout
      rw [if_neg small, if_pos large]
      dsimp only
      split
      · rw [String.toList_append, String.toList_ofList, numeric_append, numeric_append]
        exact ⟨⟨⟨digits, numeric_zeros _⟩, Text.forall_of_all (by decide)⟩,
          '.', by simp [style], Or.inl rfl⟩
      · rw [String.toList_ofList, numeric_append, numeric_cons]
        refine ⟨⟨fun c hc => digits c (List.mem_of_mem_take hc), by decide, fun c hc =>
          digits c (List.mem_of_mem_drop hc)⟩, '.', by simp, Or.inl rfl⟩
    · rw [layout_scientific small large, numeric_append, numeric_cons]
      exact ⟨⟨numeric_mantissa digits, by decide, numeric_exponentChars _⟩,
        'e', by simp, Or.inr rfl⟩

theorem signedDecimal_chars (n : Int) :
    Numeric (Text.signedDecimal n).toList ∧ ∀ c ∈ (Text.signedDecimal n).toList, c ≠ '.' ∧
    c ≠ 'e' := by
  have digits (n : Nat) : ∀ c ∈ (Text.decimal n).toList, isDigit c = true := fun c =>
    Text.isDigit_of_mem_decimal
  have neither (n : Nat) : ∀ c ∈ (Text.decimal n).toList, c ≠ '.' ∧ c ≠ 'e' := by
    intro c hc
    constructor
    · rintro rfl
      exact absurd (digits n _ hc) (by decide)
    · rintro rfl
      exact absurd (digits n _ hc) (by decide)
  cases n with
  | ofNat n => exact ⟨numeric_of_digits (digits n), neither n⟩
  | negSucc n =>
    rw [Text.signedDecimal, String.toList_append, numeric_append, List.forall_mem_append]
    exact ⟨⟨Text.forall_of_all (by decide), numeric_of_digits (digits _)⟩,
      Text.forall_of_all (by decide), neither _⟩

theorem floatText_chars (x : Binary64) :
    Numeric (floatText x).toList ∧ ∃ c ∈ (floatText x).toList, c = '.' ∨ c = 'e' := by
  have sign : Numeric (if x.negative then "-" else "").toList := by
    cases x.negative <;> exact Text.forall_of_all (by decide)
  have digits : Numeric (Nat.toDigits 10 x.shortest.digits) :=
    numeric_of_digits fun c => Text.isDigit_of_mem_toDigits
  obtain ⟨numeric, c, mem, mark⟩ := layout_chars digits
    ((Nat.toDigits 10 x.shortest.digits).length + x.shortest.exponent)
  rw [floatText]
  dsimp only
  split
  · rw [String.toList_append, numeric_append]
    exact ⟨⟨sign, Text.forall_of_all (by decide)⟩, '.', by simp, Or.inl rfl⟩
  · rw [String.toList_append, numeric_append]
    exact ⟨⟨sign, numeric⟩, c, List.mem_append_right _ mem, mark⟩

theorem signedDecimal_injective {m n : Int} (h : Text.signedDecimal m = Text.signedDecimal n) :
    m = n := by
  have sign (m n : Nat) : Text.decimal m ≠ "-" ++ Text.decimal n := by
    intro same
    have inside : '-' ∈ (Text.decimal m).toList := by
      rw [same, String.toList_append]
      exact List.mem_append_left _ (by decide)
    exact absurd (Text.isDigit_of_mem_decimal inside) (by decide)
  cases m with
  | ofNat m =>
    cases n with
    | ofNat n => exact congrArg Int.ofNat (Text.decimal_injective h)
    | negSucc n => exact absurd h (sign m (n + 1))
  | negSucc m =>
    cases n with
    | ofNat n => exact absurd h.symm (sign n (m + 1))
    | negSucc n =>
      have same : Text.decimal (m + 1) = Text.decimal (n + 1) := String.append_right_inj _ |>.mp h
      rw [Nat.succ.inj (Text.decimal_injective same)]

/-- Whole and floating-point numbers never look the same, and different numbers look different. -/
theorem text_injective {m n : Number} (h : m.text = n.text) : m = n := by
  have kinds (n : Int) (x : Binary64) : Text.signedDecimal n ≠ floatText x := by
    intro same
    obtain ⟨-, c, mem, mark⟩ := floatText_chars x
    have neither := (signedDecimal_chars n).2 c (same ▸ mem)
    exact mark.elim neither.1 neither.2
  cases m with
  | int m =>
    cases n with
    | int n => exact congrArg int (signedDecimal_injective h)
    | float y => exact absurd h (kinds m y)
  | float x =>
    cases n with
    | int n => exact absurd h.symm (kinds n x)
    | float y => exact congrArg float (floatText_injective h)

theorem numeric_text (n : Number) : Numeric n.text.toList := by
  cases n with
  | int n => exact (signedDecimal_chars n).1
  | float x => exact (floatText_chars x).1

theorem text_ne_nil (n : Number) : n.text.toList ≠ [] := by
  cases n with
  | int n =>
    cases n with
    | ofNat n =>
      rw [text, Text.signedDecimal, Text.decimal_toList]
      exact Nat.toDigits_ne_nil
    | negSucc n => simp [text, Text.signedDecimal]
  | float x =>
    obtain ⟨-, c, mem, -⟩ := floatText_chars x
    exact List.ne_nil_of_mem mem

end Number

end Reports
