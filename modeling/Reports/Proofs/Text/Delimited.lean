import Reports.Proofs.Json.Literal
import Reports.Proofs.List
import Mathlib.Data.List.TakeWhile

/-! Tuples of integers and nulls as one text, a delimiter between the components. Which delimiters
tell all tuples apart: those that no component and no run of components can imitate. -/
namespace Reports.Text

def cell : Option Int → List Char
  | none => []
  | some z => (signedDecimal z).toList

def delimited (delimiter : List Char) : List (Option Int) → List Char
  | [] => []
  | [v] => cell v
  | v :: w :: rest => cell v ++ delimiter ++ delimited delimiter (w :: rest)

def power (p : List Char) : Nat → List Char
  | 0 => []
  | j + 1 => p ++ power p j

/-- The delimiters that do not tell all tuples of this length apart: they may belong to a number, or
be the sign of one, or stand for one or more negative numbers. -/
def Confusing (delimiter : List Char) (length : Nat) : Prop :=
  (∀ c ∈ delimiter, isDigit c = true) ∨ (delimiter = ['-'] ∧ 3 ≤ length) ∨
    ∃ n m, delimiter = power ('-' :: Nat.toDigits 10 (n + 1)) m

theorem delimited_cons {delimiter : List Char} (v : Option Int) {rest : List (Option Int)}
    (more : rest ≠ []) : delimited delimiter (v :: rest) = cell v ++ delimiter ++
    delimited delimiter rest := by
  cases rest with
  | nil => exact absurd rfl more
  | cons w rest => rfl

theorem delimited_eq_flatMap (delimiter : List Char) (v : Option Int) (vs : List (Option Int)) :
    delimited delimiter (v :: vs) = cell v ++ vs.flatMap fun w => delimiter ++ cell w := by
  induction vs generalizing v with
  | nil => exact (List.append_nil _).symm
  | cons w rest ih => rw [delimited, ih, List.flatMap_cons, List.append_assoc, List.append_assoc]

theorem delimited_append {delimiter : List Char} {vs ws : List (Option Int)} (some : vs ≠ [])
    (more : ws ≠ []) :
    delimited delimiter (vs ++ ws) = delimited delimiter vs ++ delimiter ++
    delimited delimiter ws := by
  induction vs with
  | nil => exact absurd rfl some
  | cons v rest ih =>
    by_cases last : rest = []
    · subst last
      exact delimited_cons v more
    · have both : rest ++ ws ≠ [] := fun none => last (List.append_eq_nil_iff.mp none).1
      rw [List.cons_append, delimited_cons v both, ih last, delimited_cons v last]
      simp only [List.append_assoc]

theorem power_comm (p : List Char) (j : Nat) : p ++ power p j = power p j ++ p := by
  induction j with
  | zero => simp [power]
  | succ j ih => rw [power, List.append_assoc, ← ih]

theorem exists_power {p : List Char} (some : p ≠ []) (cs : List Char) :
    ∃ j rest, cs = power p j ++ rest ∧ ¬p <+: rest := by
  by_cases starts : p <+: cs
  · obtain ⟨later, split⟩ := starts
    have shorter : later.length < cs.length := by
      have positive := List.length_pos_iff.mpr some
      rw [← split, List.length_append]
      omega
    obtain ⟨j, rest, same, stops⟩ := exists_power some later
    exact ⟨j + 1, rest, by rw [power, List.append_assoc, ← same, split], stops⟩
  · exact ⟨0, cs, rfl, starts⟩
termination_by cs.length

def Digits (cs : List Char) : Prop := ∀ c ∈ cs, isDigit c = true

theorem digits_toDigits (n : Nat) : Digits (Nat.toDigits 10 n) := fun _ => isDigit_of_mem_toDigits

theorem cell_cases (v : Option Int) :
    Digits (cell v) ∨ ∃ n, cell v = '-' :: Nat.toDigits 10 (n + 1) := by
  match v with
  | none => exact Or.inl fun _ mem => nomatch mem
  | some (.ofNat n) =>
    left
    intro c mem
    exact isDigit_of_mem_decimal mem
  | some (.negSucc n) =>
    right
    exact ⟨n, by simp [cell, signedDecimal, decimal]⟩

theorem cell_injective {v w : Option Int} (same : cell v = cell w) : v = w := by
  have some (z : Int) : cell (Option.some z) ≠ [] := by
    cases z with
    | ofNat n =>
      rw [cell, signedDecimal, decimal_toList]
      exact Nat.toDigits_ne_nil
    | negSucc n => simp [cell, signedDecimal]
  cases v with
  | none =>
    cases w with
    | none => rfl
    | some z => exact absurd same.symm (some z)
  | some z =>
    cases w with
    | none => exact absurd same (some z)
    | some z' =>
      exact congrArg Option.some (Number.signedDecimal_injective (String.toList_inj.mp same))

theorem digits_ne_minus {ds us vs : List Char} (digits : Digits ds) (some : ds ≠ []) :
    ds ++ us ≠ '-' :: vs := by
  intro same
  obtain ⟨d, ds, rfl⟩ := List.exists_cons_of_ne_nil some
  have digit := digits d List.mem_cons_self
  rw [(List.cons.inj same).1] at digit
  exact absurd digit (by decide)

theorem digits_unique {delimiter ds ds' rest rest' : List Char}
    (other : ¬∀ c ∈ delimiter, isDigit c = true) (digits : Digits ds) (digits' : Digits ds')
    (same : ds ++ delimiter ++ rest = ds' ++ delimiter ++ rest') : ds = ds' := by
  have split : delimiter.takeWhile isDigit ++ delimiter.dropWhile isDigit = delimiter :=
    List.takeWhile_append_dropWhile
  have more : delimiter.dropWhile isDigit ≠ [] :=
    fun none => other (List.dropWhile_eq_nil_iff.mp none)
  obtain ⟨c, behind, found⟩ := List.exists_cons_of_ne_nil more
  have stops : isDigit c = false := by
    have head := List.head?_dropWhile_not isDigit delimiter
    rwa [found] at head
  have inside {ds : List Char} (digits : Digits ds) :
      ∀ d ∈ ds ++ delimiter.takeWhile isDigit, isDigit d = true := fun d mem =>
    (List.mem_append.mp mem).elim (digits d) List.mem_takeWhile_imp
  have regroup (ds rest : List Char) : ds ++ delimiter ++ rest =
      (ds ++ delimiter.takeWhile isDigit) ++ (c :: behind ++ rest) := by
    rw [← found, List.append_assoc, List.append_assoc,
      ← List.append_assoc (delimiter.takeWhile _), split]
  rw [regroup, regroup] at same
  have runs :=
    (run_unique (inside digits) (inside digits') (ends_cons stops) (ends_cons stops) same).1
  exact List.append_cancel_right runs

theorem cell_ne {e rest : List Char} (digits : Digits e) (some : e ≠ []) (v : Option Int) :
    cell v ≠ e ++ '-' :: rest := by
  intro same
  rcases cell_cases v with all | ⟨n, negative⟩
  · have minus : isDigit '-' = true := all _ (by rw [same]; simp)
    exact absurd minus (by decide)
  · exact digits_ne_minus digits some (same.symm.trans negative)

theorem power_minus (p e : List Char) (j : Nat) :
    ∃ rest, power ('-' :: p) j ++ '-' :: e = '-' :: rest := by
  cases j with
  | zero => exact ⟨e, rfl⟩
  | succ j => exact ⟨_, rfl⟩

/-- The rest of a number that a delimiter begins cannot move on to the next component. -/
theorem shifted_ne {e e' : List Char} (digits : Digits e') (some : e' ≠ []) (j : Nat)
    {vs ws : List (Option Int)} (given : vs ≠ []) (length : vs.length = ws.length) :
    delimited (power ('-' :: (e ++ e')) (j + 1) ++ '-' :: e) ws ≠
      e' ++ '-' :: (e ++ delimited (power ('-' :: (e ++ e')) (j + 1) ++ '-' :: e) vs) := by
  -- By induction on the components: `e'` would have to be the next one, and then the same is asked
  -- of the components behind it, until there is none that could follow.
  obtain ⟨delimiter, named⟩ : ∃ d, power ('-' :: (e ++ e')) (j + 1) ++ '-' :: e = d :=
    ⟨_, rfl⟩
  obtain ⟨start, minus⟩ : ∃ start, delimiter = '-' :: start := ⟨_, named.symm⟩
  obtain ⟨start', minus'⟩ := power_minus (e ++ e') e j
  rw [named]
  induction vs generalizing ws with
  | nil => exact absurd rfl given
  | cons v vs ih =>
    obtain ⟨w, ws, rfl⟩ := List.exists_cons_of_length_eq_add_one length.symm
    have lengths : vs.length = ws.length := Nat.succ.inj length
    intro same
    by_cases last : vs = []
    · obtain rfl : ws = [] :=
        List.eq_nil_of_length_eq_zero (lengths.symm.trans (congrArg List.length last))
      exact cell_ne digits some w same
    · have last' := List.ne_nil_of_length lengths last
      rw [delimited_cons w last', delimited_cons v last, List.append_assoc] at same
      rcases cell_cases w with first | ⟨n, negative⟩
      · have here := run_unique first digits (by rw [minus]; exact ends_cons (by decide))
          (ends_cons (by decide)) same
        have behind : e' ++ (power ('-' :: (e ++ e')) j ++ '-' :: e ++ delimited delimiter ws) =
            cell v ++ (delimiter ++ delimited delimiter vs) := by
          have rest := here.2
          nth_rewrite 1 [← named] at rest
          simpa [power] using rest
        rcases cell_cases v with second | ⟨n, negative⟩
        · have later := run_unique digits second (by rw [minus']; exact ends_cons (by decide))
            (by rw [minus]; exact ends_cons (by decide)) behind
          have moved := later.2
          nth_rewrite 2 [← named] at moved
          rw [power, power_comm] at moved
          apply ih last lengths
          simpa using moved
        · rw [negative] at behind
          exact digits_ne_minus digits some behind
      · rw [negative] at same
        exact digits_ne_minus digits some same.symm

theorem digitChar_of_isDigit {c : Char} (digit : isDigit c = true) :
    (c.toNat - '0'.toNat).digitChar = c ∧ c.toNat - '0'.toNat < 10 := by
  obtain ⟨low, high⟩ := isDigit_iff.mp digit
  have zero : '0'.toNat = 48 := rfl
  have nine : '9'.toNat = 57 := rfl
  have small : c.toNat - '0'.toNat < 10 := by omega
  constructor
  · apply Char.toNat_inj.mp
    rw [Nat.toNat_digitChar_of_lt_ten small]
    omega
  · exact small

theorem toDigits_ofDigitChars {cs : List Char} (digits : Digits cs) {n : Nat} (positive : 0 < n) :
    Nat.toDigits 10 (Nat.ofDigitChars 10 cs n) = Nat.toDigits 10 n ++ cs := by
  induction cs generalizing n with
  | nil => simp
  | cons c rest ih =>
    obtain ⟨char, small⟩ := digitChar_of_isDigit (digits c List.mem_cons_self)
    have later := ih (fun d mem => digits d (List.mem_cons_of_mem _ mem))
      (n := 10 * n + (c.toNat - '0'.toNat)) (by omega)
    have whole : (10 * n + (c.toNat - '0'.toNat)) / 10 = n := by omega
    have last : (10 * n + (c.toNat - '0'.toNat)) % 10 = c.toNat - '0'.toNat := by omega
    rw [Nat.ofDigitChars_cons, later, Nat.toDigits_of_base_le (by decide) (by omega),
      whole, last, char, List.append_assoc, List.singleton_append]

theorem exists_toDigits {e : List Char} (digits : Digits e) (some : e ≠ [])
    (head : e.head? ≠ Option.some '0') : ∃ n, e = Nat.toDigits 10 (n + 1) := by
  obtain ⟨c, rest, rfl⟩ := List.exists_cons_of_ne_nil some
  obtain ⟨char, small⟩ := digitChar_of_isDigit (digits c List.mem_cons_self)
  have positive : 0 < c.toNat - '0'.toNat := by
    apply Nat.pos_of_ne_zero
    intro zero
    rw [zero] at char
    exact head (congrArg Option.some char.symm)
  have others : Digits rest := fun d mem => digits d (List.mem_cons_of_mem _ mem)
  have text := toDigits_ofDigitChars others positive
  rw [Nat.toDigits_of_lt_base small, char, List.singleton_append] at text
  cases value : Nat.ofDigitChars 10 rest (c.toNat - '0'.toNat) with
  | zero =>
    rw [value] at text
    exact absurd (congrArg List.head? text).symm head
  | succ n => exact ⟨n, by rw [← value, text]⟩

theorem minus_ne {delimiter : List Char} {vs ws : List (Option Int)}
    (clear : ¬Confusing delimiter (vs.length + 1)) (given : vs ≠ [])
    (length : vs.length = ws.length)
    (n : Nat) : '-' :: Nat.toDigits 10 (n + 1) ++ delimiter ++ delimited delimiter vs ≠
      delimiter ++ delimited delimiter ws := by
  intro same
  -- The number in front moves through the delimiter as long as that is copies of it. The rest `q`
  -- of the delimiter begins the number once more, since it has to go on as `q` and the number do.
  obtain ⟨j, q, split, stops⟩ :=
    exists_power (List.cons_ne_nil '-' (Nat.toDigits 10 (n + 1))) delimiter
  have moved : '-' :: Nat.toDigits 10 (n + 1) ++ (q ++ delimited delimiter vs) =
      q ++ delimited delimiter ws := by
    have parts := same
    nth_rewrite 1 3 [split] at parts
    rw [← List.append_assoc, power_comm] at parts
    simpa using parts
  have some : q ≠ [] := by
    rintro rfl
    exact clear (Or.inr (Or.inr ⟨n, j, by rw [split, List.append_nil]⟩))
  obtain ⟨e', number⟩ : q <+: '-' :: Nat.toDigits 10 (n + 1) :=
    (List.prefix_or_prefix_of_prefix ⟨_, rfl⟩ ⟨_, moved⟩).resolve_right stops
  have more : e' ≠ [] := by
    rintro rfl
    rw [List.append_nil] at number
    exact stops (number ▸ List.prefix_rfl)
  obtain ⟨c, e, rfl⟩ := List.exists_cons_of_ne_nil some
  obtain ⟨rfl, tails⟩ := List.cons.inj number
  have parts : e ++ e' = Nat.toDigits 10 (n + 1) := tails
  have digits : Digits (e ++ e') := parts ▸ digits_toDigits (n + 1)
  have digits' : Digits e' := fun d mem => digits d (List.mem_append_right _ mem)
  have shifted : delimited delimiter ws = e' ++ '-' :: (e ++ delimited delimiter vs) := by
    rw [← parts] at moved
    simpa using moved.symm
  cases j with
  | succ j =>
    rw [split, ← parts] at shifted
    exact shifted_ne digits' more j given length shifted
  | zero =>
    by_cases alone : e = []
    · subst alone
      by_cases several : 3 ≤ vs.length + 1
      · exact clear (Or.inr (Or.inl ⟨split, several⟩))
      · obtain ⟨w, rfl⟩ : ∃ w, ws = [w] := by
          apply List.length_eq_one_iff.mp
          have positive := List.length_pos_iff.mpr given
          omega
        exact cell_ne digits' more w shifted
    · have head : e.head? ≠ Option.some '0' := by
        have number := Number.toDigits_head (Nat.succ_ne_zero n)
        rw [← parts] at number
        cases e with
        | nil => exact absurd rfl alone
        | cons d ds => exact number
      obtain ⟨m, rfl⟩ :=
        exists_toDigits (fun d mem => digits d (List.mem_append_left _ mem)) alone head
      exact clear (Or.inr (Or.inr ⟨m, 1, by rw [split]; simp [power]⟩))

theorem signed_ne {delimiter : List Char} {vs ws : List (Option Int)}
    (clear : ¬Confusing delimiter (vs.length + 1)) (given : vs ≠ [])
    (length : vs.length = ws.length)
    {ds : List Char} (digits : Digits ds) (n : Nat) :
    '-' :: Nat.toDigits 10 (n + 1) ++ delimiter ++ delimited delimiter vs ≠
      ds ++ delimiter ++ delimited delimiter ws := by
  intro same
  by_cases empty : ds = []
  · subst empty
    exact minus_ne clear given length n same
  · rw [List.append_assoc ds] at same
    exact digits_ne_minus digits empty same.symm

theorem cell_unique {delimiter : List Char} {v w : Option Int} {vs ws : List (Option Int)}
    (clear : ¬Confusing delimiter (vs.length + 1)) (given : vs ≠ [])
    (length : vs.length = ws.length)
    (same : cell v ++ delimiter ++ delimited delimiter vs = cell w ++ delimiter ++
      delimited delimiter ws) :
    cell v = cell w := by
  have other : ¬∀ c ∈ delimiter, isDigit c = true := fun all => clear (Or.inl all)
  rcases cell_cases v with left | ⟨n, left⟩
  · rcases cell_cases w with right | ⟨m, right⟩
    · exact digits_unique other left right same
    · rw [right] at same
      have given' := List.ne_nil_of_length length given
      exact absurd same.symm (signed_ne (length ▸ clear) given' length.symm left m)
  · rcases cell_cases w with right | ⟨m, right⟩
    · rw [left] at same
      exact absurd same (signed_ne clear given length right n)
    · rw [left, right] at same
      have behind := (List.cons.inj same).2
      rw [left, right, digits_unique other (digits_toDigits _) (digits_toDigits _) behind]

theorem Confusing.mono {delimiter : List Char} {k l : Nat} (le : k ≤ l)
    (confusing : Confusing delimiter k) :
    Confusing delimiter l :=
  confusing.imp_right (Or.imp_left fun sign => ⟨sign.1, Nat.le_trans sign.2 le⟩)

/-- A delimiter that does not confuse them tells all tuples of one length apart. -/
theorem delimited_injective {delimiter : List Char} {vs ws : List (Option Int)}
    (clear : ¬Confusing delimiter vs.length) (length : vs.length = ws.length)
    (same : delimited delimiter vs = delimited delimiter ws) : vs = ws := by
  induction vs generalizing ws with
  | nil => exact (List.eq_nil_of_length_eq_zero length.symm).symm
  | cons v vs ih =>
    obtain ⟨w, ws, rfl⟩ := List.exists_cons_of_length_eq_add_one length.symm
    have lengths : vs.length = ws.length := Nat.succ.inj length
    by_cases last : vs = []
    · obtain rfl : ws = [] :=
        List.eq_nil_of_length_eq_zero (lengths.symm.trans (congrArg List.length last))
      subst last
      exact congrArg (fun v => [v]) (cell_injective same)
    · have last' := List.ne_nil_of_length lengths last
      rw [delimited_cons v last, delimited_cons w last'] at same
      have cells := cell_unique clear last lengths same
      rw [cells, List.append_assoc, List.append_assoc] at same
      have rest := List.append_cancel_left (List.append_cancel_left same)
      have clear' : ¬Confusing delimiter vs.length := fun confusing =>
        clear (confusing.mono (Nat.le_succ _))
      rw [cell_injective cells, ih clear' lengths rest]

/-- What is confused stays so with more components behind it. -/
theorem exists_confused {delimiter : List Char} {vs ws : List (Option Int)}
    (same : delimited delimiter vs = delimited delimiter ws) (other : vs ≠ ws) (given : vs ≠ [])
    (length : vs.length = ws.length) {k : Nat} (le : vs.length ≤ k) :
    ∃ vs ws : List (Option Int), vs.length = k ∧ ws.length = k ∧ vs ≠ ws ∧
      delimited delimiter vs = delimited delimiter ws := by
  obtain ⟨j, rfl⟩ := Nat.exists_eq_add_of_le le
  refine ⟨vs ++ List.replicate j none, ws ++
    List.replicate j none, by simp, by simp [length], ?_, ?_⟩
  · exact fun same => other (List.append_cancel_right same)
  · cases j with
    | zero => simpa using same
    | succ j =>
      have given' := List.ne_nil_of_length length given
      have more : List.replicate (j + 1) (none : Option Int) ≠ [] := List.cons_ne_nil _ _
      rw [delimited_append given more, delimited_append given' more, same]

theorem cell_ofNat (n : Nat) : cell (some (n : Int)) = Nat.toDigits 10 n := decimal_toList n

theorem cell_negSucc (n : Nat) : cell (some (Int.negSucc n)) = '-' :: Nat.toDigits 10 (n + 1) := by
  simp [cell, signedDecimal, decimal]

theorem delimited_confused {delimiter : List Char} {k : Nat} (several : 2 ≤ k)
    (confusing : Confusing delimiter k) : ∃ vs ws : List (Option Int), vs.length = k ∧
      ws.length = k ∧ vs ≠ ws ∧ delimited delimiter vs = delimited delimiter ws := by
  rcases confusing with digits | ⟨rfl, three⟩ | ⟨n, m, rfl⟩
  · -- `1` and the delimiter belong to the first number, or the two reversed to the second.
    have one : Digits ['1'] := List.forall_mem_singleton.mpr (by decide)
    have all : Digits (delimiter ++ ['1']) := List.forall_mem_append.mpr ⟨digits, one⟩
    have first := toDigits_ofDigitChars all Nat.one_pos
    have second := toDigits_ofDigitChars digits Nat.one_pos
    have same : delimited delimiter
      [some (Nat.ofDigitChars 10 (delimiter ++ ['1']) 1 : Nat), none] =
        delimited delimiter [some (1 : Nat), some (Nat.ofDigitChars 10 delimiter 1 : Nat)] := by
      simp only [delimited, cell_ofNat, first, second]
      simp [cell]
      rfl
    exact exists_confused same (by simp) (List.cons_ne_nil _ _) rfl several
  · have same : delimited ['-'] [none, some 1, some (-2)] =
        delimited ['-'] [some (-1), none, some 2] := by
      decide
    exact exists_confused same (by decide) (List.cons_ne_nil _ _) rfl three
  · have same : delimited (power ('-' :: Nat.toDigits 10 (n + 1)) m) [none, some (Int.negSucc n)] =
        delimited (power ('-' :: Nat.toDigits 10 (n + 1)) m) [some (Int.negSucc n), none] := by
      simp only [delimited, cell_negSucc, power_comm]
      simp [cell]
    exact exists_confused same (by simp) (List.cons_ne_nil _ _) rfl several

end Reports.Text
