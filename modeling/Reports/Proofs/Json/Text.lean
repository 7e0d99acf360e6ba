import Reports.Json.Syntax
import Reports.Proofs.Json.Number

/-! The text of a value tells which value it is, also when more text follows. -/
namespace Reports.Json

open Text (Ends ends_nil ends_cons run_unique)

theorem hexValue_lowerHexDigit {n : Nat} (small : n < 16) :
    Text.hexValue? (Text.lowerHexDigit n) = some n := by
  have all : ∀ n : Fin 16, Text.hexValue? (Text.lowerHexDigit n) = some n.val := by decide
  exact all ⟨n, small⟩

def before (n : Nat) (read : Option (List Nat × List Char)) : Option (List Nat × List Char) :=
  read.map fun r => (n :: r.1, r.2)

theorem points_named {c : Char} {n : Nat} (letter : c ≠ 'u')
    (value : Tree.escapeValue? c = some n) (rest : List Char) :
    Tree.points ('\\' :: c :: rest) = before n (Tree.points rest) := by
  rw [Tree.points, value]
  · cases Tree.points rest <;> rfl
  · exact fun _ _ _ _ _ same => absurd same letter

theorem points_unicode {n : Nat} (small : n < 32) (rest : List Char) :
    Tree.points ('\\' :: 'u' :: '0' :: '0' :: Text.lowerHexDigit (n / 16) ::
      Text.lowerHexDigit (n % 16) :: rest) = before n (Tree.points rest) := by
  have zero : Text.hexValue? '0' = some 0 := by decide
  have value : Tree.unit? '0' '0' (Text.lowerHexDigit (n / 16))
      (Text.lowerHexDigit (n % 16)) = some n := by
    rw [Tree.unit?, zero, hexValue_lowerHexDigit (by omega), hexValue_lowerHexDigit (by omega)]
    simp only [Option.bind_eq_bind, Option.bind_some, Option.pure_def, Option.some.injEq]
    omega
  rw [Tree.points, value]
  cases Tree.points rest <;> rfl

theorem points_plain {c : Char} (quote : c ≠ '\x22') (escape : c ≠ '\\')
    (shown : ¬c.toNat < 32) (rest : List Char) :
    Tree.points (c :: rest) = before c.toNat (Tree.points rest) := by
  rw [Tree.points]
  · rw [if_neg (not_or.mpr ⟨escape, shown⟩)]
    cases Tree.points rest <;> rfl
  · exact quote
  · exact fun _ _ _ _ _ same => absurd same escape
  · exact fun _ _ same => absurd same escape

theorem points_escapeChar (c : Char) (rest : List Char) :
    Tree.points (escapeChar c ++ rest) = before c.toNat (Tree.points rest) := by
  unfold escapeChar
  split
  · exact points_named (by decide) rfl rest
  · exact points_named (by decide) rfl rest
  · exact points_named (by decide) rfl rest
  · exact points_named (by decide) rfl rest
  · exact points_named (by decide) rfl rest
  · exact points_named (by decide) rfl rest
  · exact points_named (by decide) rfl rest
  · next quote escape _ _ _ _ _ =>
    split
    · next small => exact points_unicode small rest
    · next shown => exact points_plain quote escape shown rest

theorem points_string (cs rest : List Char) :
    Tree.points (cs.flatMap escapeChar ++ '\x22' :: rest) = some (cs.map Char.toNat, rest) := by
  induction cs with
  | nil => rw [List.flatMap_nil, List.nil_append, Tree.points]; rfl
  | cons c cs ih =>
    rw [List.flatMap_cons, List.append_assoc, points_escapeChar, ih]
    rfl

theorem quote_unique {s t : String} {rest rest' : List Char}
    (same : (quote s).toList ++ rest = (quote t).toList ++ rest') : s = t ∧ rest = rest' := by
  simp only [quote, String.toList_ofList, List.cons_append, List.append_assoc, List.nil_append,
    List.cons.injEq, true_and] at same
  have read := points_string s.toList rest
  rw [same, points_string, Option.some.injEq, Prod.mk.injEq] at read
  have chars := List.map_inj_right (fun a b => Char.toNat_inj.mp) |>.mp read.1
  exact ⟨String.toList_inj.mp chars.symm, read.2.symm⟩

/-- Which kind of value starts with a character; none does with any other. -/
def kindOf (c : Char) : Option Nat :=
  if c = 'n' then some 0
  else if c = 't' ∨ c = 'f' then some 1
  else if Number.isNumberChar c then some 2
  else if c = '\x22' then some 3
  else if c = '[' then some 4
  else if c = '\x7b' then some 5
  else none

def kind : Json → Nat
  | null => 0
  | bool _ => 1
  | number _ => 2
  | string _ => 3
  | array _ => 4
  | object _ => 5

theorem kindOf_number {c : Char} (h : Number.isNumberChar c = true) : kindOf c = some 2 := by
  have null : c ≠ 'n' := by
    rintro rfl
    exact absurd h (by decide)
  have yes : c ≠ 't' := by
    rintro rfl
    exact absurd h (by decide)
  have no : c ≠ 'f' := by
    rintro rfl
    exact absurd h (by decide)
  simp [kindOf, null, yes, no, h]

/-- The first character of a text tells the kind of the value. -/
theorem text_head (v : Json) : ∃ c rest, v.text.toList = c :: rest ∧
    kindOf c = some v.kind := by
  cases v with
  | null => exact ⟨'n', _, rfl, by decide⟩
  | bool b =>
    cases b with
    | true => exact ⟨'t', _, rfl, by decide⟩
    | false => exact ⟨'f', _, rfl, by decide⟩
  | number n =>
    obtain ⟨c, rest, chars⟩ := List.exists_cons_of_ne_nil n.text_ne_nil
    have numeric := n.numeric_text
    rw [chars] at numeric
    exact ⟨c, rest, by rw [text, chars], kindOf_number (numeric c List.mem_cons_self)⟩
  | string s => exact ⟨'\x22', _, by rw [text, quote, String.toList_ofList], rfl⟩
  | array xs =>
    refine ⟨'[', (itemsText xs ++ "]").toList, ?_, rfl⟩
    rw [text, String.append_assoc, String.toList_append]
    rfl
  | object ms =>
    refine ⟨'\x7b', (membersText ms ++ "\x7d").toList, ?_, rfl⟩
    rw [text, String.append_assoc, String.toList_append]
    rfl

theorem kind_unique {v w : Json} {rest rest' : List Char}
    (same : v.text.toList ++ rest = w.text.toList ++ rest') : v.kind = w.kind := by
  obtain ⟨c, cs, left, kindOfC⟩ := text_head v
  obtain ⟨d, ds, right, kindOfD⟩ := text_head w
  rw [left, right, List.cons_append, List.cons_append, List.cons.injEq] at same
  rw [same.1, kindOfD] at kindOfC
  exact (Option.some.inj kindOfC).symm

theorem text_append_ne {v : Json} {c : Char} (closing : kindOf c = none) (rest rest' : List Char) :
    v.text.toList ++ rest ≠ c :: rest' := by
  obtain ⟨d, ds, chars, kindOfD⟩ := text_head v
  intro same
  rw [chars, List.cons_append, List.cons.injEq] at same
  rw [same.1, closing] at kindOfD
  cases kindOfD

/-- What follows an item of an array: a comma and the other items, or a bracket and what is next. -/
def afterItem (next : List Char) : List Json → List Char
  | [] => ']' :: next
  | y :: ys => ',' :: ((itemsText (y :: ys)).toList ++ ']' :: next)

def afterMember (next : List Char) : List (String × Json) → List Char
  | [] => '\x7d' :: next
  | m :: ms => ',' :: ((membersText (m :: ms)).toList ++ '\x7d' :: next)

theorem itemsText_cons (x : Json) (xs : List Json) (next : List Char) :
    (itemsText (x :: xs)).toList ++ ']' :: next = x.text.toList ++ afterItem next xs := by
  cases xs with
  | nil => rw [itemsText, afterItem]
  | cons y ys => simp [itemsText, afterItem]

theorem membersText_cons (k : String) (x : Json) (ms : List (String × Json)) (next : List Char) :
    (membersText ((k, x) :: ms)).toList ++ '\x7d' :: next =
      (quote k).toList ++ ':' :: (x.text.toList ++ afterMember next ms) := by
  cases ms with
  | nil => simp [membersText, afterMember]
  | cons m ms => simp [membersText, afterMember]

section

variable {next next' : List Char}

theorem ends_afterItem (xs : List Json) : Ends Number.isNumberChar (afterItem next xs) := by
  cases xs with
  | nil => exact ends_cons (by decide)
  | cons y ys => exact ends_cons (by decide)

theorem ends_afterMember (ms : List (String × Json)) :
    Ends Number.isNumberChar (afterMember next ms) := by
  cases ms with
  | nil => exact ends_cons (by decide)
  | cons m ms => exact ends_cons (by decide)

theorem items_of_afterItem {xs ys : List Json} (same : afterItem next xs = afterItem next' ys) :
    (itemsText xs).toList ++ ']' :: next = (itemsText ys).toList ++ ']' :: next' := by
  cases xs with
  | nil =>
    cases ys with
    | nil => exact same
    | cons y ys => exact absurd (List.cons.inj same).1 (by decide)
  | cons x xs =>
    cases ys with
    | nil => exact absurd (List.cons.inj same).1 (by decide)
    | cons y ys => exact (List.cons.inj same).2

theorem members_of_afterMember {ms ns : List (String × Json)}
    (same : afterMember next ms = afterMember next' ns) :
    (membersText ms).toList ++ '\x7d' :: next = (membersText ns).toList ++ '\x7d' :: next' := by
  cases ms with
  | nil =>
    cases ns with
    | nil => exact same
    | cons n ns => exact absurd (List.cons.inj same).1 (by decide)
  | cons m ms =>
    cases ns with
    | nil => exact absurd (List.cons.inj same).1 (by decide)
    | cons n ns => exact (List.cons.inj same).2

theorem bool_unique {b c : Bool}
    (same : (bool b).text.toList ++ next = (bool c).text.toList ++ next') :
    b = c ∧ next = next' := by
  cases b with
  | true =>
    cases c with
    | true => exact ⟨rfl, List.append_cancel_left same⟩
    | false => exact absurd (List.cons.inj same).1 (by decide)
  | false =>
    cases c with
    | true => exact absurd (List.cons.inj same).1 (by decide)
    | false => exact ⟨rfl, List.append_cancel_left same⟩

theorem quote_append_ne (k : String) (rest rest' : List Char) :
    (quote k).toList ++ rest ≠ '\x7d' :: rest' := by
  rw [quote, String.toList_ofList]
  exact fun same => absurd (List.cons.inj same).1 (by decide)

end

/-- The text of a value ends where it does, whatever follows but the rest of a number. -/
def Unique (v : Json) : Prop :=
  ∀ (w : Json) (next next' : List Char), Ends Number.isNumberChar next →
    Ends Number.isNumberChar next' → v.text.toList ++ next = w.text.toList ++ next' →
      v = w ∧ next = next'

section

variable {next next' : List Char}

theorem items_unique {xs ys : List Json} (unique : ∀ x ∈ xs, Unique x)
    (same : (itemsText xs).toList ++ ']' :: next = (itemsText ys).toList ++ ']' :: next') :
    xs = ys ∧ next = next' := by
  induction xs generalizing ys with
  | nil =>
    cases ys with
    | nil => exact ⟨rfl, (List.cons.inj same).2⟩
    | cons y ys =>
      rw [itemsText_cons] at same
      exact absurd same.symm (text_append_ne (by decide) _ _)
  | cons x xs ih =>
    cases ys with
    | nil =>
      rw [itemsText_cons] at same
      exact absurd same (text_append_ne (by decide) _ _)
    | cons y ys =>
      rw [itemsText_cons, itemsText_cons] at same
      obtain ⟨rfl, rest⟩ :=
        unique x List.mem_cons_self y _ _ (ends_afterItem _) (ends_afterItem _) same
      obtain ⟨rfl, ends⟩ := ih (fun x' hx => unique x' (List.mem_cons_of_mem _ hx))
        (items_of_afterItem rest)
      exact ⟨rfl, ends⟩

theorem members_unique {ms ns : List (String × Json)} (unique : ∀ m ∈ ms, Unique m.2)
    (same : (membersText ms).toList ++ '\x7d' :: next = (membersText ns).toList ++
      '\x7d' :: next') :
    ms = ns ∧ next = next' := by
  induction ms generalizing ns with
  | nil =>
    cases ns with
    | nil => exact ⟨rfl, (List.cons.inj same).2⟩
    | cons n ns =>
      rw [membersText_cons] at same
      exact absurd same.symm (quote_append_ne _ _ _)
  | cons m ms ih =>
    obtain ⟨k, x⟩ := m
    cases ns with
    | nil =>
      rw [membersText_cons] at same
      exact absurd same (quote_append_ne _ _ _)
    | cons n ns =>
      obtain ⟨k', y⟩ := n
      rw [membersText_cons, membersText_cons] at same
      obtain ⟨rfl, value⟩ := quote_unique same
      obtain ⟨rfl, rest⟩ := unique (k, x) List.mem_cons_self y _ _ (ends_afterMember _)
        (ends_afterMember _) (List.cons.inj value).2
      obtain ⟨rfl, ends⟩ := ih (fun m hm => unique m (List.mem_cons_of_mem _ hm))
        (members_of_afterMember rest)
      exact ⟨rfl, ends⟩

end

theorem unique_array {xs : List Json} (unique : ∀ x ∈ xs, Unique x) : Unique (array xs) := by
  intro w next next' _ _ same
  have kinds := kind_unique same
  cases w with
  | array ys =>
    have inner : (itemsText xs).toList ++ ']' :: next = (itemsText ys).toList ++ ']' :: next' := by
      simpa [text] using same
    exact (items_unique unique inner).imp_left (congrArg array)
  | _ => cases kinds

theorem unique_object {ms : List (String × Json)} (unique : ∀ m ∈ ms, Unique m.2) :
    Unique (object ms) := by
  intro w next next' _ _ same
  have kinds := kind_unique same
  cases w with
  | object ns =>
    have inner : (membersText ms).toList ++ '\x7d' :: next =
        (membersText ns).toList ++ '\x7d' :: next' := by
      simpa [text] using same
    exact (members_unique unique inner).imp_left (congrArg object)
  | _ => cases kinds

theorem unique_number (n : Number) : Unique (number n) := by
  intro w next next' ends ends' same
  have kinds := kind_unique same
  cases w with
  | number m =>
    obtain ⟨texts, rest⟩ := run_unique n.numeric_text m.numeric_text ends ends' same
    exact ⟨congrArg number (Number.text_injective (String.toList_inj.mp texts)), rest⟩
  | _ => cases kinds

theorem unique_string (s : String) : Unique (string s) := by
  intro w next next' _ _ same
  have kinds := kind_unique same
  cases w with
  | string t => exact (quote_unique same).imp_left (congrArg string)
  | _ => cases kinds

theorem unique_bool (b : Bool) : Unique (bool b) := by
  intro w next next' _ _ same
  have kinds := kind_unique same
  cases w with
  | bool c => exact (bool_unique same).imp_left (congrArg bool)
  | _ => cases kinds

theorem unique_null : Unique null := by
  intro w next next' _ _ same
  have kinds := kind_unique same
  cases w with
  | null => exact ⟨rfl, List.append_cancel_left same⟩
  | _ => cases kinds

/-- What holds of a value when it holds of its items or members holds of every value. -/
theorem induct {P : Json → Prop} (null : P null) (bool : ∀ b, P (bool b))
    (number : ∀ n, P (number n)) (string : ∀ s, P (string s))
    (array : ∀ xs, (∀ x ∈ xs, P x) → P (array xs))
    (object : ∀ ms, (∀ m ∈ ms, P m.2) → P (object ms)) : ∀ v, P v
  | .null => null
  | .bool b => bool b
  | .number n => number n
  | .string s => string s
  | .array xs => array xs fun x _ => induct null bool number string array object x
  | .object ms => object ms fun m _ => induct null bool number string array object m.2
termination_by v => sizeOf v
decreasing_by
  · next inside =>
    have item := List.sizeOf_lt_of_mem inside
    rw [Json.array.sizeOf_spec]
    omega
  · next inside =>
    have member := List.sizeOf_lt_of_mem inside
    have value : sizeOf m.2 < sizeOf m := by
      obtain ⟨k, x⟩ := m
      simp
    rw [Json.object.sizeOf_spec]
    omega

theorem text_unique (v : Json) : Unique v :=
  induct unique_null unique_bool unique_number unique_string (fun _ => unique_array)
    (fun _ => unique_object) v

theorem text_injective {v w : Json} (h : v.text = w.text) : v = w :=
  (text_unique v w [] [] ends_nil ends_nil (by rw [h])).1

end Reports.Json
