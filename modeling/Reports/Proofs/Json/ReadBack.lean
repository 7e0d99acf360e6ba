import Reports.Proofs.Json.Exact
import Reports.Proofs.Json.Text
import Reports.Proofs.OrderedMap

/-! The text of a value is read back as that value, as long as its numbers are and it does not nest
too deep. -/
namespace Reports.Json

mutual

/-- What the text of a value is read as. -/
def tree : Json → Tree
  | null => .null
  | bool b => .bool b
  | number n => .number n.literal
  | string s => .string (some s)
  | array xs => .array (itemTrees xs)
  | object ms => .object (memberTrees ms)

def itemTrees : List Json → List Tree
  | [] => []
  | x :: xs => x.tree :: itemTrees xs

def memberTrees : List (String × Json) → List (Option String × Tree)
  | [] => []
  | (k, x) :: ms => (some k, x.tree) :: memberTrees ms

end

theorem skip_of_kindOf {c : Char} {k : Nat} (starts : kindOf c = some k) (rest : List Char) :
    Tree.skip (c :: rest) = c :: rest := by
  have visible : Tree.isSpace c = false := by
    have none : ∀ d ∈ [' ', '\n', '\t', '\r'], kindOf d = none := Text.forall_of_all (by decide)
    rw [Bool.eq_false_iff]
    intro space
    have blank : c ∈ [' ', '\n', '\t', '\r'] := by simpa [Tree.isSpace, or_assoc] using space
    rw [none c blank] at starts
    cases starts
  rw [Tree.skip, List.dropWhile_cons_of_neg (by simp [visible])]

theorem skip_text (v : Json) (rest : List Char) :
    Tree.skip (v.text.toList ++ rest) = v.text.toList ++ rest := by
  obtain ⟨c, cs, chars, starts⟩ := v.text_head
  rw [chars]
  exact skip_of_kindOf starts _

theorem skip_quote (s : String) (rest : List Char) :
    Tree.skip ((quote s).toList ++ rest) = (quote s).toList ++ rest := skip_text (string s) rest

theorem characters_toNat (cs : List Char) : Tree.characters (cs.map Char.toNat) = some cs := by
  induction cs with
  | nil => rw [List.map_nil, Tree.characters]
  | cons c cs ih =>
    have valid : c.toNat < 0xD800 ∨ 0xDFFF < c.toNat ∧ c.toNat < 0x110000 := c.valid
    have high : ¬(0xD800 ≤ c.toNat ∧ c.toNat < 0xDC00) := by omega
    have low : ¬(0xDC00 ≤ c.toNat ∧ c.toNat < 0xE000) := by omega
    rw [List.map_cons, Tree.characters.eq_def]
    dsimp only
    rw [if_neg high, if_neg low, ih, Char.ofNat_toNat]
    rfl

theorem stringBody_quote (s : String) (rest : List Char) :
    Tree.stringBody (s.toList.flatMap escapeChar ++ '\x22' :: rest) = some (some s, rest) := by
  rw [Tree.stringBody, points_string]
  simp [characters_toNat]

theorem value_minus (fuel : Nat) (rest : List Char) : Tree.value (fuel + 1) ('-' :: rest) =
    (Tree.numberBody true rest).map fun r => (.number r.1, r.2) := rfl

theorem value_quote (fuel : Nat) (rest : List Char) : Tree.value (fuel + 1) ('\x22' :: rest) =
    (Tree.stringBody rest).map fun r => (.string r.1, r.2) := rfl

theorem value_array {rest : List Char} (visible : Tree.skip rest = rest)
    (some : ∀ next, rest ≠ ']' :: next) (fuel : Nat) : Tree.value (fuel + 1) ('[' :: rest) =
      (Tree.items fuel rest).map fun r => (.array r.1, r.2) := by
  have starts : kindOf '[' = .some 4 := by decide
  rw [Tree.value, skip_of_kindOf starts]
  split
  case h_6 =>
    next same =>
      cases (List.cons.inj same).2
      rw [visible]
      split
      · next next => exact absurd rfl (some next)
      · rfl
  case h_8 =>
    next array _ => exact absurd rfl (array rest)
  all_goals exact absurd (List.cons.inj ‹_ = _›).1 (by decide)

theorem value_object {rest : List Char} (visible : Tree.skip rest = rest)
    (some : ∀ next, rest ≠ '\x7d' :: next) (fuel : Nat) :
      Tree.value (fuel + 1) ('\x7b' :: rest) = (Tree.members fuel rest).map fun r =>
        (.object r.1, r.2) := by
  have starts : kindOf '\x7b' = .some 5 := by decide
  rw [Tree.value, skip_of_kindOf starts]
  split
  case h_7 =>
    next same =>
      cases (List.cons.inj same).2
      rw [visible]
      split
      · next next => exact absurd rfl (some next)
      · rfl
  case h_8 =>
    next object => exact absurd rfl (object rest)
  all_goals exact absurd (List.cons.inj ‹_ = _›).1 (by decide)

theorem value_digit {c : Char} (digit : Text.isDigit c = true) (fuel : Nat) (rest : List Char) :
    Tree.value (fuel + 1) (c :: rest) =
      (Tree.numberBody false (c :: rest)).map fun r => (.number r.1, r.2) := by
  have starts : kindOf c = some 2 :=
    kindOf_number (by rw [Number.isNumberChar, digit, Bool.true_or])
  rw [Tree.value, skip_of_kindOf starts]
  split
  all_goals first
    | rfl
    | cases (List.cons.inj ‹_ = _›).1
      exact absurd digit (by decide)

/-- The text of a value is read as its tree, and what stands behind it is left. -/
def Legible (v : Json) : Prop :=
  ∀ (fuel : Nat) (rest : List Char), 2 * v.text.toList.length ≤ fuel → Delimited rest →
    Tree.value fuel (v.text.toList ++ rest) = some (v.tree, rest)

theorem fuel_of_text {v : Json} {fuel : Nat} (enough : 2 * v.text.toList.length ≤ fuel) :
    ∃ f, fuel = f + 1 := by
  obtain ⟨c, cs, chars, -⟩ := v.text_head
  rw [chars, List.length_cons] at enough
  exact ⟨fuel - 1, by omega⟩

theorem legible_null : Legible null := by
  intro fuel rest enough after
  obtain ⟨fuel, rfl⟩ := fuel_of_text enough
  rw [Tree.value, skip_text]
  rfl

theorem legible_bool (b : Bool) : Legible (bool b) := by
  intro fuel rest enough after
  obtain ⟨fuel, rfl⟩ := fuel_of_text enough
  rw [Tree.value, skip_text]
  cases b <;> rfl

theorem legible_number (n : Number) : Legible (number n) := by
  intro fuel rest enough after
  obtain ⟨fuel, rfl⟩ := fuel_of_text enough
  have proper := n.proper_literal
  have read := Literal.numberBody_magnitude proper after
  have chars : (number n).text.toList = n.literal.chars := n.literal_chars.symm
  rw [chars, Literal.chars, List.append_assoc]
  cases sign : n.literal.negative with
  | true =>
    rw [sign] at read
    rw [if_pos rfl, List.singleton_append, value_minus, read]
    rfl
  | false =>
    obtain ⟨d, ds, whole⟩ := List.exists_cons_of_ne_nil proper.given
    have digit : Text.isDigit d = true := proper.whole d (whole ▸ List.mem_cons_self)
    have first : n.literal.magnitude ++ rest =
        d ::
          (ds ++ (Literal.fractionChars n.literal.fraction ++
            Literal.exponentChars n.literal.exponent) ++ rest) := by
      rw [Literal.magnitude, whole]
      rfl
    rw [sign, first] at read
    rw [if_neg Bool.false_ne_true, List.nil_append, first, value_digit digit, read]
    rfl

theorem legible_string (s : String) : Legible (string s) := by
  intro fuel rest enough after
  obtain ⟨fuel, rfl⟩ := fuel_of_text enough
  have chars : (string s).text.toList ++ rest =
      '\x22' :: (s.toList.flatMap escapeChar ++ '\x22' :: rest) := by
    rw [text, quote, String.toList_ofList]
    simp
  rw [chars, value_quote, stringBody_quote]
  rfl

theorem delimited_afterItem (next : List Char) (xs : List Json) :
    Delimited (afterItem next xs) := by
  cases xs with
  | nil => exact delimited_cons (by decide)
  | cons y ys => exact delimited_cons (by decide)

theorem delimited_afterMember (next : List Char) (ms : List (String × Json)) :
    Delimited (afterMember next ms) := by
  cases ms with
  | nil => exact delimited_cons (by decide)
  | cons m ms => exact delimited_cons (by decide)

theorem items_text {x : Json} {xs : List Json} (each : ∀ y ∈ x :: xs, Legible y) {fuel : Nat}
    (enough : 2 * (itemsText (x :: xs)).toList.length < fuel) (next : List Char) :
    Tree.items fuel ((itemsText (x :: xs)).toList ++ ']' :: next) =
      some (itemTrees (x :: xs), next) := by
  obtain ⟨fuel, rfl⟩ : ∃ f, fuel = f + 1 := ⟨fuel - 1, by omega⟩
  have whole := congrArg List.length (itemsText_cons x xs next)
  induction xs generalizing x fuel with
  | nil =>
    have read := each x List.mem_cons_self fuel _ (by simp only [itemsText] at enough; omega)
      (delimited_afterItem next [])
    rw [Tree.items, itemsText_cons, read]
    rfl
  | cons y ys ih =>
    simp only [afterItem, List.length_append, List.length_cons] at whole
    obtain ⟨fuel, rfl⟩ : ∃ f, fuel = f + 1 := ⟨fuel - 1, by omega⟩
    have read :=
      each x List.mem_cons_self (fuel + 1) _ (by omega) (delimited_afterItem next (y :: ys))
    have others := ih (fun z mem => each z (List.mem_cons_of_mem _ mem)) fuel (by omega)
      (congrArg List.length (itemsText_cons y ys next))
    rw [Tree.items, itemsText_cons, read]
    change (Tree.items (fuel + 1) ((itemsText (y :: ys)).toList ++ ']' :: next)).bind
      (fun r => some (x.tree :: r.1, r.2)) = _
    rw [others]
    rfl

theorem members_quote (fuel : Nat) (k : String) (rest : List Char) :
    Tree.members (fuel + 1) ((quote k).toList ++ ':' :: rest) =
      (Tree.value fuel rest).bind fun r =>
        match Tree.skip r.2 with
        | ',' :: rest => (Tree.members fuel rest).bind fun s => some ((some k, r.1) :: s.1, s.2)
        | '\x7d' :: rest => some ([(some k, r.1)], rest)
        | _ => none := by
  have chars : (quote k).toList ++ ':' :: rest =
      '\x22' :: (k.toList.flatMap escapeChar ++ '\x22' :: ':' :: rest) := by
    rw [quote, String.toList_ofList]
    simp
  rw [Tree.members, skip_quote, chars]
  change (Tree.stringBody (k.toList.flatMap escapeChar ++ '\x22' :: ':' :: rest)).bind _ = _
  rw [stringBody_quote]
  rfl

theorem members_text {k : String} {x : Json} {ms : List (String × Json)}
    (each : ∀ m ∈ (k, x) :: ms, Legible m.2) {fuel : Nat}
    (enough : 2 * (membersText ((k, x) :: ms)).toList.length < fuel) (next : List Char) :
    Tree.members fuel ((membersText ((k, x) :: ms)).toList ++ '\x7d' :: next) =
      some (memberTrees ((k, x) :: ms), next) := by
  obtain ⟨fuel, rfl⟩ : ∃ f, fuel = f + 1 := ⟨fuel - 1, by omega⟩
  have whole := congrArg List.length (membersText_cons k x ms next)
  induction ms generalizing k x fuel with
  | nil =>
    simp only [afterMember, List.length_append, List.length_cons] at whole
    have read :=
      each (k, x) List.mem_cons_self fuel _ (by dsimp only; omega) (delimited_afterMember next [])
    rw [membersText_cons, members_quote, read]
    rfl
  | cons m ms ih =>
    obtain ⟨k', y⟩ := m
    simp only [afterMember, List.length_append, List.length_cons] at whole
    obtain ⟨fuel, rfl⟩ : ∃ f, fuel = f + 1 := ⟨fuel - 1, by omega⟩
    have read := each (k, x) List.mem_cons_self (fuel + 1) _ (by dsimp only; omega)
      (delimited_afterMember next ((k', y) :: ms))
    have others := ih (fun m mem => each m (List.mem_cons_of_mem _ mem)) fuel (by omega)
      (congrArg List.length (membersText_cons k' y ms next))
    rw [membersText_cons, members_quote, read]
    change (Tree.members (fuel + 1) ((membersText ((k', y) :: ms)).toList ++ '\x7d' :: next)).bind
      (fun r => some ((some k, x.tree) :: r.1, r.2)) = _
    rw [others]
    rfl

theorem legible_array {xs : List Json} (each : ∀ x ∈ xs, Legible x) : Legible (array xs) := by
  intro fuel rest enough after
  obtain ⟨fuel, rfl⟩ := fuel_of_text enough
  have chars : (array xs).text.toList ++ rest = '[' :: ((itemsText xs).toList ++ ']' :: rest) := by
    simp [text]
  have length := congrArg List.length chars
  simp only [List.length_append, List.length_cons] at length
  rw [chars]
  cases xs with
  | nil => rfl
  | cons x xs =>
    have read : Tree.items fuel _ = _ := items_text each (by omega) rest
    have visible : Tree.skip ((itemsText (x :: xs)).toList ++ ']' :: rest) =
        (itemsText (x :: xs)).toList ++ ']' :: rest := by
      rw [itemsText_cons, skip_text]
    have some (next : List Char) : (itemsText (x :: xs)).toList ++ ']' :: rest ≠ ']' :: next := by
      rw [itemsText_cons]
      exact text_append_ne (by decide) _ _
    rw [value_array visible some, read]
    rfl

theorem legible_object {ms : List (String × Json)} (each : ∀ m ∈ ms, Legible m.2) :
    Legible (object ms) := by
  intro fuel rest enough after
  obtain ⟨fuel, rfl⟩ := fuel_of_text enough
  have chars : (object ms).text.toList ++ rest =
      '\x7b' :: ((membersText ms).toList ++ '\x7d' :: rest) := by
    simp [text]
  have length := congrArg List.length chars
  simp only [List.length_append, List.length_cons] at length
  rw [chars]
  cases ms with
  | nil => rfl
  | cons m ms =>
    obtain ⟨k, x⟩ := m
    have read : Tree.members fuel _ = _ := members_text each (by omega) rest
    have visible : Tree.skip ((membersText ((k, x) :: ms)).toList ++ '\x7d' :: rest) =
        (membersText ((k, x) :: ms)).toList ++ '\x7d' :: rest := by
      rw [membersText_cons, skip_quote]
    have some (next : List Char) :
        (membersText ((k, x) :: ms)).toList ++ '\x7d' :: rest ≠ '\x7d' :: next := by
      rw [membersText_cons]
      exact quote_append_ne _ _ _
    rw [value_object visible some, read]
    rfl

theorem legible (v : Json) : Legible v :=
  induct legible_null legible_bool legible_number legible_string (fun _ => legible_array)
    (fun _ => legible_object) v

mutual

def nesting : Json → Nat
  | array xs => itemsNesting xs + 1
  | object ms => membersNesting ms + 1
  | _ => 0

def itemsNesting : List Json → Nat
  | [] => 0
  | x :: xs => max x.nesting (itemsNesting xs)

def membersNesting : List (String × Json) → Nat
  | [] => 0
  | (_, x) :: ms => max x.nesting (membersNesting ms)

end

/-- A value that its text tells exactly: its numbers are read as they are written, and its objects
have every key once and none that marks an embedded text. -/
inductive Faithful : Json → Prop
  | null : Faithful null
  | bool (b : Bool) : Faithful (bool b)
  | number {n : Number} (exact : n.Exact) : Faithful (number n)
  | string (s : String) : Faithful (string s)
  | array {xs : List Json} (each : ∀ x ∈ xs, Faithful x) : Faithful (array xs)
  | object {ms : List (String × Json)} (distinct : (ms.map Prod.fst).Nodup)
      (plain : (ms.map Prod.fst).head? ≠ some embeddedKey) (each : ∀ m ∈ ms, Faithful m.2) :
      Faithful (object ms)

/-- A value as it is got back when fewer than `depth` levels are read. -/
def within (depth : Nat) (v : Json) : Option Json := if v.nesting < depth then some v else none

theorem toItems_itemTrees {embedded : String → Option Json} {depth : Nat} (positive : 0 < depth)
    {xs : List Json} (each : ∀ x ∈ xs, x.tree.toJson embedded depth = x.within depth) :
    Tree.toItems embedded depth (itemTrees xs) = if itemsNesting xs < depth then
      some xs else none := by
  induction xs with
  | nil => exact (if_pos positive).symm
  | cons x xs ih =>
    rw [itemTrees, Tree.toItems, each x List.mem_cons_self,
      ih fun y mem => each y (List.mem_cons_of_mem _ mem), within, itemsNesting]
    by_cases first : x.nesting < depth
    · by_cases others : itemsNesting xs < depth
      · simp [first, others]
      · simp [first, others]
    · simp [first]

theorem asMap_go_memberTrees {f : Tree → Option Json} {depth : Nat} (positive : 0 < depth)
    {ms : List (String × Json)} (each : ∀ m ∈ ms, f m.2.tree = m.2.within depth)
    {acc : OrderedMap String Json} (distinct : (acc.keys ++ ms.map Prod.fst).Nodup) :
    Tree.asMap.go f (memberTrees ms) acc =
      if membersNesting ms < depth then some ⟨acc.entries ++ ms⟩ else none := by
  induction ms generalizing acc with
  | nil =>
    rw [membersNesting, if_pos positive, List.append_nil]
    rfl
  | cons m ms ih =>
    obtain ⟨k, x⟩ := m
    have new : k ∉ acc.keys := fun mem =>
      (List.nodup_append.mp distinct).2.2 k mem k List.mem_cons_self rfl
    have entries := OrderedMap.entries_insert_of_notMem new x
    have later : ((acc.insert k x).keys ++ ms.map Prod.fst).Nodup := by
      rw [OrderedMap.keys, entries, List.map_append, List.append_assoc]
      exact distinct
    rw [memberTrees, Tree.asMap.go, each (k, x) List.mem_cons_self, within, membersNesting]
    by_cases first : x.nesting < depth
    · have others := ih (fun m mem => each m (List.mem_cons_of_mem _ mem)) later
      rw [entries, List.append_assoc] at others
      simpa [first] using others
    · simp [first]

theorem toMembers_eq_go (embedded : String → Option Json) (depth : Nat)
    (ms : List (Option String × Tree)) (acc : OrderedMap String Json) :
    Tree.toMembers embedded depth ms acc = Tree.asMap.go (Tree.toJson embedded depth) ms acc := by
  induction ms generalizing acc with
  | nil => rfl
  | cons m ms ih =>
    obtain ⟨k, t⟩ := m
    simp only [Tree.toMembers, Tree.asMap.go, ih]

/-- A faithful value is got back from its tree exactly when it does not nest too deep. -/
theorem Faithful.toJson_tree {v : Json} (faithful : v.Faithful)
    (embedded : String → Option Json) {depth : Nat} (positive : 0 < depth) :
    v.tree.toJson embedded depth = v.within depth := by
  induction faithful generalizing depth with
  | null => exact (if_pos positive).symm
  | bool b => exact (if_pos positive).symm
  | string s => exact (if_pos positive).symm
  | number exact =>
    rw [tree, Tree.toJson, show _ = _ from exact]
    exact (if_pos positive).symm
  | @array xs each ih =>
    rw [tree, Tree.toJson, within, nesting]
    by_cases shallow : depth ≤ 1
    · rw [if_pos shallow, if_neg (by omega)]
    · have inner : 0 < depth - 1 := by omega
      rw [if_neg shallow, toItems_itemTrees inner fun x mem => ih x mem inner,
        apply_ite (Option.map Json.array)]
      simp only [Option.map_some, Option.map_none, Nat.lt_sub_iff_add_lt]
  | @object ms distinct plain each ih =>
    rw [tree, Tree.toJson, within, nesting]
    by_cases shallow : depth ≤ 1
    · rw [if_pos shallow, if_neg (by omega)]
    · have inner : 0 < depth - 1 := by omega
      have fresh : ((OrderedMap.empty : OrderedMap String Json).keys ++ ms.map Prod.fst).Nodup :=
        distinct
      have members := asMap_go_memberTrees inner (fun m mem => ih m mem inner) fresh
      have stays : Tree.embeds (memberTrees ms) = false := by
        cases ms with
        | nil => rfl
        | cons m ms => simpa [memberTrees, Tree.embeds] using plain
      rw [if_neg shallow, stays, if_neg Bool.false_ne_true, toMembers_eq_go, members,
        apply_ite (Option.map fun m : OrderedMap String Json => Json.object m.entries)]
      simp only [Option.map_some, Option.map_none, Nat.lt_sub_iff_add_lt]
      rfl

theorem read_tree (v : Json) : Tree.read v.text = some v.tree := by
  have read := legible v (2 * v.text.toList.length + 2) [] (by omega) delimited_nil
  rw [List.append_nil] at read
  simp [Tree.read, read, Tree.skip]

/-- What a text says is read back from it, unless it nests too deep to be read at all. -/
theorem Faithful.read_text {v : Json} (faithful : v.Faithful) :
    read v.text = v.within depthLimit := by
  rw [read, readWithin, read_tree, Option.bind_some]
  exact faithful.toJson_tree _ (by decide)

end Reports.Json
