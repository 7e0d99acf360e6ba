import Reports.Proofs.Json.Quoting
import Reports.Proofs.Sql.Reader

/-! What the key of a count tells. The drawn names of a statement can be left out of it: where the
text with their ranks by first appearance is read back, so are their values in that order and all
other named values. -/
namespace Reports.Sql

namespace CountKey

def enter (seen : List String) (name : String) : Nat × List String :=
  match position? name seen with
  | some i => (i, seen)
  | none => (seen.length, seen ++ [name])

/-- A text with the ranks of its drawn names by first appearance, and those names. -/
def ranked (seen : List String) : List Token → Marked × List String
  | [] => ([], seen)
  | .char c :: rest => (.char c :: (ranked seen rest).1, (ranked seen rest).2)
  | .drawn chars :: rest =>
    let place := enter seen (String.ofList chars)
    (.hole place.1 :: (ranked place.2 rest).1, (ranked place.2 rest).2)

def numbered : Marked → String
  | [] => ""
  | .char c :: rest => String.ofList [c] ++ numbered rest
  | .hole i :: rest => ":_" ++ Text.decimal i ++ numbered rest

theorem renumber_eq (seen : List String) (ts : List Token) :
    renumber seen ts = (numbered (ranked seen ts).1, (ranked seen ts).2) := by
  induction ts generalizing seen with
  | nil => rfl
  | cons t rest ih =>
    cases t with
    | char c => simp only [renumber, ranked, ih, numbered]
    | drawn chars =>
      cases found : position? (String.ofList chars) seen with
      | some i => simp only [renumber, ranked, enter, found, ih, numbered]
      | none => simp only [renumber, ranked, enter, found, ih, numbered]

theorem getElem?_of_position? {name : String} {seen : List String} {i : Nat}
    (found : position? name seen = some i) : seen[i]? = some name := by
  induction seen generalizing i with
  | nil => cases found
  | cons n rest ih =>
    by_cases same : n = name
    · simp only [position?, same, if_true, Option.some.injEq] at found
      rw [← found, same]
      rfl
    · simp only [position?, same, if_false, Option.map_eq_some_iff] at found
      obtain ⟨j, found, rfl⟩ := found
      exact ih found

theorem notMem_of_position? {name : String} {seen : List String}
    (none : position? name seen = none) :
    name ∉ seen := by
  induction seen with
  | nil => exact List.not_mem_nil
  | cons n rest ih =>
    by_cases same : n = name
    · simp [position?, same] at none
    · simp only [position?, same, if_false, Option.map_eq_none_iff] at none
      exact fun mem => (List.mem_cons.mp mem).elim (fun h => same h.symm) (ih none)

/-- What entering a name does: it is new at the end, or it was known. -/
structure Enters (seen : List String) (name : String) (i : Nat) (seen' : List String) : Prop where
  longer : seen <+: seen'
  there : seen'[i]? = some name
  distinct : seen.Nodup → seen'.Nodup
  mem : ∀ n ∈ seen', n ∈ seen ∨ n = name
  count : ∀ j, j < seen'.length ↔ j < seen.length ∨ j = i

theorem enters (seen : List String) (name : String) :
    Enters seen name (enter seen name).1 (enter seen name).2 := by
  unfold enter
  split
  · next i found =>
    have there := getElem?_of_position? found
    obtain ⟨inside, -⟩ := List.getElem?_eq_some_iff.mp there
    exact ⟨List.prefix_rfl, there, id, fun n => Or.inl,
      fun j => ⟨Or.inl, fun h => h.elim id fun same => same ▸ inside⟩⟩
  · next none =>
    refine ⟨List.prefix_append _ _, by simp, fun distinct => ?_, ?_, ?_⟩
    · exact (List.nodup_append.mpr ⟨distinct, List.nodup_singleton _, by
        rintro a ha b hb rfl
        exact notMem_of_position? none (List.mem_singleton.mp hb ▸ ha)⟩)
    · exact fun n mem => (List.mem_append.mp mem).imp_right List.mem_singleton.mp
    · intro j
      rw [List.length_append, List.length_singleton]
      omega

theorem prefix_ranked (seen : List String) (ts : List Token) : seen <+: (ranked seen ts).2 := by
  induction ts generalizing seen with
  | nil => exact List.prefix_rfl
  | cons t rest ih =>
    cases t with
    | char c => exact ih seen
    | drawn chars => exact (enters seen (String.ofList chars)).longer.trans (ih _)

theorem nodup_ranked {seen : List String} (distinct : seen.Nodup) (ts : List Token) :
    (ranked seen ts).2.Nodup := by
  induction ts generalizing seen with
  | nil => exact distinct
  | cons t rest ih =>
    cases t with
    | char c => exact ih distinct
    | drawn chars => exact ih ((enters seen (String.ofList chars)).distinct distinct)

theorem mem_ranked {seen : List String} {ts : List Token} {name : String}
    (mem : name ∈ (ranked seen ts).2) : name ∈ seen ∨ .drawn name.toList ∈ ts := by
  induction ts generalizing seen with
  | nil => exact Or.inl mem
  | cons t rest ih =>
    cases t with
    | char c => exact (ih mem).imp_right (List.mem_cons_of_mem _)
    | drawn chars =>
      rcases ih mem with known | later
      · refine ((enters seen (String.ofList chars)).mem name known).imp_right ?_
        rintro rfl
        rw [String.toList_ofList]
        exact List.mem_cons_self
      · exact Or.inr (List.mem_cons_of_mem _ later)

theorem lt_length_ranked (seen : List String) (ts : List Token) (i : Nat) :
    i < (ranked seen ts).2.length ↔ i < seen.length ∨ i ∈ (ranked seen ts).1.holes := by
  induction ts generalizing seen with
  | nil => simp [ranked, Marked.holes]
  | cons t rest ih =>
    cases t with
    | char c => exact ih seen
    | drawn chars =>
      have count := (enters seen (String.ofList chars)).count i
      simp only [ranked, Marked.holes, List.mem_cons, ih, count, or_assoc]

/-- The names of a text by rank. There is none of a rank too high. -/
def nameAt (names : List String) : Name → String
  | .drawn i => names.getD i (placeholderName 0)
  | .written s => s

def spelled : List Token → List Char
  | [] => []
  | .char c :: rest => c :: spelled rest
  | .drawn name :: rest => ':' :: name ++ spelled rest

theorem spelled_append (ts us : List Token) : spelled (ts ++ us) = spelled ts ++ spelled us := by
  induction ts with
  | nil => rfl
  | cons t rest ih => cases t <;> simp [spelled, ih]

theorem spelled_chars (cs : List Char) : spelled (cs.map .char) = cs := by
  induction cs with
  | nil => rfl
  | cons c rest ih => exact congrArg (c :: ·) ih

def heldBack : State → List Char
  | .plain => []
  | .held acc => ':' :: acc.reverse
  | .digits acc => ':' :: acc.reverse

theorem spelled_stepPlain (c : Char) :
    spelled (stepPlain c).1 ++ heldBack (stepPlain c).2 = [c] := by
  unfold stepPlain
  split
  · next colon => rw [colon]; rfl
  · rfl

theorem spelled_release (acc : List Char) (c : Char) :
    spelled (release acc ++ (stepPlain c).1) ++ heldBack (stepPlain c).2 =
      ':' :: acc.reverse ++ [c] := by
  rw [spelled_append, List.append_assoc, spelled_stepPlain, release, spelled, spelled_chars]

theorem spelled_step (s : State) (c : Char) :
    spelled (scanner.step s c).1 ++ heldBack (scanner.step s c).2 = heldBack s ++ [c] := by
  cases s with
  | plain => exact spelled_stepPlain c
  | held acc =>
    simp only [scanner]
    split
    · rfl
    · rfl
    · split
      · simp [spelled, heldBack]
      · exact spelled_release ['p', 'q'] c
    · exact spelled_release _ c
  | digits acc =>
    simp only [scanner]
    split
    · simp [spelled, heldBack]
    · split
      · exact spelled_release acc c
      · rw [spelled, List.append_assoc, spelled_stepPlain]
        rfl

theorem spelled_run (s : State) (cs : List Char) :
    spelled (scanner.run s cs) = heldBack s ++ cs := by
  induction cs generalizing s with
  | nil =>
    rw [Text.Scanner.run_nil, List.append_nil]
    cases s with
    | plain => rfl
    | held acc => exact congrArg (':' :: ·) (spelled_chars acc.reverse)
    | digits acc => exact congrArg (':' :: ·) (List.append_nil _)
  | cons c rest ih =>
    rw [Text.Scanner.run_cons, spelled_append, ih, ← List.append_assoc, spelled_step,
      List.append_assoc]
    rfl

theorem spelled_tokens (sql : String) : spelled (tokens sql) = sql.toList :=
  spelled_run .plain sql.toList

def tokensOf (f : Name → String) : Marked → List Token
  | [] => []
  | .char c :: rest => .char c :: tokensOf f rest
  | .hole i :: rest => .drawn (f (.drawn i)).toList :: tokensOf f rest

theorem spelled_tokensOf (f : Name → String) (a : Marked) :
    spelled (tokensOf f a) = a.spell f := by
  induction a with
  | nil => rfl
  | cons x rest ih => cases x <;> rw [tokensOf, spelled, Marked.spell, ih]

theorem tokensOf_ranked {seen : List String} {ts : List Token} {names : List String}
    (all : (ranked seen ts).2 <+: names) : tokensOf (nameAt names) (ranked seen ts).1 = ts := by
  induction ts generalizing seen with
  | nil => rfl
  | cons t rest ih =>
    cases t with
    | char c => exact congrArg (.char c :: ·) (ih all)
    | drawn chars =>
      have known := (prefix_ranked _ rest).trans all
      have there := (enters seen (String.ofList chars)).there
      have name : nameAt names (.drawn (enter seen (String.ofList chars)).1) =
          String.ofList chars := by
        obtain ⟨more, rfl⟩ := known
        obtain ⟨inside, -⟩ := List.getElem?_eq_some_iff.mp there
        rw [nameAt, List.getD_eq_getElem?_getD, List.getElem?_append_left inside, there]
        rfl
      rw [ranked, tokensOf, name, String.toList_ofList, ih all]

theorem numbered_char (c : Char) (rest : Marked) :
    (numbered (.char c :: rest)).toList = c :: (numbered rest).toList := by
  simp [numbered]

theorem numbered_hole (i : Nat) (rest : Marked) :
    (numbered (.hole i :: rest)).toList =
      ':' :: '_' :: (Nat.toDigits 10 i ++ (numbered rest).toList) := by
  simp [numbered, Text.decimal]

def Whole (s : String) : Prop := '\x00' ∉ s.toList

theorem Whole.append {s t : String} (hs : Whole s) (ht : Whole t) : Whole (s ++ t) := by
  rw [Whole, String.toList_append, List.mem_append]
  exact not_or.mpr ⟨hs, ht⟩

def joined (parts : List String) : String := String.join (parts.map ("\x00" ++ ·))

theorem joined_cons (t : String) (parts : List String) :
    (joined (t :: parts)).toList = '\x00' :: (t.toList ++ (joined parts).toList) := by
  simp [joined]

theorem ends_joined (parts : List String) : Text.Ends (· != '\x00') (joined parts).toList := by
  cases parts with
  | nil => exact Text.ends_nil
  | cons t parts =>
    rw [joined_cons]
    exact Text.ends_cons (by decide)

theorem joined_unique {first first' : String} {parts parts' : List String} (whole : Whole first)
    (whole' : Whole first') (same : first ++ joined parts = first' ++ joined parts') :
    first = first' ∧ joined parts = joined parts' := by
  have inside {t : String} (whole : Whole t) : ∀ c ∈ t.toList, (c != '\x00') = true := by
    intro c hc
    rw [bne_iff_ne]
    rintro rfl
    exact whole hc
  have chars := congrArg String.toList same
  rw [String.toList_append, String.toList_append] at chars
  obtain ⟨left, right⟩ := Text.run_unique (inside whole) (inside whole') (ends_joined parts)
    (ends_joined parts') chars
  exact ⟨String.toList_inj.mp left, String.toList_inj.mp right⟩

theorem joined_injective {parts parts' : List String} (all : ∀ t ∈ parts, Whole t)
    (all' : ∀ t ∈ parts', Whole t) (same : joined parts = joined parts') : parts = parts' := by
  have behind {t t' : String} {rest rest' : List String}
      (same : joined (t :: rest) = joined (t' :: rest')) :
      t ++ joined rest = t' ++ joined rest' := by
    have chars := congrArg String.toList same
    rw [joined_cons, joined_cons, ← String.toList_append, ← String.toList_append] at chars
    exact String.toList_inj.mp (List.cons.inj chars).2
  have empty (t : String) (rest : List String) : joined (t :: rest) ≠ "" := by
    intro none
    have chars := joined_cons t rest
    rw [none] at chars
    cases chars
  induction parts generalizing parts' with
  | nil =>
    cases parts' with
    | nil => rfl
    | cons t rest => exact absurd same.symm (empty t rest)
  | cons t rest ih =>
    cases parts' with
    | nil => exact absurd same (empty t rest)
    | cons t' rest' =>
      obtain ⟨whole, later⟩ := List.forall_mem_cons.mp all
      obtain ⟨whole', later'⟩ := List.forall_mem_cons.mp all'
      obtain ⟨rfl, others⟩ := joined_unique whole whole' (behind same)
      rw [ih later later' others]

def valuePart (v : Option Json) : String :=
  match v with
  | some v => v.text
  | none => ""

def namedPart (e : String × Json) : String := e.1 ++ "=" ++ e.2.text

def others (s : Statement) (names : List String) : List (String × Json) :=
  s.params.entries.filter fun e => !names.contains e.1

theorem identity_eq (s : Statement) {a : Marked} {names : List String}
    (read : ranked [] (tokens s.sql) = (a, names)) :
    identity s =
      numbered a ++ joined
        ((names.map s.params.get?).map valuePart ++ (others s names).map namedPart) := by
  simp only [identity, renumber_eq, read, joined, others, namedPart, List.map_append, List.map_map,
    Function.comp_def, String.join_append, String.append_assoc]
  congr 2
  refine congrArg String.join (List.map_congr_left fun name _ => ?_)
  cases s.params.get? name <;> simp [valuePart]

theorem valuePart_injective {v w : Option Json} (same : valuePart v = valuePart w) : v = w := by
  have some (v : Json) : v.text ≠ "" := by
    obtain ⟨c, rest, chars, -⟩ := v.text_head
    intro none
    rw [none] at chars
    cases chars
  cases v with
  | none =>
    cases w with
    | none => rfl
    | some w => exact absurd same.symm (some w)
  | some v =>
    cases w with
    | none => exact absurd same (some v)
    | some w => exact congrArg Option.some (Json.text_injective same)

theorem namedPart_injective {e e' : String × Json} (same : namedPart e = namedPart e') :
    e = e' := by
  obtain ⟨names, values⟩ := Json.named_injective same
  exact Prod.ext names values

theorem whole_text (v : Json) : Whole v.text := Json.null_notMem_text v

theorem whole_numbered {ts : List Token} (whole : '\x00' ∉ spelled ts) (seen : List String) :
    Whole (numbered (ranked seen ts).1) := by
  induction ts generalizing seen with
  | nil => exact List.not_mem_nil
  | cons t rest ih =>
    cases t with
    | char c =>
      rw [spelled, List.mem_cons] at whole
      rw [Whole, ranked, numbered_char, List.mem_cons]
      exact not_or.mpr ⟨(not_or.mp whole).1, ih (not_or.mp whole).2 seen⟩
    | drawn name =>
      rw [spelled, List.cons_append, List.mem_cons, List.mem_append] at whole
      have later := (not_or.mp (not_or.mp whole).2).2
      have digits (i : Nat) : '\x00' ∉ Nat.toDigits 10 i := fun mem =>
        absurd (Text.isDigit_of_mem_toDigits mem) (by decide)
      rw [Whole, ranked, numbered_hole, List.mem_cons, List.mem_cons, List.mem_append]
      exact not_or.mpr
        ⟨by decide, not_or.mpr ⟨by decide, not_or.mpr ⟨digits _, ih later _⟩⟩⟩

/-- Statements with the same key are the same up to their drawn names: the texts agree with ranks in
place of these, and so do their values by rank and all other named values. -/
structure Alike (s s' : Statement) (a : Marked) (names names' : List String) : Prop where
  left : ranked [] (tokens s.sql) = (a, names)
  right : ranked [] (tokens s'.sql) = (a, names')
  values : names.map s.params.get? = names'.map s'.params.get?
  others : others s names = others s' names'

/-- Neither the text nor a name has a null character. -/
structure Intact (s : Statement) : Prop where
  text : Whole s.sql
  names : ∀ name ∈ s.params.keys, Whole name

instance : DecidablePred Whole := fun s => inferInstanceAs (Decidable ('\x00' ∉ s.toList))

instance : DecidablePred Intact := fun s =>
  decidable_of_iff (Whole s.sql ∧ ∀ name ∈ s.params.keys, Whole name)
    ⟨fun h => ⟨h.1, h.2⟩, fun h => ⟨h.text, h.names⟩⟩

theorem alike_of_identity {s s' : Statement} (intact : Intact s) (intact' : Intact s')
    (texts : numbered (ranked [] (tokens s.sql)).1 = numbered (ranked [] (tokens s'.sql)).1 →
      (ranked [] (tokens s.sql)).1 = (ranked [] (tokens s'.sql)).1)
    (same : identity s = identity s') : ∃ a names names', Alike s s' a names names' := by
  have text (s : Statement) (intact : Intact s) : Whole
      (numbered (ranked [] (tokens s.sql)).1) := by
    apply whole_numbered
    rw [spelled_tokens]
    exact intact.text
  have whole := text s intact
  have whole' := text s' intact'
  have count := lt_length_ranked [] (tokens s.sql)
  have count' := lt_length_ranked [] (tokens s'.sql)
  obtain ⟨⟨a, names⟩, read⟩ : ∃ r, ranked [] (tokens s.sql) = r := ⟨_, rfl⟩
  obtain ⟨⟨b, names'⟩, read'⟩ : ∃ r, ranked [] (tokens s'.sql) = r := ⟨_, rfl⟩
  rw [read] at whole texts count
  rw [read'] at whole' texts count'
  have parts (s : Statement) (intact : Intact s) (names : List String) :
      ∀ t ∈ (names.map s.params.get?).map valuePart ++ (CountKey.others s names).map namedPart,
        Whole t := by
    intro t mem
    rcases List.mem_append.mp mem with value | named
    · obtain ⟨v, -, rfl⟩ := List.mem_map.mp value
      cases v with
      | none => exact List.not_mem_nil
      | some v => exact whole_text v
    · obtain ⟨e, he, rfl⟩ := List.mem_map.mp named
      have key := intact.names e.1 (List.mem_map_of_mem (List.mem_filter.mp he).1)
      have equals : Whole "=" := by unfold Whole; decide
      exact (Whole.append key equals).append (whole_text e.2)
  rw [identity_eq s read, identity_eq s' read'] at same
  obtain ⟨numbers, joins⟩ := joined_unique whole whole' same
  obtain rfl : a = b := texts numbers
  have lists := joined_injective (parts s intact names) (parts s' intact' names') joins
  have length : names.length = names'.length := by
    have bound (i : Nat) : i < names.length ↔ i < names'.length := (count i).trans (count' i).symm
    have low := bound names.length
    have high := bound names'.length
    omega
  obtain ⟨values, rest⟩ := List.append_inj lists (by simp [length])
  refine ⟨a, names, names', read, read', ?_, ?_⟩
  · exact List.map_inj_right (fun _ _ => valuePart_injective) |>.mp values
  · exact List.map_inj_right (fun _ _ => namedPart_injective) |>.mp rest

end CountKey

end Reports.Sql
