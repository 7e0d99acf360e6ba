import Reports.Proofs.Sql.KeyedBinding

/-! Where the key of a count finds the placeholders that binding finds, it tells statements apart:
under one key they are bound to one text and the same values. -/
namespace Reports.Sql

namespace CountKey

/-- What the key makes of a token of binding, when these names are drawn. -/
def ofBinding (names : List String) : Binding.Token → List Token
  | .char c => [.char c]
  | .parameter cs => if String.ofList cs ∈ names then [.drawn cs] else (':' :: cs).map .char

def isNumber : List Char → Bool
  | '_' :: d :: ds => (d :: ds).all Text.isDigit
  | _ => false

end CountKey

namespace Binding

open CountKey (ofBinding tokensOf numbered numbered_char numbered_hole isNumber)

def pending : State → List Char
  | .plain => []
  | .colon => [':']
  | .name acc => ':' :: acc.reverse
  | .quoted _ => []

/-- None of these names is found. -/
def Foreign (names : List String) (ts : List Token) : Prop :=
  ∀ cs, .parameter cs ∈ ts → String.ofList cs ∉ names

/-- Where these names are those of the holes, no other placeholder has one of them, and each hole
is a placeholder as a whole. -/
def Placed (names : List String) : State → Marked → Prop
  | s, [] => Foreign names (scanner.finish s)
  | s, .char c :: rest =>
    Foreign names (scanner.step s c).1 ∧ Placed names (scanner.step s c).2 rest
  | s, .hole _ :: rest =>
    Foreign names (scanner.finish s) ∧ scanner.step s ':' = (scanner.finish s, .colon) ∧
    (∀ c tail, rest = .char c :: tail → Text.isNameChar c = false) ∧ Placed names .plain rest

variable {names : List String}

theorem flatMap_stepPlain (c : Char) :
    (stepPlain c).1.flatMap (ofBinding names) ++ (pending (stepPlain c).2).map .char =
    [.char c] := by
  unfold stepPlain
  split
  · next colon => rw [colon]; rfl
  · split <;> rfl

theorem flatMap_step (s : State) (c : Char) (foreign : Foreign names (scanner.step s c).1) :
    (scanner.step s c).1.flatMap (ofBinding names) ++ (pending (scanner.step s c).2).map .char =
      (pending s).map .char ++ [.char c] := by
  cases s with
  | plain => exact flatMap_stepPlain c
  | quoted q =>
    simp only [scanner]
    split <;> rfl
  | colon =>
    by_cases colon : c = ':'
    · rw [colon]; rfl
    · by_cases start : Text.isNameStart c = true
      · simp [scanner, colon, start, pending]
      · have step : scanner.step .colon c = (.char ':' :: (stepPlain c).1, (stepPlain c).2) := by
          simp [scanner, colon, start]
        rw [step, List.flatMap_cons, List.append_assoc, flatMap_stepPlain]
        rfl
  | name acc =>
    by_cases goesOn : Text.isNameChar c = true
    · simp [scanner, goesOn, pending]
    · have step : scanner.step (.name acc) c =
          (.parameter acc.reverse :: (stepPlain c).1, (stepPlain c).2) := by
        simp [scanner, goesOn]
      rw [step] at foreign ⊢
      have new := foreign _ List.mem_cons_self
      rw [List.flatMap_cons, List.append_assoc, flatMap_stepPlain, ofBinding, if_neg new]
      rfl

theorem flatMap_finish (s : State) (foreign : Foreign names (scanner.finish s)) :
    (scanner.finish s).flatMap (ofBinding names) = (pending s).map .char := by
  cases s with
  | name acc =>
    have new := foreign _ (List.mem_singleton_self _)
    simp [scanner, ofBinding, new, pending]
  | _ => rfl

theorem foreign_of_flatMap {s : State} {c : Char} {ts us : List CountKey.Token}
    (agree : (scanner.step s c).1.flatMap (ofBinding names) ++ ts =
      (pending s ++ [c]).map .char ++ us) :
    Foreign names (scanner.step s c).1 := by
  intro cs mem known
  obtain ⟨rfl, stops⟩ := SpelledFrom.parameter_mem_step mem
  have step : (scanner.step (.name cs.reverse) c).1 = .parameter cs :: (stepPlain c).1 := by
    simp [scanner, stops]
  rw [step, List.flatMap_cons, ofBinding, if_pos known] at agree
  cases (List.cons.inj agree).1

theorem foreign_of_finish {s : State} {ts us : List CountKey.Token}
    (agree : (scanner.finish s).flatMap (ofBinding names) ++ ts = (pending s).map .char ++ us) :
    Foreign names (scanner.finish s) := by
  intro cs mem known
  cases s with
  | name acc =>
    obtain rfl : cs = acc.reverse := by simpa [scanner] using mem
    have last : scanner.finish (.name acc) = [.parameter acc.reverse] := rfl
    rw [last, List.flatMap_singleton, ofBinding, if_pos known] at agree
    cases (List.cons.inj agree).1
  | colon => simp [scanner] at mem
  | plain => cases mem
  | quoted q => cases mem

theorem run_colon_of_agree {name rest : List Char} {us : List CountKey.Token}
    (agree : (scanner.run .colon (name ++ rest)).flatMap (ofBinding names) = .drawn name :: us) :
    scanner.run .colon (name ++ rest) = .parameter name :: scanner.run .plain rest ∧
      (scanner.run .plain rest).flatMap (ofBinding names) = us ∧
      Text.Ends Text.isNameChar rest := by
  obtain ⟨cs, split⟩ : ∃ cs, cs = name ++ rest := ⟨_, rfl⟩
  rw [← split] at agree ⊢
  cases cs with
  | nil => cases (List.cons.inj agree).1
  | cons c cs =>
    by_cases colon : c = ':'
    · subst colon
      cases (List.cons.inj agree).1
    · by_cases start : Text.isNameStart c = true
      · have step : scanner.step .colon c = ([], .name [c]) := by simp [scanner, colon, start]
        have run : scanner.run .colon (c :: cs) =
            .parameter (c :: cs.takeWhile Text.isNameChar) ::
              scanner.run .plain (cs.dropWhile Text.isNameChar) := by
          rw [Text.Scanner.run_cons, step, run_nameFrom]
          rfl
        rw [run, List.flatMap_cons, ofBinding] at agree
        split at agree
        · obtain ⟨same, later⟩ := List.cons.inj agree
          obtain rfl : c :: cs.takeWhile Text.isNameChar = name := CountKey.Token.drawn.inj same
          have whole : c :: cs.takeWhile Text.isNameChar ++
              cs.dropWhile Text.isNameChar = c :: cs := by
            rw [List.cons_append, List.takeWhile_append_dropWhile]
          have behind : rest = cs.dropWhile Text.isNameChar :=
            (List.append_cancel_left (whole.trans split)).symm
          refine ⟨behind ▸ run, behind ▸ later, fun d first => ?_⟩
          have stops := List.head?_dropWhile_not Text.isNameChar cs
          rw [← behind, first] at stops
          exact stops
        · cases (List.cons.inj agree).1
      · have step : scanner.step .colon c = (.char ':' :: (stepPlain c).1, (stepPlain c).2) := by
          simp [scanner, colon, start]
        rw [Text.Scanner.run_cons, step] at agree
        cases (List.cons.inj agree).1

theorem run_hole_of_agree {s : State} {name rest : List Char} {us : List CountKey.Token}
    (agree : (scanner.run s (':' :: name ++ rest)).flatMap (ofBinding names) =
      (pending s).map .char ++ .drawn name :: us) :
    Foreign names (scanner.finish s) ∧ scanner.step s ':' = (scanner.finish s, .colon) ∧
      (scanner.run .colon (name ++ rest)).flatMap (ofBinding names) = .drawn name :: us := by
  rw [List.cons_append, Text.Scanner.run_cons, List.flatMap_append] at agree
  have found (step : scanner.step s ':' = (scanner.finish s, .colon)) : Foreign names
      (scanner.finish s) ∧ scanner.step s ':' = (scanner.finish s, .colon) ∧
        (scanner.run .colon (name ++ rest)).flatMap (ofBinding names) = .drawn name :: us := by
    rw [step] at agree
    have foreign := foreign_of_finish agree
    rw [flatMap_finish s foreign] at agree
    exact ⟨foreign, step, List.append_cancel_left agree⟩
  cases s with
  | plain => exact found rfl
  | name acc => exact found rfl
  | colon => cases (List.cons.inj (List.cons.inj agree).2).1
  | quoted q => cases (List.cons.inj agree).1

theorem placed_of_agree {f : Name → String} (written : ∀ t, f (.written t) = t)
    {a : Marked} {s : State} (agree : (scanner.run s (a.spell f)).flatMap (ofBinding names) =
      (pending s).map .char ++ tokensOf f a) :
    scanner.run s (a.spell f) = (reader.reads s a).map (reader.write f) ∧ Placed names s a := by
  have back : reader.write f ∘ reader.read = id := by
    funext t
    cases t with
    | char c => rfl
    | parameter cs =>
      exact congrArg Token.parameter
        ((congrArg String.toList (written _)).trans String.toList_ofList)
  induction a generalizing s with
  | nil =>
    have last : (scanner.finish s).flatMap (ofBinding names) ++ [] =
        (pending s).map .char ++ [] := by
      simpa [Marked.spell, Text.Scanner.run_nil, tokensOf] using agree
    refine ⟨?_, foreign_of_finish last⟩
    rw [Marked.spell, Text.Scanner.run_nil, Reader.reads, List.map_map, back, List.map_id]
    rfl
  | cons x rest ih =>
    cases x with
    | char c =>
      rw [Marked.spell, Text.Scanner.run_cons, List.flatMap_append] at agree
      have behind : (pending s).map .char ++ tokensOf f (.char c :: rest) =
          (pending s ++ [c]).map .char ++ tokensOf f rest := by simp [tokensOf]
      rw [behind] at agree
      have foreign := foreign_of_flatMap agree
      rw [List.map_append, List.map_singleton, ← flatMap_step s c foreign,
        List.append_assoc] at agree
      obtain ⟨later, placed⟩ := ih (List.append_cancel_left agree)
      refine ⟨?_, foreign, placed⟩
      rw [Marked.spell, Text.Scanner.run_cons, later, Reader.reads, List.map_append,
        List.map_map, back, List.map_id]
      rfl
    | hole i =>
      rw [Marked.spell] at agree ⊢
      obtain ⟨foreign, step, inName⟩ := run_hole_of_agree agree
      obtain ⟨run, behind, ends⟩ := run_colon_of_agree inName
      obtain ⟨later, placed⟩ := ih (s := .plain) behind
      refine ⟨?_, foreign, step, fun c tail first => ends c ?_, placed⟩
      · rw [List.cons_append, Text.Scanner.run_cons, step, run, later, Reader.reads,
          List.map_append, List.map_map, back, List.map_id]
        rfl
      · rw [first]
        rfl

theorem notMem_of_placed {s : State} {a : Marked} (placed : Placed names s a) {t : String}
    (mem : .name (.written t) ∈ reader.reads s a) : t ∉ names := by
  have own {ts : List Token} (foreign : Foreign names ts)
      (mem : Read.name (.written t) ∈ ts.map reader.read) : t ∉ names := by
    obtain ⟨token, ht, same⟩ := List.mem_map.mp mem
    cases token with
    | char d => cases same
    | parameter cs =>
      cases same
      exact foreign cs ht
  induction a generalizing s with
  | nil => exact own placed mem
  | cons x rest ih =>
    cases x with
    | char c => exact (List.mem_append.mp mem).elim (own placed.1) (ih placed.2)
    | hole i =>
      obtain ⟨foreign, -, -, later⟩ := placed
      rcases List.mem_append.mp mem with before | found
      · exact own foreign before
      · exact ih later ((List.mem_cons.mp found).resolve_left (by simp))

theorem written_mem_reads (acc : List Char) {ds tail : List Char} {a : Marked}
    (digits : ∀ d ∈ ds, Text.isDigit d = true) (ends : Text.Ends Text.isNameChar tail)
    (text : (numbered a).toList = ds ++ tail) :
    .name (.written (String.ofList (acc.reverse ++ ds))) ∈ reader.reads (.name acc) a := by
  have here : Read.name (.written (String.ofList acc.reverse)) ∈
      (scanner.finish (.name acc)).map reader.read := List.mem_singleton_self _
  induction ds generalizing acc a with
  | nil =>
    rw [List.append_nil]
    cases a with
    | nil => exact here
    | cons x rest =>
      cases x with
      | hole i => exact List.mem_append_left _ here
      | char c =>
        rw [numbered_char] at text
        have stops : Text.isNameChar c = false :=
          ends c (by rw [← List.nil_append tail, ← text]; rfl)
        have step : scanner.step (.name acc) c =
            (.parameter acc.reverse :: (stepPlain c).1, (stepPlain c).2) := by
          simp [scanner, stops]
        apply List.mem_append_left
        exact List.mem_map.mpr ⟨.parameter acc.reverse, by simp [reader, step], rfl⟩
  | cons d ds ih =>
    obtain ⟨digit, others⟩ := List.forall_mem_cons.mp digits
    cases a with
    | nil => cases text
    | cons x rest =>
      cases x with
      | hole i =>
        rw [numbered_hole] at text
        rw [← (List.cons.inj text).1] at digit
        exact absurd digit (by decide)
      | char c =>
        rw [numbered_char] at text
        obtain ⟨rfl, behind⟩ := List.cons.inj text
        have step : scanner.step (.name acc) c = ([], .name (c :: acc)) := by
          simp [scanner, Text.isNameChar, digit]
        have later := ih (c :: acc) others behind (List.mem_singleton_self _)
        rw [List.reverse_cons, List.append_assoc] at later
        rw [Reader.reads]
        apply List.mem_append_right
        exact (congrArg Prod.snd step).symm ▸ later

theorem ends_numbered {a : Marked} (stops : ∀ c tail, a = .char c :: tail →
    Text.isNameChar c = false) :
    Text.Ends Text.isNameChar (numbered a).toList := by
  cases a with
  | nil => exact Text.ends_nil
  | cons x rest =>
    cases x with
    | hole i =>
      rw [numbered_hole]
      exact Text.ends_cons (by decide)
    | char c =>
      rw [numbered_char]
      exact Text.ends_cons (stops c rest rfl)

/-- No name that is found is the number of another. -/
def Unnumbered (s : State) (a : Marked) : Prop :=
  ∀ t, .name (.written t) ∈ reader.reads s a → isNumber t.toList = false

theorem char_ne_hole {s : State} {c : Char} {i : Nat} {a b : Marked}
    (placed : Placed names s (.hole i :: b)) (unnumbered : Unnumbered s (.char c :: a)) :
    numbered (.char c :: a) ≠ numbered (.hole i :: b) := by
  intro same
  obtain ⟨-, step, stops, -⟩ := placed
  have chars := congrArg String.toList same
  rw [numbered_char, numbered_hole] at chars
  obtain ⟨rfl, number'⟩ := List.cons.inj chars
  obtain ⟨digit, digits, number⟩ :=
    List.exists_cons_of_ne_nil (Nat.toDigits_ne_nil (n := i) (b := 10))
  have all : ∀ d ∈ Nat.toDigits 10 i, Text.isDigit d = true :=
    fun d => Text.isDigit_of_mem_toDigits
  cases a with
  | nil => cases number'
  | cons x rest =>
    cases x with
    | hole j =>
      rw [numbered_hole] at number'
      exact absurd (List.cons.inj number').1 (by decide)
    | char low =>
      rw [numbered_char] at number'
      obtain ⟨rfl, behind⟩ := List.cons.inj number'
      have found := written_mem_reads ['_'] all (ends_numbered stops) behind
      have begins : scanner.step .colon '_' = ([], .name ['_']) := rfl
      have mem : .name (.written (String.ofList ('_' :: Nat.toDigits 10 i))) ∈
          reader.reads s (.char ':' :: .char '_' :: rest) := by
        rw [Reader.reads, Reader.reads]
        apply List.mem_append_right
        apply List.mem_append_right
        change _ ∈ reader.reads (scanner.step (scanner.step s ':').2 '_').2 rest
        rw [step]
        exact found
      have never := unnumbered _ mem
      rw [String.toList_ofList, number] at never
      rw [number] at all
      have yes : isNumber ('_' :: digit :: digits) = true := List.all_eq_true.mpr all
      rw [yes] at never
      cases never

theorem numbered_unique {names' : List String} {s : State} {a b : Marked}
    (placed : Placed names s a) (placed' : Placed names' s b) (unnumbered : Unnumbered s a)
    (unnumbered' : Unnumbered s b)
    (same : numbered a = numbered b) : a = b := by
  induction a generalizing b s with
  | nil =>
    cases b with
    | nil => rfl
    | cons x rest => cases x <;> simp [numbered] at same
  | cons x rest ih =>
    cases b with
    | nil => cases x <;> simp [numbered] at same
    | cons y rest' =>
      cases x with
      | char c =>
        cases y with
        | char d =>
          have chars := congrArg String.toList same
          rw [numbered_char, numbered_char] at chars
          obtain ⟨rfl, texts⟩ := List.cons.inj chars
          have later :=
            ih placed.2 placed'.2 (fun t mem => unnumbered t (List.mem_append_right _ mem))
            (fun t mem => unnumbered' t (List.mem_append_right _ mem)) (String.toList_inj.mp texts)
          rw [later]
        | hole j => exact absurd same (char_ne_hole placed' unnumbered)
      | hole i =>
        cases y with
        | char d => exact absurd same.symm (char_ne_hole placed unnumbered')
        | hole j =>
          obtain ⟨-, -, stops, later⟩ := placed
          obtain ⟨-, -, stops', later'⟩ := placed'
          have chars := congrArg String.toList same
          rw [numbered_hole, numbered_hole, List.cons.injEq, List.cons.injEq] at chars
          have digits {tail : List Char} (ends : Text.Ends Text.isNameChar tail) :
              Text.Ends Text.isDigit tail := fun c first => by
            have none := ends c first
            simp only [Text.isNameChar, Bool.or_eq_false_iff] at none
            exact none.1.2
          obtain ⟨numbers, texts⟩ := Text.run_unique (fun c => Text.isDigit_of_mem_toDigits)
            (fun c => Text.isDigit_of_mem_toDigits) (digits (ends_numbered stops))
            (digits (ends_numbered stops')) chars.2.2
          have rank : i = j := by
            rw [← @Nat.ofDigitChars_ten_toDigits i, numbers, Nat.ofDigitChars_ten_toDigits]
          have rest := ih later later'
            (fun t mem => unnumbered t (List.mem_append_right _ (List.mem_cons_of_mem _ mem)))
            (fun t mem => unnumbered' t (List.mem_append_right _ (List.mem_cons_of_mem _ mem)))
            (String.toList_inj.mp texts)
          rw [rank, rest]

end Binding

namespace CountKey

/-- The drawn names of the key are placeholders for binding, each wherever it finds one, and no
placeholder has the name of a number. -/
structure Agreed (s : Statement) : Prop where
  tokens : (Binding.tokens s.sql).flatMap (ofBinding (ranked [] (tokens s.sql)).2) = tokens s.sql
  numbers : ∀ name, .parameter name ∈ Binding.tokens s.sql → isNumber name = false

def hasNumber : Binding.Token → Bool
  | .char _ => false
  | .parameter name => isNumber name

instance : DecidablePred Agreed := fun s =>
  decidable_of_iff ((Binding.tokens s.sql).flatMap (ofBinding (ranked [] (tokens s.sql)).2) =
      tokens s.sql ∧ ∀ t ∈ Binding.tokens s.sql, hasNumber t = false)
    ⟨fun h => ⟨h.1, fun _ mem => h.2 _ mem⟩, fun h => ⟨h.tokens, fun t mem => by
      cases t with
      | char c => rfl
      | parameter name => exact h.numbers name mem⟩⟩

theorem Agreed.placed {s : Statement} (agreed : Agreed s) :
    let (a, names) := ranked [] (CountKey.tokens s.sql)
    Binding.tokens s.sql =
        (Binding.reader.reads .plain a).map (Binding.reader.write (nameAt names)) ∧
      Binding.Placed names .plain a ∧ Binding.Unnumbered .plain a := by
  have all : tokensOf (nameAt (ranked [] (CountKey.tokens s.sql)).2)
      (ranked [] (CountKey.tokens s.sql)).1 = CountKey.tokens s.sql :=
    tokensOf_ranked List.prefix_rfl
  have text := spelled_tokens s.sql
  rw [← all, spelled_tokensOf] at text
  have agree := agreed.tokens.trans all.symm
  rw [Binding.tokens, ← text] at agree
  obtain ⟨run, placed⟩ := Binding.placed_of_agree (s := .plain) (fun _ => rfl) agree
  rw [text] at run
  refine ⟨run, placed, fun t mem => ?_⟩
  have found : .parameter t.toList ∈ Binding.tokens s.sql := by
    rw [Binding.tokens, run]
    exact List.mem_map_of_mem (f := Binding.reader.write _) mem
  exact agreed.numbers _ found

theorem Agreed.keyed {s : Statement} {a : Marked} {names : List String} (agreed : Agreed s)
    (read : ranked [] (CountKey.tokens s.sql) = (a, names)) : Keyed s a names := by
  have placed := agreed.placed
  have distinct := nodup_ranked List.nodup_nil (CountKey.tokens s.sql)
  have count := lt_length_ranked [] (CountKey.tokens s.sql)
  rw [read] at placed distinct count
  refine ⟨placed.1, distinct, fun n mem => ?_⟩
  cases n with
  | drawn i => exact (count i).mpr (Or.inr ((Reader.drawn_mem_reads_iff Binding.lawful).mp mem))
  | written t => exact Binding.notMem_of_placed placed.2.1 mem

theorem bind_of_agreed {s s' : Statement} (intact : Intact s) (intact' : Intact s')
    (agreed : Agreed s) (agreed' : Agreed s') (same : identity s = identity s')
    {d : Dialect} {b : Bound}
    (bound : s.bind d = .ok b) : s'.bind d = .ok b := by
  obtain ⟨-, placed, unnumbered⟩ := agreed.placed
  obtain ⟨-, placed', unnumbered'⟩ := agreed'.placed
  obtain ⟨a, names, names', alike⟩ := alike_of_identity intact intact'
    (Binding.numbered_unique placed placed' unnumbered unnumbered') same
  exact alike.bind (agreed.keyed alike.left) (agreed'.keyed alike.right) bound

/-- With a digest that tells texts apart, statements with the same key are bound to the same text
and the same values. -/
theorem bind_of_key {m : CountMemo} (digests : Function.Injective m.digest) {s s' : Statement}
    (intact : Intact s) (intact' : Intact s') (agreed : Agreed s)
    (agreed' : Agreed s') {d : Dialect}
    {b b' : Bound} (bound : s.bind d = .ok b) (bound' : s'.bind d = .ok b')
    (same : m.key s = m.key s') :
    b = b' := by
  have identities : identity s = identity s' := digests same
  have asked := bind_of_agreed intact intact' agreed agreed' identities bound
  exact Except.ok.inj (asked.symm.trans bound')

def ofKind (name : String) : Statement :=
  ⟨"SELECT COUNT(*) FROM t WHERE t.kind = :" ++ name ++
    " AND t.name::text <> ':name' AND t.id = :id",
    .ofList [(name, .string "a"), ("id", .ofInt 5)]⟩

theorem bind_of_key_ofKind : ∃ b, (ofKind "qp1").bind .postgres = .ok b ∧
    (ofKind "qp12").bind .postgres = .ok b := by
  have found (s : Statement) (h : (s.bind .postgres).toBool = true) : ∃ b,
      s.bind .postgres = .ok b := by
    cases bound : s.bind .postgres with
    | error e =>
      rw [bound] at h
      cases h
    | ok b => exact ⟨b, rfl⟩
  obtain ⟨b, bound⟩ := found (ofKind "qp1") (by decide +kernel)
  obtain ⟨b', bound'⟩ := found (ofKind "qp12") (by decide +kernel)
  have same : b = b' := bind_of_key (m := { digest := id }) Function.injective_id
    (by decide +kernel) (by decide +kernel) (by decide +kernel) (by decide +kernel) bound bound'
    (String.toList_inj.mp (by decide +kernel))
  exact ⟨b, bound, same ▸ bound'⟩

structure Confused (s s' : Statement) : Prop where
  left : Intact s
  right : Intact s'
  same : identity s = identity s'
  asked : ∃ b b', s.bind .postgres = .ok b ∧ s'.bind .postgres = .ok b' ∧ b.sql ≠ b'.sql

theorem confused_of_texts {s s' : Statement} (t t' : String)
    (facts : (Intact s ∧ Intact s') ∧ (identity s).toList =
      (identity s').toList ∧ t ≠ t' ∧ (s.bind .postgres).toOption.map Bound.sql = some t ∧
      (s'.bind .postgres).toOption.map Bound.sql = some t') : Confused s s' := by
  obtain ⟨⟨intact, intact'⟩, same, other, left, right⟩ := facts
  refine ⟨intact, intact', String.toList_inj.mp same, ?_⟩
  cases bound : s.bind .postgres with
  | error e =>
    rw [bound] at left
    cases left
  | ok b =>
    cases bound' : s'.bind .postgres with
    | error e =>
      rw [bound'] at right
      cases right
    | ok b' =>
      rw [bound] at left
      rw [bound'] at right
      cases left
      cases right
      exact ⟨b, b', rfl, rfl, other⟩

def asks (sql : String) (params : List (String × Int)) : Statement :=
  ⟨sql, .ofList (params.map fun e => (e.1, .ofInt e.2))⟩

/-- What the conditions leave out: a drawn name in quotes or behind a cast, one with a digit of
another script, one before a letter where it is not drawn, and a placeholder with the name of a
number. -/
theorem key_confuses :
    Confused (asks "code = ':qp1'" []) (asks "code = ':qp2'" []) ∧
    Confused (asks "code::qp1" []) (asks "code::qp2" []) ∧
    Confused (asks "code = :qp١" [("qp", 5)]) (asks "code = :qp٢" [("qp", 5)]) ∧
    Confused (asks "a = :qp1, b = :qp2, c = :qp1é" [("qp1", 1), ("qp2", 2)])
      (asks "a = :qp2, b = :qp1, c = :qp1é" [("qp2", 1), ("qp1", 2)]) ∧
    Confused (asks "a = :qp1, b = :qp1" [("qp1", 1), ("_0", 1)])
      (asks "a = :qp1, b = :_0" [("qp1", 1), ("_0", 1)]) := by
  refine ⟨confused_of_texts "code = ':qp1'" "code = ':qp2'" ?_,
    confused_of_texts "code::qp1" "code::qp2" ?_,
    confused_of_texts "code = $1١" "code = $1٢" ?_,
    confused_of_texts "a = $1, b = $2, c = $1é" "a = $1, b = $2, c = $2é" ?_,
    confused_of_texts "a = $1, b = $1" "a = $1, b = $2" ?_⟩
  all_goals decide +kernel

end CountKey

end Reports.Sql
