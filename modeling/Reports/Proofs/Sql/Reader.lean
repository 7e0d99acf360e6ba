import Reports.Proofs.Sql.Apart
import Reports.Text.Scanner
import Reports.Sql.Binding
import Reports.Sql.Count

/-! The two scanners that look for placeholders in a statement: the one that binds values and the
one that renumbers drawn names. Where holes stand apart, both find every hole as one name, whatever
its number, and read the rest of the text as if no placeholder stood in it. -/
namespace Reports.Sql

/-- What such a scanner finds in an outline. -/
inductive Read
  | char (c : Char)
  | name (a : Name)
  deriving DecidableEq

def Read.names (rs : List Read) : List Name :=
  rs.filterMap fun
    | .char _ => none
    | .name a => some a

theorem Read.mem_names {rs : List Read} {a : Name} : a ∈ names rs ↔ .name a ∈ rs := by
  rw [names, List.mem_filterMap]
  constructor
  · rintro ⟨r, hr, h⟩
    cases r with
    | char c => cases h
    | name b => cases h; exact hr
  · exact fun h => ⟨_, h, rfl⟩

theorem Read.names_append (rs qs : List Read) : names (rs ++ qs) = names rs ++ names qs :=
  List.filterMap_append

theorem Read.names_cons_name (a : Name) (rs : List Read) : names (.name a :: rs) = a :: names rs :=
  rfl

def IsPlaceholder (cs : List Char) : Prop :=
  ∃ c ds, cs = 'q' :: 'p' :: c :: ds ∧ ∀ d ∈ c :: ds, Text.isDigit d = true

/-- A way of writing names down: those written by hand stay as they are, and the others look like
drawn ones. -/
structure Naming (f : Name → String) : Prop where
  written (s : String) : f (.written s) = s
  drawn (i : Nat) : IsPlaceholder (f (.drawn i)).toList

theorem isPlaceholder_placeholderName (n : Nat) : IsPlaceholder (placeholderName n).toList := by
  obtain ⟨c, ds, chars, -, -⟩ := decimal_eq_cons n
  have digits : ∀ d ∈ (Text.decimal n).toList, Text.isDigit d = true := fun d =>
    Text.isDigit_of_mem_decimal
  rw [placeholderName_toList]
  rw [chars] at digits ⊢
  exact ⟨c, ds, rfl, digits⟩

theorem naming_text (number : Nat → Nat) : Naming (Name.text number) where
  written _ := rfl
  drawn i := isPlaceholder_placeholderName (number i)

/-- A scanner that finds characters and names. -/
structure Reader (σ τ : Type) where
  scanner : Text.Scanner σ τ
  start : σ
  read : τ → Read
  write : (Name → String) → Read → τ

namespace Reader

variable {σ τ : Type} (r : Reader σ τ)

def reads (s : σ) : Marked → List Read
  | [] => (r.scanner.finish s).map r.read
  | .char c :: rest => (r.scanner.step s c).1.map r.read ++ reads (r.scanner.step s c).2 rest
  | .hole i :: rest => (r.scanner.finish s).map r.read ++ .name (.drawn i) :: reads r.start rest

def EndsName : List Char → Prop
  | [] => True
  | c :: _ => Text.isWordChar c = false

/-- In states that go with the place, a placeholder is found as one name. -/
structure Lawful (ready : Place → σ → Prop) : Prop where
  start : ready .plain r.start
  step {p : Place} {s : σ} (c : Char) : ready p s → ready (p.next c) (r.scanner.step s c).2
  back {f : Name → String} (naming : Naming f) (t : τ) : r.write f (r.read t) = t
  written (t : τ) (i : Nat) : r.read t ≠ .name (.drawn i)
  placeholder {s : σ} {f : Name → String} (naming : Naming f) (i : Nat) (rest : List Char) :
    ready .plain s → EndsName rest →
      r.scanner.run s (':' :: (f (.drawn i)).toList ++ rest) =
        r.scanner.finish s ++ r.write f (.name (.drawn i)) :: r.scanner.run r.start rest

theorem endsName_spell (f : Name → String) {a : Marked} (ends : a.EndsWord) :
    EndsName (a.spell f) := by
  cases a with
  | nil => trivial
  | cons x rest =>
    cases x with
    | char c => exact ends
    | hole i =>
      have colon : Text.isWordChar ':' = false := by decide
      exact colon

theorem run_spell {r : Reader σ τ} {ready : Place → σ → Prop} (lawful : r.Lawful ready)
    {f : Name → String} (naming : Naming f) {p : Place} {s : σ} (here : ready p s) {a : Marked}
    (parted : a.Parted p) : r.scanner.run s (a.spell f) = (r.reads s a).map (r.write f) := by
  have back : r.write f ∘ r.read = id := funext (lawful.back naming)
  induction a generalizing p s with
  | nil =>
    rw [Marked.spell, Text.Scanner.run_nil, reads, List.map_map, back, List.map_id]
  | cons x rest ih =>
    cases x with
    | char c =>
      rw [Marked.spell, Text.Scanner.run_cons, reads, List.map_append, List.map_map, back,
        List.map_id, ih (lawful.step c here) parted]
    | hole i =>
      obtain ⟨rfl, ends, restParted⟩ := parted
      rw [Marked.spell, lawful.placeholder naming i _ here (endsName_spell f ends), reads,
        List.map_append, List.map_map, back, List.map_id, List.map_cons,
        ih lawful.start restParted]

theorem run_fill {r : Reader σ τ} {ready : Place → σ → Prop} (lawful : r.Lawful ready)
    (number : Nat → Nat) {p : Place} {s : σ} (here : ready p s) {a : Marked}
    (parted : a.Parted p) :
    r.scanner.run s (a.fill number) = (r.reads s a).map (r.write (Name.text number)) := by
  rw [← Marked.spell_text, run_spell lawful (naming_text number) here parted]

/-- The ranks of the drawn names that are found are those of the holes, in order. -/
theorem drawn_reads {r : Reader σ τ} {ready : Place → σ → Prop}
    (lawful : r.Lawful ready) (s : σ) (a : Marked) :
    (Read.names (r.reads s a)).filterMap Name.rank? = a.holes := by
  have none (ts : List τ) : (Read.names (ts.map r.read)).filterMap Name.rank? = [] := by
    rw [List.filterMap_eq_nil_iff]
    intro a ha
    obtain ⟨t, -, same⟩ := List.mem_map.mp (Read.mem_names.mp ha)
    cases a with
    | drawn i => exact absurd same (lawful.written t i)
    | written name => rfl
  induction a generalizing s with
  | nil => exact none _
  | cons x rest ih =>
    cases x with
    | char c => rw [reads, Read.names_append, List.filterMap_append, none, ih]; rfl
    | hole i => 
      rw [reads, Read.names_append, List.filterMap_append, none, Read.names_cons_name,
        List.filterMap_cons, ih]
      rfl

theorem drawn_mem_reads_iff {r : Reader σ τ} {ready : Place → σ → Prop}
    (lawful : r.Lawful ready) {i : Nat} {s : σ} {a : Marked} : .name (.drawn i) ∈ r.reads s a ↔
    i ∈ a.holes := by
  rw [← drawn_reads lawful s a, ← Read.mem_names, List.mem_filterMap]
  constructor
  · exact fun h => ⟨_, h, rfl⟩
  · rintro ⟨b, hb, rank⟩
    cases b with
    | drawn j => cases rank; exact hb
    | written name => cases rank

end Reader

namespace Binding

def reader : Reader State Token where
  scanner := scanner
  start := .plain
  read
    | .char c => .char c
    | .parameter cs => .name (.written (String.ofList cs))
  write f
    | .char c => .char c
    | .name a => .parameter (f a).toList

/-- A quoted part is one for both, and outside of those only a colon that just came matters. -/
def Ready : Place → State → Prop
  | .plain, s => s = .plain ∨ ∃ acc, s = .name acc
  | .colon, s => s = .plain ∨ s = .colon
  | .quoted q, s => s = .quoted q

theorem run_nameFrom (acc cs : List Char) :
    scanner.run (.name acc) cs = .parameter (acc.reverse ++ cs.takeWhile Text.isNameChar) ::
      scanner.run .plain (cs.dropWhile Text.isNameChar) := by
  induction cs generalizing acc with
  | nil => simp [Text.Scanner.run_nil, scanner]
  | cons c rest ih =>
    rw [Text.Scanner.run_cons]
    by_cases goesOn : Text.isNameChar c = true
    · have step : scanner.step (.name acc) c = ([], .name (c :: acc)) := by simp [scanner, goesOn]
      rw [step, ih]
      simp [goesOn]
    · have step : scanner.step (.name acc) c =
          (.parameter acc.reverse :: (stepPlain c).1, (stepPlain c).2) := by
        simp [scanner, goesOn]
      have plain : scanner.step .plain c = stepPlain c := rfl
      rw [step, List.takeWhile_cons_of_neg goesOn, List.dropWhile_cons_of_neg goesOn,
        Text.Scanner.run_cons, plain, List.append_nil]
      rfl

theorem run_name {cs : List Char} (names : ∀ c ∈ cs, Text.isNameChar c = true) (acc : List Char)
    {rest : List Char} (ends : Reader.EndsName rest) :
    scanner.run (.name acc) (cs ++ rest) =
      .parameter (acc.reverse ++ cs) :: scanner.run .plain rest := by
  have stops : Text.Ends Text.isNameChar rest := by
    intro c first
    obtain ⟨tail, rfl⟩ := List.head?_eq_some_iff.mp first
    by_contra h
    have word := Text.isWordChar_of_isNameChar (Bool.not_eq_false _ ▸ h)
    rw [ends] at word
    cases word
  rw [run_nameFrom, Text.takeWhile_run names stops, Text.dropWhile_run names stops]

theorem ready_stepPlain (c : Char) : Ready (Place.plain.next c) (stepPlain c).2 := by
  by_cases colon : c = ':'
  · subst colon
    exact Or.inr rfl
  · by_cases quote : c = '\x27' ∨ c = '\x22'
    · have opened : Place.plain.next c = .quoted c := by
        simp [Place.next, colon, TableRef.isQuote, quote]
      rw [opened, stepPlain, if_neg colon, if_pos quote]
      rfl
    · have stays : Place.plain.next c = .plain := by
        simp [Place.next, colon, TableRef.isQuote, quote]
      rw [stays, stepPlain, if_neg colon, if_neg quote]
      exact Or.inl rfl

theorem lawful : reader.Lawful Ready where
  start := Or.inl rfl
  step := by
    intro p s c here
    cases p with
    | plain =>
      rcases here with rfl | ⟨acc, rfl⟩
      · exact ready_stepPlain c
      · by_cases h : Text.isNameChar c = true
        · rw [Place.next_of_isNameChar rfl h]
          exact Or.inr ⟨c :: acc, by simp [reader, scanner, h]⟩
        · have step : (scanner.step (.name acc) c).2 = (stepPlain c).2 := by simp [scanner, h]
          exact step ▸ ready_stepPlain c
    | colon =>
      rw [Place.next_of_isOpen rfl]
      rcases here with rfl | rfl
      · exact ready_stepPlain c
      · by_cases colon : c = ':'
        · subst colon
          exact Or.inl rfl
        · by_cases h : Text.isNameStart c = true
          · rw [Place.next_of_isNameChar rfl (Text.isNameChar_of_isNameStart h)]
            exact Or.inr ⟨[c], by simp [reader, scanner, colon, h]⟩
          · have step : (scanner.step .colon c).2 = (stepPlain c).2 := by simp [scanner, colon, h]
            exact step ▸ ready_stepPlain c
    | quoted q =>
      obtain rfl : s = .quoted q := here
      by_cases h : c = q
      · simp [Place.next, reader, scanner, h, Ready]
      · simp [Place.next, reader, scanner, h, Ready]
  back naming t := by
    cases t with
    | char c => rfl
    | parameter cs =>
      exact congrArg Token.parameter
        ((congrArg String.toList (naming.written _)).trans String.toList_ofList)
  written t i := by cases t <;> simp [reader]
  placeholder := by
    intro s f naming i rest here ends
    obtain ⟨d, ds, chars, digits⟩ := naming.drawn i
    have names : ∀ c ∈ 'p' :: d :: ds, Text.isNameChar c = true := by
      intro c hc
      rcases List.mem_cons.mp hc with rfl | digit
      · decide
      · simp [Text.isNameChar, digits c digit]
    have colon : scanner.step s ':' = (scanner.finish s, .colon) := by
      rcases here with rfl | ⟨acc, rfl⟩ <;> rfl
    have first : scanner.step .colon 'q' = ([], .name ['q']) := rfl
    change scanner.run s _ = scanner.finish s ++
      .parameter (f (.drawn i)).toList :: scanner.run .plain rest
    rw [chars, List.cons_append, Text.Scanner.run_cons, colon, List.cons_append,
      Text.Scanner.run_cons, first, run_name names ['q'] ends]
    rfl

end Binding

namespace CountKey

def reader : Reader State Token where
  scanner := scanner
  start := .plain
  read
    | .char c => .char c
    | .drawn cs => .name (.written (String.ofList cs))
  write f
    | .char c => .char c
    | .name a => .drawn (f a).toList

theorem run_digits {cs : List Char} (digits : ∀ c ∈ cs, Text.isDecimalDigit c = true)
    (acc : List Char) {rest : List Char} (ends : Reader.EndsName rest) :
    scanner.run (.digits acc) (cs ++ rest) = .drawn (acc.reverse ++ cs) ::
      scanner.run .plain rest := by
  induction cs generalizing acc with
  | nil =>
    cases rest with
    | nil => simp [Text.Scanner.run_nil, scanner]
    | cons c rest =>
      have word : Text.isWordChar c = false := ends
      have digit : Text.isDecimalDigit c = false := by
        by_contra h
        have word' := Text.isWordChar_of_isDecimalDigit (Bool.not_eq_false _ ▸ h)
        rw [word] at word'
        cases word'
      rw [List.nil_append, Text.Scanner.run_cons, Text.Scanner.run_cons]
      simp [scanner, word, digit]
  | cons c cs ih =>
    have here := digits c List.mem_cons_self
    have later := ih (fun d hd => digits d (List.mem_cons_of_mem _ hd)) (c :: acc)
    have step : scanner.step (.digits acc) c = ([], .digits (c :: acc)) := by simp [scanner, here]
    rw [List.cons_append, Text.Scanner.run_cons, step, later]
    simp

theorem step_colon (s : State) : scanner.step s ':' = (scanner.finish s, .held []) := by
  cases s with
  | plain => rfl
  | digits acc => 
    have digit : Text.isDecimalDigit ':' = false := by decide
    have word : Text.isWordChar ':' = false := by decide
    simp [scanner, digit, word, stepPlain]
  | held acc =>
    have digit : Text.isDecimalDigit ':' = false := by decide
    simp only [scanner]
    split
    · simp_all
    · simp_all
    · simp [digit, stepPlain]
    · simp [stepPlain]

theorem lawful : reader.Lawful fun _ _ => True where
  start := trivial
  step _ _ := trivial
  back naming t := by
    cases t with
    | char c => rfl
    | drawn cs =>
      exact congrArg Token.drawn
        ((congrArg String.toList (naming.written _)).trans String.toList_ofList)
  written t i := by cases t <;> simp [reader]
  placeholder := by
    intro s f naming i rest _ ends
    obtain ⟨c, cs, chars, digits⟩ := naming.drawn i
    have digit := Text.isDecimalDigit_of_isDigit (digits c List.mem_cons_self)
    have others : ∀ d ∈ cs, Text.isDecimalDigit d = true := fun d hd =>
      Text.isDecimalDigit_of_isDigit (digits d (List.mem_cons_of_mem _ hd))
    have third : scanner.step (.held ['p', 'q']) c = ([], .digits [c, 'p', 'q']) := by
      simp [scanner, digit]
    have q : scanner.step (.held []) 'q' = ([], .held ['q']) := rfl
    have p : scanner.step (.held ['q']) 'p' = ([], .held ['p', 'q']) := rfl
    change scanner.run s _ = scanner.finish s ++
      .drawn (f (.drawn i)).toList :: scanner.run .plain rest
    rw [chars, List.cons_append, Text.Scanner.run_cons, step_colon,
      List.cons_append, Text.Scanner.run_cons, q, List.cons_append, Text.Scanner.run_cons, p,
      List.cons_append, Text.Scanner.run_cons, third, run_digits others _ ends]
    rfl

end CountKey

namespace Outline

variable {o : Outline}

theorem countTokens_fill (parted : o.text.Parted .plain) (number : Nat → Nat) :
    CountKey.tokens (o.fill number).sql =
      (CountKey.reader.reads .plain o.text).map (CountKey.reader.write (Name.text number)) := by
  rw [CountKey.tokens, fill, String.toList_ofList]
  exact Reader.run_fill CountKey.lawful number CountKey.lawful.start parted

theorem bindingTokens_fill (neat : o.text.Neat) (number : Nat → Nat) :
    Binding.tokens (o.fill number).sql =
      (Binding.reader.reads .plain o.text).map (Binding.reader.write (Name.text number)) := by
  rw [Binding.tokens, fill, String.toList_ofList]
  exact Reader.run_fill Binding.lawful number Binding.lawful.start neat.apart.parted

end Outline

end Reports.Sql
