import Reports.Proofs.Sql.Reader

/-! Texts whose colons all open names: outside quotes a colon stands only before a name out of a
given stock, and what such a name runs into is neither a reference nor the end of a quoted part. -/
namespace Reports.Sql

open Marked (ofText ofChars StartsApart Apart after)

def isQuiet (c : Char) : Bool := c != ':' && !TableRef.isQuote c

/-- What prefixes of tables are made of. -/
def Quiet (s : String) : Prop := s.toList.all isQuiet = true

instance (s : String) : Decidable (Quiet s) := inferInstanceAs (Decidable (_ = _))

section

variable (B : String → Prop)

def Settled : Binding.State → Prop
  | .plain => True
  | .name acc => B (String.ofList acc.reverse)
  | _ => False

/-- A character may follow: after a colon the start of a name, after a name no brace. -/
def MayFollow : Binding.State → Char → Prop
  | .colon, c => Text.isNameStart c = true
  | .name acc, c => Text.isNameChar c = true ∨ (B (String.ofList acc.reverse) ∧ c ≠ '\x7b')
  | _, _ => True

/-- Every name is out of the stock, and holes stand apart. -/
def SpelledFrom (s : Binding.State) : Marked → Prop
  | [] => Settled B s
  | .char c :: rest => MayFollow B s c ∧ SpelledFrom (Binding.scanner.step s c).2 rest
  | .hole _ :: rest => Settled B s ∧ StartsApart rest ∧ SpelledFrom .plain rest

def Spelled (a : Marked) : Prop := SpelledFrom B .plain a

end

theorem Place.of_next_eq_colon {p : Place} {c : Char} (h : p.next c = .colon) :
    p.isOpen = true ∧ c = ':' := by
  by_cases isOpen : p.isOpen = true
  · rw [Place.next_of_isOpen isOpen] at h
    simp only [Place.next] at h
    split at h
    · next colon => exact ⟨isOpen, colon⟩
    · split at h <;> cases h
  · cases p with
    | plain => exact absurd rfl isOpen
    | colon => exact absurd rfl isOpen
    | quoted q =>
      simp only [Place.next] at h
      split at h <;> cases h

namespace SpelledFrom

variable {B : String → Prop}

theorem stepPlain_quiet {c : Char} (quiet : isQuiet c = true) :
    (Binding.stepPlain c).2 = .plain := by
  simp only [isQuiet, TableRef.isQuote, Bool.and_eq_true, bne_iff_ne, Bool.not_eq_true',
    Bool.or_eq_false_iff, beq_eq_false_iff_ne] at quiet
  simp [Binding.stepPlain, quiet]

theorem quiet_append {cs : List Char} (quiet : cs.all isQuiet = true) {a : Marked}
    (ha : SpelledFrom B .plain a) : SpelledFrom B .plain (ofChars cs ++ a) := by
  induction cs with
  | nil => exact ha
  | cons c rest ih =>
    rw [List.all_cons, Bool.and_eq_true] at quiet
    have stays : (Binding.scanner.step .plain c).2 = .plain := stepPlain_quiet quiet.1
    exact ⟨trivial, by rw [stays]; exact ih quiet.2⟩

theorem isQuiet_of_isHarmless {c : Char} (h : isHarmless c = true) : isQuiet c = true := by
  rw [isHarmless, Bool.and_eq_true] at h
  exact h.1

theorem stops_of_isApart {c : Char} (apart : isApart c = true) :
    Text.isNameChar c = false ∧ c ≠ '\x7b' := by
  rw [isApart, Bool.and_eq_true, Bool.not_eq_true', bne_iff_ne] at apart
  refine ⟨?_, apart.2⟩
  by_contra h
  have word := Text.isWordChar_of_isNameChar (Bool.not_eq_false _ ▸ h)
  rw [apart.1] at word
  cases word

theorem step_name {acc : List Char} {c : Char} (stops : Text.isNameChar c = false) :
    (Binding.scanner.step (.name acc) c).2 = (Binding.stepPlain c).2 := by
  simp [Binding.scanner, stops]

theorem append {s : Binding.State} {a b : Marked} (ha : SpelledFrom B s a)
    (hb : SpelledFrom B .plain b) (starts : StartsApart b) : SpelledFrom B s (a ++ b) := by
  induction a generalizing s with
  | nil =>
    cases b with
    | nil => exact ha
    | cons x rest =>
      cases x with
      | hole i => exact absurd starts id
      | char c =>
        cases s with
        | plain => exact hb
        | colon => exact absurd ha id
        | quoted q => exact absurd ha id
        | name acc =>
          obtain ⟨stops, brace⟩ := stops_of_isApart starts
          refine ⟨Or.inr ⟨ha, brace⟩, ?_⟩
          rw [step_name stops]
          exact hb.2
  | cons x rest ih =>
    cases x with
    | char c => exact ⟨ha.1, ih ha.2⟩
    | hole i => exact ⟨ha.1, Marked.startsApart_append ha.2.1 starts, ih ha.2.2⟩

theorem mem_names_of_settled {s : Binding.State} (settled : Settled B s) {name : String}
    (mem : .name (.written name) ∈ (Binding.scanner.finish s).map Binding.reader.read) :
    B name := by
  cases s with
  | plain => cases mem
  | colon => exact absurd settled id
  | quoted q => exact absurd settled id
  | name acc =>
    obtain ⟨t, ht, same⟩ := List.mem_map.mp mem
    obtain rfl := List.mem_singleton.mp ht
    cases same
    exact settled

theorem parameter_notMem_stepPlain (cs : List Char) (c : Char) :
    Binding.Token.parameter cs ∉ (Binding.stepPlain c).1 := by
  unfold Binding.stepPlain
  split
  · simp
  · split <;> simp

theorem parameter_mem_step {s : Binding.State} {c : Char} {cs : List Char}
    (mem : .parameter cs ∈ (Binding.scanner.step s c).1) :
    s = .name cs.reverse ∧ Text.isNameChar c = false := by
  have never := parameter_notMem_stepPlain cs c
  cases s with
  | plain => exact absurd mem never
  | quoted q => simp [Binding.scanner] at mem
  | colon =>
    simp only [Binding.scanner] at mem
    split at mem
    · simp at mem
    · split at mem
      · simp at mem
      · simp [never] at mem
  | name acc =>
    by_cases goesOn : Text.isNameChar c = true
    · simp [Binding.scanner, goesOn] at mem
    · simp [Binding.scanner, goesOn, never] at mem
      exact ⟨by rw [mem, List.reverse_reverse], by simpa using goesOn⟩

theorem mem_names {s : Binding.State} {a : Marked} (spelled : SpelledFrom B s a) {name : String}
    (mem : .name (.written name) ∈ Binding.reader.reads s a) : B name := by
  induction a generalizing s with
  | nil => exact mem_names_of_settled spelled mem
  | cons x rest ih =>
    cases x with
    | hole i =>
      rcases List.mem_append.mp mem with before | found
      · exact mem_names_of_settled spelled.1 before
      · rcases List.mem_cons.mp found with here | later
        · cases here
        · exact ih spelled.2.2 later
    | char c =>
      rcases List.mem_append.mp mem with here | later
      · obtain ⟨t, ht, same⟩ := List.mem_map.mp here
        cases t with
        | char d => cases same
        | parameter cs =>
          cases same
          obtain ⟨rfl, ends⟩ := parameter_mem_step ht
          rcases spelled.1 with goesOn | ⟨known, -⟩
          · rw [ends] at goesOn
            cases goesOn
          · rwa [List.reverse_reverse] at known
      · exact ih spelled.2 later

/-- A place and a state that go together: right behind a colon both wait for a name. -/
def Beside (p : Place) (s : Binding.State) : Prop :=
  Binding.Ready p s ∧ (p = .colon → s = .colon)

theorem beside_step {p : Place} {s : Binding.State} {c : Char} (beside : Beside p s)
    (may : MayFollow B s c) : Beside (p.next c) (Binding.scanner.step s c).2 := by
  refine ⟨Binding.lawful.step c beside.1, fun behind => ?_⟩
  obtain ⟨isOpen, rfl⟩ := Place.of_next_eq_colon behind
  cases s with
  | plain => rfl
  | name acc => rfl
  | colon =>
    have start : Text.isNameStart ':' = true := may
    exact absurd start (by decide)
  | quoted q =>
    cases p with
    | plain => exact absurd beside.1 (by simp [Binding.Ready])
    | colon => exact absurd beside.1 (by simp [Binding.Ready])
    | quoted r => cases isOpen

theorem eq_plain_of_settled {p : Place} {s : Binding.State} (beside : Beside p s)
    (settled : Settled B s) : p = .plain := by
  cases p with
  | plain => rfl
  | colon =>
    rw [beside.2 rfl] at settled
    exact absurd settled id
  | quoted q =>
    obtain rfl : s = .quoted q := beside.1
    exact absurd settled id

theorem neat {s : Binding.State} {p : Place} (beside : Beside p s) {a : Marked}
    (spelled : SpelledFrom B s a) : Apart p a ∧ (after p a).isOpen = true := by
  induction a generalizing s p with
  | nil =>
    rw [eq_plain_of_settled beside spelled]
    exact ⟨trivial, rfl⟩
  | cons x rest ih =>
    cases x with
    | char c => exact ih (beside_step beside spelled.1) spelled.2
    | hole i =>
      obtain rfl := eq_plain_of_settled beside spelled.1
      obtain ⟨apart, closed⟩ :=
        ih (s := .plain) (p := .plain) ⟨Or.inl rfl, fun h => nomatch h⟩
        spelled.2.2
      exact ⟨⟨rfl, spelled.2.1, apart⟩, closed⟩

open TableRef (expandMarked afterHole held)

def Outside : Binding.State → Prop
  | .quoted _ => False
  | _ => True

/-- How the states before and after expanding go together: no name runs into a reference. -/
def Along : TableRef.State → Binding.State → Binding.State → Prop
  | .plain, s, s' => s = s' ∧ Outside s
  | .quoted q, s, s' => s = .quoted q ∧ s' = .quoted q
  | .braced name, s, s' => s = .plain ∧ s' = .plain ∧ ∀ c ∈ name, Text.isNameChar c = true

theorem isQuiet_of_isNameChar {c : Char} (h : Text.isNameChar c = true) : isQuiet c = true := by
  have colon : c ≠ ':' := by
    rintro rfl
    exact absurd h (by decide)
  simp [isQuiet, colon, TableRef.isQuote_of_isNameChar h]

theorem quiet_held {name : List Char} (names : ∀ c ∈ name, Text.isNameChar c = true) :
    (held name).all isQuiet = true := by
  rw [held, List.all_cons, Bool.and_eq_true]
  refine ⟨by decide, List.all_eq_true.mpr fun c hc => ?_⟩
  exact isQuiet_of_isNameChar (names c (List.mem_reverse.mp hc))

def QuietTables (table : String → String) : Prop :=
  ∀ name, (∀ c ∈ name, Text.isNameChar c = true) → Quiet (table (String.ofList name))

theorem step_quote {s : Binding.State} {c : Char} (outside : Outside s) (may : MayFollow B s c)
    (quote : TableRef.isQuote c = true) : (Binding.scanner.step s c).2 = .quoted c := by
  have either : c = '\x27' ∨ c = '\x22' := by simpa [TableRef.isQuote] using quote
  rcases either with rfl | rfl <;>
    cases s with
    | plain => rfl
    | name acc => rfl
    | quoted q => exact absurd outside id
    | colon => exact absurd may (by simp [MayFollow, Text.isNameStart, Text.isLetter])

theorem outside_step {s : Binding.State} {c : Char} (outside : Outside s)
    (quote : TableRef.isQuote c = false) : Outside (Binding.scanner.step s c).2 := by
  have plain : Outside (Binding.stepPlain c).2 := by
    have neither : ¬(c = '\x27' ∨ c = '\x22') := by simpa [TableRef.isQuote] using quote
    unfold Binding.stepPlain
    split
    · trivial
    · trivial
  cases s with
  | plain => exact plain
  | quoted q => exact absurd outside id
  | colon =>
    simp only [Binding.scanner]
    split
    · trivial
    · split
      · trivial
      · exact plain
  | name acc =>
    simp only [Binding.scanner]
    split
    · trivial
    · exact plain

theorem expand_stepPlain {table : String → String} {rest : Marked}
    (ih : ∀ {t s s'}, Along t s s' → SpelledFrom B s rest →
      SpelledFrom B s' (expandMarked table t rest))
    {s : Binding.State} {c : Char} (outside : Outside s) (may : MayFollow B s c)
    (later : SpelledFrom B (Binding.scanner.step s c).2 rest) :
    SpelledFrom B s (ofChars (TableRef.stepPlain c).1 ++
      expandMarked table (TableRef.stepPlain c).2 rest) := by
  by_cases brace : c = '\x7b'
  · subst brace
    have plain : s = .plain := by
      cases s with
      | plain => rfl
      | quoted q => exact absurd outside id
      | colon => exact absurd may (by simp [MayFollow, Text.isNameStart, Text.isLetter])
      | name acc =>
        rcases may with name | ⟨-, other⟩
        · exact absurd name (by decide)
        · exact absurd rfl other
    subst plain
    exact ih (t := .braced []) ⟨rfl, rfl, fun c hc => absurd hc List.not_mem_nil⟩ later
  · by_cases quote : TableRef.isQuote c = true
    · have step : TableRef.stepPlain c = ([c], .quoted c) := by
        simp [TableRef.stepPlain, brace, quote]
      have opened := step_quote outside may quote
      rw [step]
      exact ⟨may, ih (t := .quoted c) ⟨opened, opened⟩ later⟩
    · have step : TableRef.stepPlain c = ([c], .plain) := by
        simp [TableRef.stepPlain, brace, quote]
      have stays := outside_step outside (by simpa using quote)
      rw [step]
      exact ⟨may, ih (t := .plain) ⟨rfl, stays⟩ later⟩

theorem expand {table : String → String} (quiet : QuietTables table) {a : Marked}
    {t : TableRef.State} {s s' : Binding.State} (along : Along t s s')
    (spelled : SpelledFrom B s a) : SpelledFrom B s' (expandMarked table t a) := by
  induction a generalizing t s s' with
  | nil =>
    cases t with
    | plain => exact along.1 ▸ spelled
    | quoted q =>
      rw [along.1] at spelled
      exact absurd spelled id
    | braced name =>
      obtain ⟨rfl, rfl, names⟩ := along
      have released := quiet_append (a := []) (quiet_held names) spelled
      rwa [List.append_nil] at released
  | cons x rest ih =>
    cases x with
    | hole i =>
      obtain ⟨settled, starts, later⟩ := spelled
      have inside : SpelledFrom B .plain (expandMarked table .plain rest) :=
        ih (t := .plain) ⟨rfl, trivial⟩ later
      have apart := @Marked.startsApart_expandMarked table _ starts
      cases t with
      | plain => exact ⟨along.1 ▸ settled, apart, inside⟩
      | quoted q =>
        rw [along.1] at settled
        exact absurd settled id
      | braced name =>
        obtain ⟨rfl, rfl, names⟩ := along
        exact quiet_append (quiet_held names) ⟨trivial, apart, inside⟩
    | char c =>
      obtain ⟨may, later⟩ := spelled
      cases t with
      | plain =>
        obtain ⟨rfl, outside⟩ := along
        exact expand_stepPlain ih outside may later
      | quoted q =>
        obtain ⟨rfl, rfl⟩ := along
        refine ⟨trivial, ih ?_ later⟩
        by_cases h : c = q <;> simp [TableRef.scanner, Binding.scanner, h, Along, Outside]
      | braced name =>
        obtain ⟨rfl, rfl, names⟩ := along
        by_cases closes : c = '\x7d' ∧ name ≠ []
        · rw [TableRef.expandMarked, TableRef.step_closes table closes]
          obtain ⟨rfl, -⟩ := closes
          have text := quiet name.reverse fun d hd => names d (List.mem_reverse.mp hd)
          exact quiet_append text (ih (t := .plain) ⟨rfl, trivial⟩ later)
        · by_cases goesOn : TableRef.continues name c = true
          · have here := TableRef.isNameChar_of_continues goesOn
            have stays : (Binding.scanner.step .plain c).2 = .plain :=
              stepPlain_quiet (isQuiet_of_isNameChar here)
            have longer : ∀ d ∈ c :: name, Text.isNameChar d = true := fun d hd =>
              (List.mem_cons.mp hd).elim (fun same => same ▸ here) (names d)
            rw [TableRef.expandMarked, TableRef.step_continues table goesOn]
            exact ih (t := .braced (c :: name)) ⟨stays, rfl, longer⟩ later
          · rw [TableRef.expandMarked,
              TableRef.step_stops table closes (Bool.eq_false_iff.mpr goesOn),
              Marked.ofChars_append, List.append_assoc]
            exact quiet_append (quiet_held names) (expand_stepPlain ih trivial trivial later)

end SpelledFrom

theorem quiet_tableRef {c : Clauses} (quiet : Quiet c.tablePrefix) :
    SpelledFrom.QuietTables c.tableRef := by
  intro name names
  have quietName : Quiet (String.ofList name) := by
    rw [Quiet, String.toList_ofList]
    exact List.all_eq_true.mpr fun d hd => SpelledFrom.isQuiet_of_isNameChar (names d hd)
  unfold Clauses.tableRef
  split
  · exact quietName
  · rw [Quiet, String.toList_append, List.all_append, Bool.and_eq_true]
    exact ⟨quiet, quietName⟩

theorem weaves_spelled (B : String → Prop) : Weaves (Spelled B) Quiet where
  nil := trivial
  hole _ := ⟨trivial, trivial, trivial⟩
  lead harmless ha := by
    refine SpelledFrom.quiet_append (List.all_eq_true.mpr fun c hc => ?_) ha
    exact SpelledFrom.isQuiet_of_isHarmless (List.all_eq_true.mp harmless c hc)
  append ha hb starts := ha.append hb starts
  escape := by
    have quoted : SpelledFrom B .plain (ofChars ['\x27', '\\', '\x27']) :=
      ⟨trivial, trivial, trivial, trivial⟩
    have quiet : " ESCAPE ".toList.all isQuiet = true := by decide
    exact SpelledFrom.quiet_append quiet quoted
  expand quiet ha := SpelledFrom.expand (quiet_tableRef quiet) (t := .plain) ⟨rfl, trivial⟩ ha

theorem Spelled.neat {B : String → Prop} {a : Marked} (spelled : Spelled B a) : a.Neat := by
  obtain ⟨apart, closed⟩ :=
    SpelledFrom.neat (p := .plain) ⟨Or.inl rfl, fun h => (nomatch h)⟩ spelled
  exact ⟨apart, closed⟩

end Reports.Sql
