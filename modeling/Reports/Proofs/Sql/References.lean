import Reports.Proofs.Sql.Grammar

/-! References to tables: names in braces, found from left to right in what stands outside of quoted
stretches. Expansion puts a table for each and copies the rest. -/
namespace Reports.Text

theorem isName_iff {name : List Char} : isName name = true ↔
    (∃ c rest, name = c :: rest ∧ isNameStart c = true) ∧
    ∀ c ∈ name, isNameChar c = true := by
  cases name with
  | nil => simp [isName]
  | cons c rest =>
    rw [isName, Bool.and_eq_true, List.all_eq_true, List.forall_mem_cons]
    constructor
    · rintro ⟨start, all⟩
      exact ⟨⟨c, rest, rfl, start⟩, isNameChar_of_isNameStart start, all⟩
    · rintro ⟨⟨d, later, same, start⟩, -, all⟩
      cases same
      exact ⟨start, all⟩

end Reports.Text

namespace Reports.Sql

open Reports.Text (Scanner)

namespace TableRef

/-- The name of the reference that a text begins with, and what follows it. -/
def reference? : List Char → Option (List Char × List Char)
  | [] => none
  | c :: rest =>
    match rest.dropWhile Text.isNameChar with
    | [] => none
    | d :: after =>
      if c = '\x7b' ∧ d = '\x7d' ∧ Text.isName (rest.takeWhile Text.isNameChar) = true then
        some (rest.takeWhile Text.isNameChar, after)
      else none

theorem reference?_eq_some_iff {cs name after : List Char} : reference? cs = some (name, after) ↔
    Text.isName name = true ∧ cs = '\x7b' :: name ++ '\x7d' :: after := by
  constructor
  · intro found
    cases cs with
    | nil => cases found
    | cons c rest =>
      have whole := List.takeWhile_append_dropWhile (p := Text.isNameChar) (l := rest)
      rw [reference?] at found
      split at found
      · cases found
      · next d later dropped =>
        split at found
        · next shape =>
          obtain ⟨rfl, rfl, named⟩ := shape
          cases found
          rw [dropped] at whole
          exact ⟨named, by rw [List.cons_append, whole]⟩
        · cases found
  · rintro ⟨named, rfl⟩
    have inert := (Text.isName_iff.mp named).2
    have close : ¬Text.isNameChar '\x7d' = true := by decide
    have dropped : (name ++ '\x7d' :: after).dropWhile Text.isNameChar = '\x7d' :: after := by
      rw [List.dropWhile_append_of_pos inert, List.dropWhile_cons_of_neg close]
    have taken : (name ++ '\x7d' :: after).takeWhile Text.isNameChar = name := by
      rw [List.takeWhile_append_of_pos inert, List.takeWhile_cons_of_neg close, List.append_nil]
    rw [List.cons_append, reference?]
    simp [dropped, taken, named]

inductive Item
  | char (c : Char)
  | reference (name : List Char)
  deriving DecidableEq

namespace Item

def text : Item → List Char
  | char c => [c]
  | reference name => '\x7b' :: name ++ ['\x7d']

def expanded (table : String → String) : Item → List Char
  | char c => [c]
  | reference name => (table (String.ofList name)).toList

def name? : Item → Option String
  | char _ => none
  | reference name => some (String.ofList name)

end Item

/-- The references of a text from left to right, and the characters between them. -/
def items : List Char → List Item
  | [] => []
  | c :: rest =>
    match _found : reference? (c :: rest) with
    | some (name, after) => .reference name :: items after
    | none => .char c :: items rest
termination_by cs => cs.length
decreasing_by
  · obtain ⟨-, whole⟩ := reference?_eq_some_iff.mp _found
    rw [whole]
    simp only [List.cons_append, List.length_cons, List.length_append]
    omega
  · exact Nat.lt_succ_self _

theorem items_char {c : Char} {rest : List Char} (none : reference? (c :: rest) = none) :
    items (c :: rest) = .char c :: items rest := by
  rw [items]
  split
  · next found => cases none.symm.trans found
  · rfl

theorem items_reference {name : List Char} (named : Text.isName name = true) (after : List Char) :
    items ('\x7b' :: name ++ '\x7d' :: after) = .reference name :: items after := by
  have found := reference?_eq_some_iff.mpr ⟨named, Eq.refl ('\x7b' :: name ++ '\x7d' :: after)⟩
  rw [List.cons_append] at found ⊢
  rw [items]
  split
  · next other =>
    cases found.symm.trans other
    rfl
  · next other => cases found.symm.trans other

theorem reference?_of_ne {c : Char} (other : c ≠ '\x7b') (rest : List Char) :
    reference? (c :: rest) = none := by
  cases found : reference? (c :: rest) with
  | none => rfl
  | some r =>
    obtain ⟨-, whole⟩ := reference?_eq_some_iff.mp found
    exact absurd (List.cons.inj whole).1 other

theorem items_append_of_ne {cs : List Char} (others : ∀ c ∈ cs, c ≠ '\x7b')
    (rest : List Char) :
    items (cs ++ rest) = cs.map .char ++ items rest := by
  induction cs with
  | nil => rfl
  | cons c later ih =>
    rw [List.cons_append, items_char (reference?_of_ne (others c List.mem_cons_self) _),
      ih fun d mem => others d (List.mem_cons_of_mem _ mem)]
    rfl

theorem flatMap_text_items (cs : List Char) : (items cs).flatMap Item.text = cs := by
  fun_induction items cs with
  | case1 => rfl
  | case2 c rest name after found ih =>
    obtain ⟨-, whole⟩ := reference?_eq_some_iff.mp found
    rw [whole, List.flatMap_cons, ih]
    simp [Item.text]
  | case3 c rest found ih => rw [List.flatMap_cons, ih]; rfl

theorem flatMap_expanded_chars (table : String → String) (cs : List Char) :
    (cs.map .char).flatMap (Item.expanded table) = cs := by
  induction cs with
  | nil => rfl
  | cons c rest ih => rw [List.map_cons, List.flatMap_cons, ih]; rfl

theorem isName_of_mem_items {cs name : List Char} (mem : .reference name ∈ items cs) :
    Text.isName name = true := by
  fun_induction items cs with
  | case1 => cases mem
  | case2 c rest found after named ih =>
    rcases List.mem_cons.mp mem with same | mem
    · cases same
      exact (reference?_eq_some_iff.mp named).1
    · exact ih mem
  | case3 c rest found ih =>
    rcases List.mem_cons.mp mem with same | mem
    · cases same
    · exact ih mem

def ahead : State → List Char
  | .braced name => held name
  | _ => []

/-- A state outside of quotes: what stands behind a brace began a name. -/
def Started : State → Prop
  | .plain => True
  | .braced name => name = [] ∨ Text.isName name.reverse = true
  | .quoted _ => False

theorem isName_reverse_cons {name : List Char} {c : Char}
    (started : name = [] ∨ Text.isName name.reverse = true) (goesOn : continues name c = true) :
    Text.isName (c :: name).reverse = true := by
  rw [List.reverse_cons]
  rcases started with rfl | named
  · simpa [Text.isName, continues] using goesOn
  · obtain ⟨⟨d, rest, same, start⟩, all⟩ := Text.isName_iff.mp named
    refine Text.isName_iff.mpr ⟨⟨d, rest ++ [c], by rw [same, List.cons_append], start⟩, ?_⟩
    intro e mem
    rcases List.mem_append.mp mem with mem | mem
    · exact all e mem
    · rw [List.mem_singleton.mp mem]
      exact isNameChar_of_continues goesOn

theorem isNameChar_of_started {name : List Char}
    (started : name = [] ∨ Text.isName name.reverse = true) :
    ∀ c ∈ name.reverse, Text.isNameChar c = true := by
  rcases started with rfl | named
  · exact fun c mem => nomatch mem
  · exact (Text.isName_iff.mp named).2

theorem reference?_held {name rest : List Char}
    (started : name = [] ∨ Text.isName name.reverse = true)
    (stops : ∀ c later, rest = c :: later →
      continues name c = false ∧ (c = '\x7d' → name = [])) :
    reference? (held name ++ rest) = none := by
  cases found : reference? (held name ++ rest) with
  | none => rfl
  | some r =>
    obtain ⟨other, after⟩ := r
    obtain ⟨named, whole⟩ := reference?_eq_some_iff.mp found
    obtain ⟨⟨d, ds, rfl, start⟩, all⟩ := Text.isName_iff.mp named
    rw [held, List.cons_append, List.cons_append, List.cons.injEq] at whole
    obtain ⟨-, whole⟩ := whole
    exfalso
    rcases started with rfl | begun
    · rw [List.reverse_nil, List.nil_append, List.cons_append] at whole
      obtain ⟨no, -⟩ := stops d _ whole
      simp [continues, start] at no
    · have inert := (Text.isName_iff.mp begun).2
      have some : name ≠ [] := by
        rintro rfl
        cases begun
      cases rest with
      | nil =>
        have mem : '\x7d' ∈ name.reverse ++ [] := by simp [whole]
        rw [List.append_nil] at mem
        exact absurd (inert _ mem) (by decide)
      | cons c later =>
        obtain ⟨no, close⟩ := stops c later rfl
        have noName : ¬Text.isNameChar c = true := by simpa [continues, some] using no
        have rests := congrArg (List.dropWhile Text.isNameChar) whole
        rw [List.dropWhile_append_of_pos inert, List.dropWhile_append_of_pos all,
          List.dropWhile_cons_of_neg noName, List.dropWhile_cons_of_neg (by decide)] at rests
        exact some (close (List.cons.inj rests).1)

theorem items_held {name rest : List Char}
    (started : name = [] ∨ Text.isName name.reverse = true)
    (stops : ∀ c later, rest = c :: later →
      continues name c = false ∧ (c = '\x7d' → name = [])) :
    items (held name ++ rest) = (held name).map .char ++ items rest := by
  have none := reference?_held started stops
  have others : ∀ c ∈ name.reverse, c ≠ '\x7b' := by
    rintro c mem rfl
    exact absurd (isNameChar_of_started started _ mem) (by decide)
  rw [held, List.cons_append] at none ⊢
  rw [items_char none, items_append_of_ne others]
  rfl

variable (table : String → String)

/-- Outside of quotes the scanner finds the references that the text holds. -/
theorem run_items {s : State} (started : Started s) {cs : List Char} (none : Unquoted cs) :
    (scanner table).run s cs = (items (ahead s ++ cs)).flatMap (Item.expanded table) := by
  induction cs generalizing s with
  | nil =>
    cases s with
    | plain => simp [Scanner.run_nil, scanner, ahead, items]
    | quoted q => cases started
    | braced name =>
      rw [ahead, items_held started fun c later same => absurd same (by simp), List.flatMap_append,
        flatMap_expanded_chars]
      simp [Scanner.run_nil, scanner, items]
  | cons c rest ih =>
    obtain ⟨here, later⟩ := List.forall_mem_cons.mp none
    have onward : (stepPlain c).1 ++ (scanner table).run (stepPlain c).2 rest =
        (items (c :: rest)).flatMap (Item.expanded table) := by
      by_cases brace : c = '\x7b'
      · subst brace
        exact ih (s := .braced []) (.inl rfl) later
      · have step : stepPlain c = ([c], .plain) := by
          rw [stepPlain_of_ne brace, here, if_neg Bool.false_ne_true]
        have copied := items_char (reference?_of_ne brace rest)
        have next := ih (s := .plain) trivial later
        rw [step, copied, List.flatMap_cons, next]
        rfl
    rw [Scanner.run_cons]
    cases s with
    | plain => exact onward
    | quoted q => cases started
    | braced name =>
      have close : Text.isNameStart '\x7d' = false ∧ Text.isNameChar '\x7d' = false := by decide
      by_cases ends : c = '\x7d' ∧ name ≠ []
      · obtain ⟨rfl, some⟩ := ends
        have named := started.resolve_left some
        have next := ih (s := .plain) trivial later
        rw [step_closes table ⟨rfl, some⟩, ahead, held, items_reference named,
          List.flatMap_cons, next]
        rfl
      · by_cases goesOn : continues name c = true
        · have next :=
            ih (s := .braced (c :: name)) (.inr (isName_reverse_cons started goesOn)) later
          rw [step_continues table goesOn, next]
          simp [ahead, held]
        · rw [Bool.not_eq_true] at goesOn
          have stops : ∀ d more, c :: rest = d :: more →
              continues name d = false ∧ (d = '\x7d' → name = []) := by
            rintro d more same
            cases same
            exact ⟨goesOn, fun h => by_contra fun some => ends ⟨h, some⟩⟩
          rw [step_stops table ends goesOn, ahead, items_held started stops, List.flatMap_append,
            flatMap_expanded_chars, List.append_assoc, onward]

theorem unquoted_expanded {cs : List Char} (none : Unquoted cs)
    (tables : ∀ name, Text.isName name = true → Unquoted (table (String.ofList name)).toList) :
    Unquoted ((items cs).flatMap (Item.expanded table)) := by
  intro c mem
  obtain ⟨item, hi, hc⟩ := List.mem_flatMap.mp mem
  cases item with
  | reference name => exact tables name (isName_of_mem_items hi) c hc
  | char d =>
    obtain rfl := List.mem_singleton.mp hc
    refine none c ?_
    rw [← flatMap_text_items cs]
    exact List.mem_flatMap.mpr ⟨.char c, hi, List.mem_singleton_self c⟩

end TableRef

namespace Stretch

/-- The references of a stretch; in quotes there are none. -/
def items : Stretch → List TableRef.Item
  | plain t => TableRef.items t
  | quoted t => t.map .char

def lexemes : Stretch → List Lexeme
  | plain t => Sql.lexemes t
  | quoted t => [.quoted t]

end Stretch

theorem lexemes_cut {p : List Char} (none : Unquoted p) {q : Char}
    (quote : TableRef.isQuote q = true) (rest : List Char) : lexemes (p ++ q :: rest) =
      lexemes p ++ .quoted (q :: Quoted.inside q rest) :: lexemes (Quoted.behind q rest) := by
  obtain ⟨noColon, -, -, noStart, noName⟩ := TableRef.other_of_isQuote quote
  have opened := lexemes_quote quote rest
  have colon : TableRef.isQuote ':' = false := by decide
  fun_induction lexemes p with
  | case1 => exact opened
  | case2 c later opens ih => exact absurd (none c List.mem_cons_self) (by simp [opens])
  | case3 => rw [List.singleton_append, lexemes]; simp [colon, noColon, noStart, opened]
  | case4 later _ ih =>
    have plain := ih fun c mem => none c (List.mem_cons_of_mem _ (List.mem_cons_of_mem _ mem))
    rw [List.cons_append, List.cons_append, lexemes]
    simp [colon, plain]
  | case5 d later other start _ ih =>
    obtain ⟨taken, dropped⟩ := List.takeWhile_append_stop noName later rest
    have plain := ih fun c mem => none c (List.mem_cons_of_mem _ (List.mem_cons_of_mem _
      ((List.dropWhile_sublist _).mem mem)))
    rw [List.cons_append, List.cons_append, lexemes]
    simp [colon, other, start, taken, dropped, plain]
  | case6 d later other start _ ih =>
    have plain := ih fun c mem => none c (List.mem_cons_of_mem _ mem)
    rw [List.cons_append, List.cons_append, lexemes]
    rw [List.cons_append] at plain
    simp [colon, other, start, plain]
  | case7 c later opens other ih =>
    rw [List.cons_append, lexemes_other (by simpa using opens) other,
      ih fun c mem => none c (List.mem_cons_of_mem _ mem), List.cons_append]

theorem lexemes_stretches (cs : List Char) :
    lexemes cs = (stretches cs).flatMap Stretch.lexemes := by
  induction cs using induct_quotes with
  | plain cs none => simp [stretches_unquoted none, Stretch.lexemes]
  | cut p q rest none quote ih =>
    rw [lexemes_cut none quote, stretches_cut none quote, List.flatMap_cons, List.flatMap_cons, ih]
    rfl

namespace TableRef

def readings (cs : List Char) : List Item := (stretches cs).flatMap Stretch.items

theorem readings_unquoted {cs : List Char} (none : Unquoted cs) : readings cs = items cs := by
  rw [readings, stretches_unquoted none, List.flatMap_singleton]
  rfl

theorem readings_cut {p : List Char} (none : Unquoted p) {q : Char} (quote : isQuote q = true)
    (rest : List Char) : readings (p ++ q :: rest) =
      items p ++ (q :: Quoted.inside q rest).map .char ++ readings (Quoted.behind q rest) := by
  rw [readings, stretches_cut none quote, List.flatMap_cons, List.flatMap_cons, List.append_assoc]
  rfl

theorem flatMap_text_readings (cs : List Char) : (readings cs).flatMap Item.text = cs := by
  induction cs using induct_quotes with
  | plain cs none => rw [readings_unquoted none, flatMap_text_items]
  | cut p q rest none quote ih =>
    have copied : ((q :: Quoted.inside q rest).map Item.char).flatMap Item.text =
        q :: Quoted.inside q rest := by simp [List.flatMap_map, Item.text]
    rw [readings_cut none quote, List.flatMap_append, List.flatMap_append,
      flatMap_text_items, ih, copied, List.append_assoc, List.cons_append,
      Quoted.inside_append_behind]

theorem toList_expandWith_readings (table : String → String) (sql : String) :
    (expandWith table sql).toList = (readings sql.toList).flatMap (Item.expanded table) := by
  rw [expandWith, String.toList_ofList]
  induction sql.toList using induct_quotes with
  | plain cs none => rw [readings_unquoted none, run_items table (s := .plain) trivial none]; rfl
  | cut p q rest none quote ih =>
    rw [(quoting table).run_cut none quote, run_items table (s := .plain) trivial none, ih,
      readings_cut none quote, List.flatMap_append, List.flatMap_append, flatMap_expanded_chars,
      List.map_id]
    rfl

end TableRef

def quotedStretches (cs : List Char) : List (List Char) := (stretches cs).filterMap Stretch.quoted?

theorem quotedStretches_unquoted {cs : List Char} (none : Unquoted cs) :
    quotedStretches cs = [] := by
  rw [quotedStretches, stretches_unquoted none]
  rfl

theorem quotedStretches_cut {p : List Char} (none : Unquoted p) {q : Char}
    (quote : TableRef.isQuote q = true) (rest : List Char) : quotedStretches (p ++ q :: rest) =
      (q :: Quoted.inside q rest) :: quotedStretches (Quoted.behind q rest) := by
  rw [quotedStretches, stretches_cut none quote]
  rfl

namespace Quoted

theorem inside_append {q : Char} {cs more : List Char} (whole : behind q cs = [] → more = []) :
    inside q (inside q cs ++ more) = inside q cs ∧ behind q (inside q cs ++ more) = more := by
  induction cs with
  | nil =>
    rw [whole rfl]
    exact ⟨rfl, rfl⟩
  | cons c rest ih =>
    by_cases same : c = q
    · simp [inside, behind, same]
    · rw [behind, if_neg same] at whole
      obtain ⟨kept, after⟩ := ih whole
      simp [inside, behind, same, kept, after]

end Quoted

namespace TableRef

variable (table : String → String)

/-- Expansion with tables that hold no quote keeps the quoted stretches. -/
theorem quotedStretches_expanded (cs : List Char)
    (tables : ∀ name, Text.isName name = true → Unquoted (table (String.ofList name)).toList) :
    quotedStretches ((readings cs).flatMap (Item.expanded table)) = quotedStretches cs := by
  induction cs using induct_quotes with
  | plain cs none =>
    rw [readings_unquoted none, quotedStretches_unquoted none,
      quotedStretches_unquoted (unquoted_expanded table none tables)]
  | cut p q rest none quote ih =>
    have kept := unquoted_expanded table none tables
    have ended : Quoted.behind q rest = [] →
        (readings (Quoted.behind q rest)).flatMap (Item.expanded table) = [] := by
      intro nothing
      rw [nothing, readings_unquoted fun c mem => absurd mem List.not_mem_nil, items]
      rfl
    obtain ⟨inside, behind⟩ := Quoted.inside_append ended
    rw [readings_cut none quote, List.flatMap_append, List.flatMap_append, flatMap_expanded_chars,
      List.append_assoc, List.cons_append, quotedStretches_cut kept quote, inside, behind,
      quotedStretches_cut none quote, ih]

theorem unquoted_name {name : List Char} (named : Text.isName name = true) :
    Unquoted name := fun c mem =>
  isQuote_of_isNameChar ((Text.isName_iff.mp named).2 c mem)

theorem unquoted_prefixed {tablePrefix : String} (none : Unquoted tablePrefix.toList)
    {name : List Char} (named : Text.isName name = true) :
    Unquoted (tablePrefix ++ String.ofList name).toList := by
  rw [String.toList_append, String.toList_ofList]
  exact fun c mem => (List.mem_append.mp mem).elim (none c) (unquoted_name named c)

/-- Expansion finds the references outside of quotes and puts tables for them; of a query, its
common tables stand for themselves. The quoted stretches are those that binding copies, and
expansion keeps them. -/
theorem expansion_outside_quotes (sql tablePrefix : String) (q : Query) :
    (readings sql.toList).flatMap Item.text = sql.toList ∧
    (expand sql tablePrefix).toList =
      (readings sql.toList).flatMap (Item.expanded (tablePrefix ++ ·)) ∧
    (q.expandRefs sql).toList = (readings sql.toList).flatMap (Item.expanded fun name =>
      if q.commonTables.contains name then name else q.tablePrefix ++ name) ∧
    (stretches sql.toList).flatMap Stretch.text = sql.toList ∧
    (lexemes sql.toList = (stretches sql.toList).flatMap Stretch.lexemes ∧
      Binding.tokens sql = (lexemes sql.toList).flatMap Lexeme.tokens) ∧
    (Unquoted tablePrefix.toList →
      quotedStretches (expand sql tablePrefix).toList = quotedStretches sql.toList) ∧
    (Unquoted q.tablePrefix.toList →
      quotedStretches (q.expandRefs sql).toList = quotedStretches sql.toList) := by
  refine ⟨flatMap_text_readings _, toList_expandWith_readings _ sql,
    toList_expandWith_readings _ sql, flatMap_text_stretches _,
    ⟨lexemes_stretches _, Binding.run_lexemes _⟩, fun none => ?_, fun none => ?_⟩
  · rw [expand, toList_expandWith_readings]
    exact quotedStretches_expanded _ _ fun name named => unquoted_prefixed none named
  · rw [Query.expandRefs, Clauses.expandRefs, toList_expandWith_readings]
    refine quotedStretches_expanded _ _ fun name named => ?_
    unfold Clauses.tableRef
    split
    · rw [String.toList_ofList]
      exact unquoted_name named
    · exact unquoted_prefixed none named

/-- A quote that is doubled, a brace that opens twice, and a quote that is not closed. -/
def quotedFragment : String :=
  "SELECT '{a}''{b}', {course}.\"{c}\" FROM {{recent}} WHERE x = {9} AND y = '{d}"

/-- A query with a common table. -/
def recentCourses : Query :=
  { Query.withPrefix "app_" with commonTables := .ofList [("recent", ⟨"SELECT 1", ∅⟩)] }

theorem expansion_outside_quotes_recent :
    recentCourses.expandRefs quotedFragment =
      "SELECT '{a}''{b}', app_course.\"{c}\" FROM {recent} WHERE x = {9} AND y = '{d}" ∧
    quotedStretches (recentCourses.expandRefs quotedFragment).toList =
      ["'{a}'", "'{b}'", "\"{c}\"", "'{d}"].map String.toList ∧
    quotedStretches (expand quotedFragment "app_").toList =
      ["'{a}'", "'{b}'", "\"{c}\"", "'{d}"].map String.toList := by
  obtain ⟨-, -, ofQuery, -, -, kept, keptByQuery⟩ :=
    expansion_outside_quotes quotedFragment "app_" recentCourses
  have quoted : quotedStretches quotedFragment.toList =
      ["'{a}'", "'{b}'", "\"{c}\"", "'{d}"].map String.toList := by decide +kernel
  have noQuote : Unquoted "app_".toList := by decide
  refine ⟨?_, (keptByQuery noQuote).trans quoted, (kept noQuote).trans quoted⟩
  rw [← String.toList_inj, ofQuery]
  decide +kernel

end TableRef

end Reports.Sql
