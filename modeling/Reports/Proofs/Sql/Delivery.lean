import Reports.Proofs.Sql.Bindings
import Reports.Proofs.Sql.Spelled
import Mathlib.Data.List.Infix

/-! Every value reaches its own placeholder. Binding a rendered statement puts a position for each
name, and the value at the position is the one that a predicate drew the name for or that a
component binds to it. -/
namespace Reports.Sql

open Marked (ofText)

namespace Binding

def Token.name? : Token → Option String
  | .char _ => none
  | .parameter cs => some (String.ofList cs)

def names (ts : List Token) : List String := ts.filterMap Token.name?

def placed (d : Dialect) (place : String → Nat) : List Token → String
  | [] => ""
  | .char c :: rest => String.ofList [c] ++ placed d place rest
  | .parameter cs :: rest => d.positional (place (String.ofList cs) + 1) ++ placed d place rest

theorem rank?_append {name : String} {seen : List (String × Json)} {i : Nat}
    (found : rank? name seen = some i) (more : List (String × Json)) :
    rank? name (seen ++ more) = some i := by
  induction seen generalizing i with
  | nil => cases found
  | cons e rest ih =>
    by_cases same : e.1 = name
    · simpa [rank?, same] using found
    · simp only [rank?, same, if_false, Option.map_eq_some_iff] at found
      obtain ⟨j, found, rfl⟩ := found
      simp [rank?, same, ih found]

theorem rank?_append_self {name : String} {seen : List (String × Json)}
    (absent : rank? name seen = none) (v : Json) :
    rank? name (seen ++ [(name, v)]) = some seen.length := by
  induction seen with
  | nil => simp [rank?]
  | cons e rest ih =>
    by_cases same : e.1 = name
    · simp [rank?, same] at absent
    · simp only [rank?, same, if_false, Option.map_eq_none_iff] at absent
      simp [rank?, same, ih absent]

theorem getElem?_of_rank? {name : String} {all : List (String × Json)} {i : Nat}
    (found : rank? name all = some i) : ∃ v, all[i]? = some (name, v) := by
  induction all generalizing i with
  | nil => cases found
  | cons e rest ih =>
    by_cases same : e.1 = name
    · simp only [rank?, same, if_true, Option.some.injEq] at found
      subst found
      exact ⟨e.2, by rw [← same]; rfl⟩
    · simp only [rank?, same, if_false, Option.map_eq_some_iff] at found
      obtain ⟨j, found, rfl⟩ := found
      exact ih found

def place (all : List (String × Json)) (name : String) : Nat := (rank? name all).getD 0

theorem resolve_eq (d : Dialect) {params : Params} {value : String → Json} (ts : List Token)
    (given : ∀ name ∈ names ts, params.get? name = some (value name))
    (seen : List (String × Json))
    (valued : ∀ e ∈ seen, e.2 = value e.1) :
    ∃ all, seen <+: all ∧ (∀ e ∈ all, e.2 = value e.1) ∧
      (∀ name ∈ names ts, ∃ i, rank? name all = some i) ∧
      resolve d params seen ts = .ok ⟨placed d (place all) ts, all.map Prod.snd⟩ := by
  induction ts generalizing seen with
  | nil => exact ⟨seen, List.prefix_rfl, valued, fun name h => absurd h List.not_mem_nil, rfl⟩
  | cons t rest ih =>
    cases t with
    | char c =>
      obtain ⟨all, longer, valued, ranked, resolved⟩ := ih given seen valued
      refine ⟨all, longer, valued, ranked, ?_⟩
      rw [resolve, resolved]
      rfl
    | parameter cs =>
      have later : ∀ name ∈ names rest, params.get? name = some (value name) := fun name h =>
        given name (List.mem_cons_of_mem _ h)
      have here := given (String.ofList cs) List.mem_cons_self
      cases found : rank? (String.ofList cs) seen with
      | some i =>
        obtain ⟨all, ⟨more, rfl⟩, valued, ranked, resolved⟩ := ih later seen valued
        have kept := rank?_append found more
        refine ⟨seen ++ more, List.prefix_append _ _, valued, ?_, ?_⟩
        · intro name h
          rcases List.mem_cons.mp h with rfl | h
          · exact ⟨i, kept⟩
          · exact ranked name h
        · simp only [resolve, found, resolved]
          simp only [placed, place, kept]
          rfl
      | none =>
        have grown : ∀ e ∈ seen ++ [(String.ofList cs, value (String.ofList cs))],
            e.2 = value e.1 := by
          intro e he
          rcases List.mem_append.mp he with he | he
          · exact valued e he
          · rw [List.mem_singleton.mp he]
        obtain ⟨all, ⟨more, rfl⟩, valued, ranked, resolved⟩ := ih later _ grown
        have kept := rank?_append (rank?_append_self found (value (String.ofList cs))) more
        refine ⟨_, (List.prefix_append _ _).trans (List.prefix_append _ more), valued, ?_, ?_⟩
        · intro name h
          rcases List.mem_cons.mp h with rfl | h
          · exact ⟨_, kept⟩
          · exact ranked name h
        · simp only [resolve, found, here, resolved]
          simp only [placed, place, kept]
          rfl

theorem getElem?_place {value : String → Json} {all : List (String × Json)}
    (valued : ∀ e ∈ all, e.2 = value e.1) {name : String}
    (ranked : ∃ i, rank? name all = some i) :
    (all.map Prod.snd)[place all name]? = some (value name) := by
  obtain ⟨i, rank⟩ := ranked
  obtain ⟨v, found⟩ := getElem?_of_rank? rank
  have same := valued _ (List.mem_of_getElem? found)
  rw [place, rank, Option.getD_some, List.getElem?_map, found, Option.map_some, same]

theorem names_write (f : Name → String) (rs : List Read) :
    names (rs.map (reader.write f)) = (Read.names rs).map f := by
  induction rs with
  | nil => rfl
  | cons r rest ih =>
    cases r with
    | char c => exact ih
    | name a =>
      change String.ofList (f a).toList :: names (rest.map (reader.write f)) = _
      rw [String.ofList_toList, ih, Read.names_cons_name, List.map_cons]

end Binding

theorem count_map {f : Name → String} {ns : List Name} {a : Name}
    (own : ∀ b ∈ ns, f b = f a → b = a) : (ns.map f).count (f a) = ns.count a := by
  induction ns with
  | nil => rfl
  | cons b rest ih =>
    have later := ih fun c hc => own c (List.mem_cons_of_mem _ hc)
    have same : f b = f a ↔ b = a := ⟨own b List.mem_cons_self, congrArg f⟩
    simp only [List.map_cons, List.count_cons, later, beq_iff_eq, same]

theorem count_drawn (ns : List Name) (i : Nat) :
    ns.count (.drawn i) = (ns.filterMap Name.rank?).count i := by
  induction ns with
  | nil => rfl
  | cons a rest ih =>
    cases a with
    | drawn j => simp [Name.rank?, List.count_cons, ih]
    | written s =>
      rw [List.count_cons_of_ne (by simp), ih]
      rfl

namespace Query

def drawnValues (q : Query) (d : Dialect) : List Json := q.toClauses.drawnValues d q.source

def Binds (q : Query) (d : Dialect) (name : String) (v : Json) : Prop :=
  q.toClauses.Binds d q.source name v

/-- The bound form of a statement rendered from a counter at `n`, with the place of each name: it
has a position for every name, and there stands the value for which the name was drawn, or to which
it is bound. -/
structure Delivers (q : Query) (d : Dialect) (n : Nat) (s : Statement) (d' : Dialect) (b : Bound)
    (place : String → Nat) : Prop where
  sql : b.sql = Binding.placed d' place (Binding.tokens s.sql)
  drawn : ∀ i v, (q.drawnValues d)[i]? = some v →
    (Binding.names (Binding.tokens s.sql)).count (placeholderName (n + i + 1)) = 1 ∧
      b.values[place (placeholderName (n + i + 1))]? = some v
  written : ∀ name ∈ Binding.names (Binding.tokens s.sql),
    (∀ i < (q.drawnValues d).length, name ≠ placeholderName (n + i + 1)) →
      (∃ v, q.Binds d name v) ∧ ∀ v, q.Binds d name v → b.values[place name]? = some v

theorem clear_of_binds {q : Query} {d : Dialect} {n : Nat}
    (passed : ∀ name v k, q.Binds d name v → name = placeholderName k → k ≤ n)
    {name : String}
    {v : Json} (binds : q.Binds d name v) : (Name.written name).Clear (counted n) := by
  intro i same
  have le := passed name v _ binds same
  simp only [counted] at le
  omega

section Outlined

variable {q : Query} {d : Dialect} {n h : Nat} {o : Outline} (outlined : q.outline d = .ok (o, h))

include outlined

theorem mem_entries_outline {a : Name} {v : Json} (mem : (a, v) ∈ o.params.entries) :
    DrawnFor 0 (q.drawnValues d) a v ∨ ∃ s, a = .written s ∧ q.Binds d s v :=
  Clauses.mem_entries_outlineOver outlined mem

theorem mem_holes_outline {i : Nat} : i ∈ o.text.holes ↔ i < (q.drawnValues d).length := by
  have holes := Clauses.holes_outlineOver outlined
  rw [Clauses.holes_written, Clauses.holes_written, List.append_nil, List.append_nil,
    Clauses.length_drawnValues outlined] at holes
  rw [holes, List.mem_range'_1, Nat.zero_add]
  exact and_iff_right (Nat.zero_le i)

theorem nodup_holes_outline : o.text.holes.Nodup := by
  have holes := Clauses.holes_outlineOver outlined
  rw [Clauses.holes_written, Clauses.holes_written, List.append_nil, List.append_nil] at holes
  rw [holes]
  exact List.nodup_range'

theorem get?_drawn {i : Nat} {v : Json} (value : (q.drawnValues d)[i]? = some v) :
    o.params.get? (.drawn i) = some v := by
  obtain ⟨inside, -⟩ := List.getElem?_eq_some_iff.mp value
  have key := (bound_outline outlined i).mpr ((mem_holes_outline outlined).mpr inside)
  cases found : o.params.get? (.drawn i) with
  | none => exact absurd key ((OrderedMap.get?_eq_none_iff _ _).mp found)
  | some w =>
    rcases mem_entries_outline outlined (OrderedMap.mem_entries_of_get? found) with drawn | written
    · obtain ⟨j, same, value'⟩ := drawn
      rw [Nat.zero_add, Name.drawn.injEq] at same
      rw [← value', ← same, value]
    · obtain ⟨s, same, -⟩ := written
      cases same

theorem get?_written (agree : ∀ name v w, q.Binds d name v → q.Binds d name w → v = w)
    {name : String} {v : Json} (binds : q.Binds d name v) :
    o.params.get? (.written name) = some v := by
  have key := Clauses.mem_keys_of_binds binds outlined
  cases found : o.params.get? (.written name) with
  | none => exact absurd key ((OrderedMap.get?_eq_none_iff _ _).mp found)
  | some w =>
    rcases mem_entries_outline outlined (OrderedMap.mem_entries_of_get? found) with drawn | written
    · obtain ⟨j, same, -⟩ := drawn
      cases same
    · obtain ⟨s, same, binds'⟩ := written
      cases same
      rw [agree name v w binds binds']

theorem clear_of_passed
    (passed : ∀ name v k, q.Binds d name v → name = placeholderName k → k ≤ n) :
    ∀ a ∈ o.params.keys, a.Clear (counted n) := by
  intro a key
  cases a with
  | drawn i => trivial
  | written name =>
    cases found : o.params.get? (.written name) with
    | none => exact absurd key ((OrderedMap.get?_eq_none_iff _ _).mp found)
    | some v =>
      rcases mem_entries_outline outlined (OrderedMap.mem_entries_of_get? found)
        with drawn | written
      · obtain ⟨j, same, -⟩ := drawn
        cases same
      · obtain ⟨s, eq, binds⟩ := written
        cases eq
        exact clear_of_binds passed binds

theorem exists_value (spelled : Spelled (fun name => ∃ v, q.Binds d name v) o.text)
    (agree : ∀ name v w, q.Binds d name v → q.Binds d name w → v = w)
    {a : Name} (found : .name a ∈ Binding.reader.reads .plain o.text) :
    ∃ v, o.params.get? a = some v := by
  cases a with
  | drawn i =>
    have hole := (Reader.drawn_mem_reads_iff Binding.lawful).mp found
    have inside := (mem_holes_outline outlined).mp hole
    exact ⟨_, get?_drawn outlined (List.getElem?_eq_getElem inside)⟩
  | written name =>
    obtain ⟨v, binds⟩ := spelled.mem_names found
    exact ⟨v, get?_written outlined agree binds⟩

variable (spelled : Spelled (fun name => ∃ v, q.Binds d name v) o.text)
  (agree : ∀ name v w, q.Binds d name v → q.Binds d name w → v = w)
  (passed : ∀ name v k, q.Binds d name v → name = placeholderName k → k ≤ n)

omit outlined

include spelled in
theorem names_fill : Binding.names (Binding.tokens (o.fill (counted n)).sql) =
    (Read.names (Binding.reader.reads .plain o.text)).map (Name.text (counted n)) := by
  rw [Outline.bindingTokens_fill spelled.neat, Binding.names_write]

include spelled passed in
theorem clear_of_found {a : Name} (found : .name a ∈ Binding.reader.reads .plain o.text) :
    a.Clear (counted n) := by
  cases a with
  | drawn i => trivial
  | written name =>
    obtain ⟨v, binds⟩ := spelled.mem_names found
    exact clear_of_binds passed binds

include outlined spelled passed in
theorem count_drawn_name {i : Nat} (inside : i < (q.drawnValues d).length) :
    (Binding.names (Binding.tokens (o.fill (counted n)).sql)).count (placeholderName (n + i + 1)) =
      1 := by
  have hole := (mem_holes_outline outlined).mpr inside
  have own : ∀ b ∈ Read.names (Binding.reader.reads .plain o.text),
      b.text (counted n) = (Name.drawn i).text (counted n) → b = .drawn i := fun b hb same =>
    Name.text_injective (counted_injective n) (clear_of_found spelled passed (Read.mem_names.mp hb))
      trivial same
  have once : (Read.names (Binding.reader.reads .plain o.text)).count (.drawn i) = 1 := by
    rw [count_drawn, Reader.drawn_reads Binding.lawful]
    exact List.count_eq_one_of_mem (nodup_holes_outline outlined) hole
  rw [names_fill spelled]
  exact (count_map own).trans once

include outlined passed in
theorem get?_render {a : Name} (ha : a.Clear (counted n)) :
    (o.fill (counted n)).params.get? (a.text (counted n)) = o.params.get? a :=
  Outline.get?_fill (counted_injective n) ha (clear_of_passed outlined passed)

include outlined spelled agree passed in
theorem exists_get?_render {name : String}
    (stands : name ∈ Binding.names (Binding.tokens (o.fill (counted n)).sql)) :
    ∃ v, (o.fill (counted n)).params.get? name = some v := by
  rw [names_fill spelled] at stands
  obtain ⟨a, ha, rfl⟩ := List.mem_map.mp stands
  have found := Read.mem_names.mp ha
  rw [get?_render outlined passed (clear_of_found spelled passed found)]
  exact exists_value outlined spelled agree found

end Outlined

/-- Each value of a query reaches its own placeholder, when every colon written by hand opens a name
that a component binds and no such name is one that the counter is still to give. -/
theorem render_delivers (q : Query) (d : Dialect) (n : Nat)
    (spelled : q.Worded (Spelled fun name => ∃ v, q.Binds d name v) Quiet d)
    (agree : ∀ name v w, q.Binds d name v → q.Binds d name w → v = w)
    (passed : ∀ name v k, q.Binds d name v → name = placeholderName k → k ≤ n)
    {s : Statement} {m : Nat} (rendered : q.render d n = (.ok s, m)) :
    m = n + (q.drawnValues d).length ∧
      ∀ d', ∃ b place, s.bind d' = .ok b ∧ q.Delivers d n s d' b place := by
  cases outlined : q.outline d with
  | error e =>
    have failed := render_error outlined n
    rw [rendered] at failed
    cases failed
  | ok result =>
    obtain ⟨o, h⟩ := result
    have whole : Spelled _ o.text := (weaves_spelled _).outlineOver spelled outlined
    rw [render_ok outlined (clear_of_passed outlined passed), Prod.mk.injEq,
      Except.ok.injEq] at rendered
    obtain ⟨rfl, rfl⟩ := rendered
    refine ⟨by rw [Clauses.length_drawnValues outlined]; rfl, fun d' => ?_⟩
    let value (name : String) : Json := ((o.fill (counted n)).params.get? name).getD .null
    have given : ∀ name ∈ Binding.names (Binding.tokens (o.fill (counted n)).sql),
        (o.fill (counted n)).params.get? name = some (value name) := by
      intro name stands
      obtain ⟨v, found⟩ := exists_get?_render outlined whole agree passed stands
      simp only [value, found, Option.getD_some]
    obtain ⟨all, -, valued, ranked, resolved⟩ := Binding.resolve_eq d' _ given [] fun e he =>
      absurd he List.not_mem_nil
    refine ⟨_, Binding.place all, resolved, rfl, ?_, ?_⟩
    -- A drawn name stands once, so its position can hold no other value.
    · intro i v drawn
      obtain ⟨inside, -⟩ := List.getElem?_eq_some_iff.mp drawn
      have once := count_drawn_name outlined whole passed inside
      have stands := List.count_pos_iff.mp (once ▸ Nat.one_pos)
      have known := get?_render outlined passed (a := .drawn i) trivial
      rw [get?_drawn outlined drawn] at known
      refine ⟨once, ?_⟩
      rw [Binding.getElem?_place valued (ranked _ stands)]
      exact congrArg some (congrArg (Option.getD · Json.null) known)
    -- Any other name that stands was written by hand: the drawn ones are all below the count.
    · intro name stands other
      have placed := Binding.getElem?_place valued (ranked name stands)
      rw [names_fill whole] at stands
      obtain ⟨a, ha, rfl⟩ := List.mem_map.mp stands
      cases a with
      | drawn i =>
        have hole := (Reader.drawn_mem_reads_iff Binding.lawful).mp (Read.mem_names.mp ha)
        exact absurd rfl (other i ((mem_holes_outline outlined).mp hole))
      | written name =>
        refine ⟨whole.mem_names (Read.mem_names.mp ha), fun v binds => ?_⟩
        have named : q.Binds d name v := binds
        have known := get?_render outlined passed (clear_of_binds passed named)
        rw [get?_written outlined agree named] at known
        rw [placed]
        exact congrArg some (congrArg (Option.getD · Json.null) known)

def recentUsers : Query :=
  ((withPrefix "app_").readFromQuery
    (((withPrefix "app_").readFrom "users" "u").filterBy
      (Predicate.new "u.kind" [.string "guest", .string "member"] .inList)) "x").filterBy
    (Predicate.new "x.name" [.string "a_b"] .likeWildcard) |>.whereRaw
      ⟨"x.since > :since", .ofList [("since", .string "2024")]⟩

theorem binds_recentUsers {name : String} {v : Json} :
    recentUsers.Binds .sqlite name v ↔ name = "since" ∧ v = .string "2024" := by
  constructor
  · intro binds
    cases binds with
    | commonTable hs given => cases hs
    | join hj given => cases hj
    | rawHaving hs given => cases hs
    | rawWhere hs given =>
      obtain rfl := List.mem_singleton.mp hs
      simpa using List.mem_singleton.mp given
    | predicate hp template shows given =>
      obtain rfl := List.mem_singleton.mp hp
      cases template
      cases given
    | source binds =>
      cases binds with
      | commonTable hs given => cases hs
      | join hj given => cases hj
      | rawHaving hs given => cases hs
      | rawWhere hs given => cases hs
      | predicate hp template shows given =>
        obtain rfl := List.mem_singleton.mp hp
        cases template
        cases given
  · rintro ⟨rfl, rfl⟩
    exact .rawWhere List.mem_cons_self List.mem_cons_self

theorem spelled_recentUsers :
    recentUsers.Worded (Spelled fun name => ∃ v, recentUsers.Binds .sqlite name v)
      Quiet .sqlite := by
  have quiet {s : String} (h : Quiet s) :
      Spelled (fun name => ∃ v, recentUsers.Binds .sqlite name v) (ofText s) := by
    have text :=
      SpelledFrom.quiet_append (B := fun name => ∃ v, recentUsers.Binds .sqlite name v) h
      (a := []) trivial
    rwa [List.append_nil] at text
  have predicate {p : Predicate} (selector : Quiet p.selector) (raw : p.rawConditions = [])
      (alone : p.subquery = none) (builtin : p.renderer = none) :
      p.Worded (Spelled fun name => ∃ v, recentUsers.Binds .sqlite name v) .sqlite := by
    refine ⟨quiet selector, fun r hr => ?_, fun t ht => ?_, fun r t hr => ?_⟩
    · rw [raw] at hr
      cases hr
    · rw [alone] at ht
      cases ht
    · rw [builtin] at hr
      cases hr
  have since : Spelled (fun name => ∃ v, recentUsers.Binds .sqlite name v)
      (ofText "x.since > " ++ ofText ":since") := by
    refine SpelledFrom.quiet_append (by decide) ?_
    exact ⟨trivial, rfl, Or.inl rfl, Or.inl rfl, Or.inl rfl, Or.inl rfl, _,
      binds_recentUsers.mpr ⟨rfl, rfl⟩⟩
  refine ⟨⟨by decide, fun e he => (nomatch he), fun e he => (nomatch he), fun e he => (nomatch he),
    ?_, fun e he => (nomatch he), fun e he => (nomatch he)⟩, ?_, fun o ho => (nomatch ho),
    ⟨⟨by decide, fun e he => (nomatch he), fun e he => (nomatch he), fun e he => (nomatch he),
      ?_, fun e he => (nomatch he), fun e he => (nomatch he)⟩, fun o ho => (nomatch ho),
      fun o ho => (nomatch ho), quiet (by decide), quiet (by decide)⟩, quiet (by decide)⟩
  · intro p hp
    obtain rfl := List.mem_singleton.mp hp
    exact predicate (by decide) rfl rfl rfl
  · intro o ho
    obtain rfl := List.mem_singleton.mp ho
    exact since
  · intro p hp
    obtain rfl := List.mem_singleton.mp hp
    exact predicate (by decide) rfl rfl rfl

theorem passed_recentUsers (name : String) (v : Json) (k : Nat)
    (binds : recentUsers.Binds .sqlite name v) (same : name = placeholderName k) : k ≤ 4 := by
  obtain ⟨rfl, -⟩ := binds_recentUsers.mp binds
  exact absurd (congrArg (fun s => s.toList.head?) same) (by simp [placeholderName])

theorem render_delivers_recentUsers :
    ∃ s m, recentUsers.render .sqlite 4 = (.ok s, m) ∧ m = 7 ∧
      ∀ d', ∃ b place, s.bind d' = .ok b ∧ recentUsers.Delivers .sqlite 4 s d' b place := by
  obtain ⟨s, m, rendered⟩ : ∃ s m, recentUsers.render .sqlite 4 = (.ok s, m) := by
    have some : (recentUsers.render .sqlite 4).1.toOption.isSome = true := by decide +kernel
    rcases outcome : recentUsers.render .sqlite 4 with ⟨r, m⟩
    cases r with
    | error e =>
      rw [outcome] at some
      cases some
    | ok s => exact ⟨s, m, rfl⟩
  have agree (name : String) (v w : Json) (hv : recentUsers.Binds .sqlite name v)
      (hw : recentUsers.Binds .sqlite name w) : v = w :=
    (binds_recentUsers.mp hv).2.trans (binds_recentUsers.mp hw).2.symm
  obtain ⟨drawn, delivers⟩ := render_delivers recentUsers .sqlite 4 spelled_recentUsers agree
    passed_recentUsers rendered
  have three : (recentUsers.drawnValues .sqlite).length = 3 := by decide
  exact ⟨s, m, rendered, by rw [drawn, three], delivers⟩

end Query

end Reports.Sql
