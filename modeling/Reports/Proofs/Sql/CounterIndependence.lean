import Reports.Proofs.Sql.Holes
import Reports.Proofs.Sql.Renaming

/-! What a render means does not depend on the counter that names were drawn from: its bound form
and its count key are those of the outline. -/
namespace Reports.Sql

namespace Outline

variable {o : Outline}

/-- The names that a statement takes up: those bound, and those that either scanner finds. -/
def names (o : Outline) : List Name :=
  o.params.keys ++ Read.names (Binding.reader.reads .plain o.text) ++
    Read.names (CountKey.reader.reads .plain o.text)

theorem mem_names {a : Name} : a ∈ o.names ↔
    a ∈ o.params.keys ∨ .name a ∈ Binding.reader.reads .plain o.text ∨
      .name a ∈ CountKey.reader.reads .plain o.text := by
  simp [names, Read.mem_names]

/-- No name in use is a placeholder name by accident. -/
def Clear (number : Nat → Nat) (o : Outline) : Prop := ∀ a ∈ o.names, a.Clear number

/-- A name in use under two numberings. -/
structure Shared (number number' : Nat → Nat) (o : Outline) (a : Name) : Prop where
  left : a.Clear number
  right : a.Clear number'
  bound : ∀ i, a = .drawn i → a ∈ o.params.keys

variable {number number' : Nat → Nat}

theorem alike (distinct : Function.Injective number) (distinct' : Function.Injective number') :
    Alike (Name.text number) (Name.text number') (Shared number number' o) where
  left _ _ ha hb h := Name.text_injective distinct ha.left hb.left h
  right _ _ ha hb h := Name.text_injective distinct' ha.right hb.right h

theorem shared_of_mem_names (bound : o.Bound) (clear : o.Clear number) (clear' : o.Clear number')
    {a : Name} (mem : a ∈ o.names) : Shared number number' o a where
  left := clear a mem
  right := clear' a mem
  bound := by
    rintro i rfl
    rcases mem_names.mp mem with given | read | read
    · exact given
    · exact (bound i).mpr ((Reader.drawn_mem_reads_iff Binding.lawful).mp read)
    · exact (bound i).mpr ((Reader.drawn_mem_reads_iff CountKey.lawful).mp read)

section

variable (parted : o.text.Parted .plain) (neat : o.text.Neat) (bound : o.Bound)
  (distinct : Function.Injective number)
  (distinct' : Function.Injective number') (clear : o.Clear number) (clear' : o.Clear number')

include distinct in
theorem others_fill {names : List Name} (hn : ∀ a ∈ names, a.Clear number)
    (hk : ∀ b ∈ o.params.keys, b.Clear number) :
    ((o.fill number).params.entries.filter fun e =>
        !(names.map (Name.text number)).contains e.1) =
      (o.params.entries.filter fun e => decide (e.1 ∉ names)).map fun e =>
        (e.1.text number, e.2) := by
  have same : ∀ e ∈ o.params.entries,
      (!(names.map (Name.text number)).contains (e.1.text number)) = decide (e.1 ∉ names) := by
    intro e he
    have mem : e.1.text number ∈ names.map (Name.text number) ↔ e.1 ∈ names := by
      rw [List.mem_map]
      constructor
      · rintro ⟨a, ha, h⟩
        have same := Name.text_injective distinct (hn a ha) (hk _ (List.mem_map_of_mem he)) h
        exact same ▸ ha
      · exact fun h => ⟨e.1, h, rfl⟩
    simp [List.contains_eq_mem, mem]
  rw [fill, OrderedMap.mapKeys, List.filter_map]
  congr 1
  exact List.filter_congr same

include bound distinct distinct' clear clear'

include neat in
theorem bind_fill (d : Dialect) : (o.fill number).bind d = (o.fill number').bind d := by
  have keys : ∀ b ∈ o.params.keys, Shared number number' o b := fun b hb =>
    shared_of_mem_names bound clear clear' (mem_names.mpr (Or.inl hb))
  rw [Statement.bind, Statement.bind, bindingTokens_fill neat, bindingTokens_fill neat]
  refine (alike distinct distinct').resolve (p := Shared number number' o) d ?_ ?_ _ ?_ [] ?_
  · intro a ha
    rw [get?_fill distinct ha.left fun b hb => (keys b hb).left,
      get?_fill distinct' ha.right fun b hb => (keys b hb).right]
  · intro a ha none
    rw [get?_fill distinct ha.left fun b hb => (keys b hb).left,
      OrderedMap.get?_eq_none_iff] at none
    cases a with
    | drawn i => exact absurd (ha.bound i rfl) none
    | written s => rfl
  · exact fun a ha => shared_of_mem_names bound clear clear' (mem_names.mpr (Or.inr (Or.inl ha)))
  · exact fun e he => absurd he List.not_mem_nil

include parted in
theorem identity_parted :
    CountKey.identity (o.fill number) = CountKey.identity (o.fill number') := by
  have keys : ∀ b ∈ o.params.keys, Shared number number' o b := fun b hb =>
    shared_of_mem_names bound clear clear' (mem_names.mpr (Or.inl hb))
  have reads : ∀ a, .name a ∈ CountKey.reader.reads .plain o.text →
      Shared number number' o a :=
    fun a ha => shared_of_mem_names bound clear clear' (mem_names.mpr (Or.inr (Or.inr ha)))
  obtain ⟨text, names, left, right, mem⟩ := (alike distinct distinct').renumber
    (CountKey.reader.reads .plain o.text) reads [] fun a ha => absurd ha List.not_mem_nil
  have inNames : ∀ i, .drawn i ∈ o.params.keys → .drawn i ∈ names := fun i hi =>
    (mem _).mpr (Or.inr ((Reader.drawn_mem_reads_iff CountKey.lawful).mpr ((bound i).mp hi)))
  have shared : ∀ a ∈ names, Shared number number' o a := fun a ha =>
    reads a (((mem a).mp ha).resolve_left List.not_mem_nil)
  have found : ∀ a ∈ names, (o.fill number).params.get? (a.text number) =
      (o.fill number').params.get? (a.text number') := by
    intro a ha
    rw [get?_fill distinct (shared a ha).left fun b hb => (keys b hb).left,
      get?_fill distinct' (shared a ha).right fun b hb => (keys b hb).right]
  have others : ((o.fill number).params.entries.filter fun e =>
        !(names.map (Name.text number)).contains e.1) =
      ((o.fill number').params.entries.filter fun e =>
        !(names.map (Name.text number')).contains e.1) := by
    rw [others_fill distinct (fun a ha => (shared a ha).left) fun b hb => (keys b hb).left,
      others_fill distinct' (fun a ha => (shared a ha).right) fun b hb => (keys b hb).right]
    refine List.map_congr_left fun e he => ?_
    obtain ⟨inside, outside⟩ := List.mem_filter.mp he
    -- a drawn name is in the text, so it was renumbered
    obtain ⟨a, v⟩ := e
    cases a with
    | drawn i =>
      have known := inNames i (List.mem_map_of_mem (f := Prod.fst) inside)
      exact absurd known (of_decide_eq_true outside)
    | written s => rfl
  simp only [List.map_nil] at left right
  simp only [CountKey.identity, countTokens_fill parted, left, right, others, List.map_map,
    Function.comp_def]
  congr 3
  exact List.map_congr_left fun a ha => by rw [found a ha]

include neat in
theorem identity_fill : CountKey.identity (o.fill number) = CountKey.identity (o.fill number') :=
  identity_parted neat.apart.parted bound distinct distinct' clear clear'

end

end Outline

namespace Query

open Marked (Neat ofText)

/-- Every text written by hand is quote-balanced. In the fragments of sub-queries and renderers,
which may have placeholders of their own, these stand apart. -/
def Balanced (q : Query) (d : Dialect) : Prop := q.Worded Neat (fun s => Neat (ofText s)) d

/-- The names that stand in texts written by hand and in their parameters. -/
def Writes (q : Query) (d : Dialect) (name : String) : Prop :=
  ∃ o h, q.outline d = .ok (o, h) ∧ .written name ∈ o.names

theorem clear_counted {q : Query} {d : Dialect} {n : Nat}
    (passed : ∀ name, q.Writes d name → ∀ k, name = placeholderName k →
      k ≤ n) {o : Outline}
    {h : Nat} (outlined : q.outline d = .ok (o, h)) : o.Clear (counted n) := by
  intro a mem
  cases a with
  | drawn i => trivial
  | written name =>
    intro i same
    have le := passed name ⟨o, h, outlined, mem⟩ _ same
    simp only [counted] at le
    omega

/-- Two renders of one query mean the same: they fail with the same error, or they bind alike in
every dialect and count under the same key. -/
theorem render_counter_independent (q : Query) (d : Dialect) (n m : Nat) (balanced : q.Balanced d)
    (passed : ∀ name, q.Writes d name → ∀ k, name = placeholderName k →
      k ≤ n ∧ k ≤ m) :
    match (q.render d n).1, (q.render d m).1 with
    | .ok s, .ok s' =>
      (∀ d', s.bind d' = s'.bind d') ∧ ∀ memo : CountMemo, memo.key s = memo.key s'
    | .error e, .error e' => e = e'
    | _, _ => False := by
  cases outlined : q.outline d with
  | error e => rw [render_error outlined, render_error outlined]
  | ok result =>
    obtain ⟨o, h⟩ := result
    have neat : o.text.Neat := Marked.weaves_neat.outlineOver balanced outlined
    have bound := bound_outline outlined
    have clear := clear_counted (fun name w k same => (passed name w k same).1) outlined
    have clear' := clear_counted (fun name w k same => (passed name w k same).2) outlined
    rw [render_ok outlined fun a ha => clear a (Outline.mem_names.mpr (Or.inl ha)),
      render_ok outlined fun a ha => clear' a (Outline.mem_names.mpr (Or.inl ha))]
    refine ⟨fun d' => ?_, fun memo => ?_⟩
    · exact Outline.bind_fill neat bound (counted_injective n)
        (counted_injective m) clear clear' d'
    · exact congrArg memo.digest
        (Outline.identity_fill neat bound (counted_injective n) (counted_injective m) clear clear')

def itemsOfCategory : Query :=
  (((withPrefix "app_").select "t.id" uniqueId).readFrom "items" "t").filterBy
    (Predicate.new "t.category" [.string "books"] .equal) |>.whereRaw
      ⟨"t.kind = :qp2", .ofList [("qp2", .string "new")]⟩

theorem balanced_itemsOfCategory : itemsOfCategory.Balanced .sqlite := by
  have neat (s : String) (closed : (Marked.after .plain (ofText s)).isOpen = true) :
      Neat (ofText s) := ⟨Marked.apart_ofChars _ _, closed⟩
  have predicate : (Predicate.new "t.category" [.string "books"] .equal).Worded Neat .sqlite :=
    ⟨neat _ (by decide), fun r hr => (nomatch hr), fun t ht => (nomatch ht),
      fun r t hr => (nomatch hr)⟩
  refine ⟨⟨neat _ (by decide), ?_, fun e he => (nomatch he), fun e he => (nomatch he), ?_,
    fun e he => (nomatch he), fun e he => (nomatch he)⟩, ?_, fun o ho => (nomatch ho),
    neat _ (by decide), neat _ (by decide)⟩
  · intro e he
    obtain rfl : e = (uniqueId, "t.id") := List.mem_singleton.mp he
    exact ⟨neat _ (by decide), neat _ (by decide)⟩
  · intro p hp
    obtain rfl : p = Predicate.new "t.category" [.string "books"] .equal := List.mem_singleton.mp hp
    exact predicate
  · intro o ho
    obtain rfl := List.mem_singleton.mp ho
    exact neat _ (by decide)

theorem writes_itemsOfCategory {name : String} (writes : itemsOfCategory.Writes .sqlite name) :
    name = "qp2" := by
  obtain ⟨o, h, outlined, mem⟩ := writes
  have known : (itemsOfCategory.outline .sqlite).toOption.map (fun r => r.1.names) =
      some [.drawn 0, .written "qp2", .drawn 0, .written "qp2", .drawn 0, .written "qp2"] := by
    decide +kernel
  rw [outlined] at known
  have found : o.names = _ := Option.some.inj known
  rw [found] at mem
  simpa using mem

theorem render_counter_independent_itemsOfCategory :
    match (itemsOfCategory.render .sqlite 2).1, (itemsOfCategory.render .sqlite 9).1 with
    | .ok s, .ok s' =>
      (∀ d', s.bind d' = s'.bind d') ∧ ∀ memo : CountMemo, memo.key s = memo.key s'
    | .error e, .error e' => e = e'
    | _, _ => False :=
  render_counter_independent itemsOfCategory .sqlite 2 9 balanced_itemsOfCategory
    fun name writes k same => by
      have two : k = 2 := placeholderName_injective (n := 2)
        (same.symm.trans (writes_itemsOfCategory writes))
      omega

end Query

end Reports.Sql
