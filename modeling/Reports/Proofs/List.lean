import Mathlib.Algebra.Order.BigOperators.Group.List
import Mathlib.Algebra.Order.Ring.Nat
import Mathlib.Data.List.Dedup
import Mathlib.Data.List.Forall2
import Mathlib.Data.List.Induction

/-! Lists: what is left when repetitions are taken out, where a list is cut, and lists of one
length. -/
namespace List

variable {α β : Type}

section Distinct

variable [DecidableEq α]

theorem eraseDups_concat (l : List α) (a : α) :
    (l ++ [a]).eraseDups = if a ∈ l then l.eraseDups else l.eraseDups ++ [a] := by
  rw [eraseDups_append]
  by_cases known : a ∈ l
  · simp [removeAll, known]
  · simp [removeAll, known, eraseDups_cons]

theorem nodup_eraseDups (l : List α) : l.eraseDups.Nodup := by
  induction l using reverseRecOn with
  | nil => exact nodup_nil
  | append_singleton l a ih =>
    rw [eraseDups_concat]
    split
    · exact ih
    · next new => exact concat_eq_append ▸ ih.concat (mem_eraseDups.not.mpr new)

theorem eraseDups_of_nodup {l : List α} (distinct : l.Nodup) : l.eraseDups = l := by
  induction l using reverseRecOn with
  | nil => rfl
  | append_singleton l a ih =>
    obtain ⟨others, -, apart⟩ := nodup_append.mp distinct
    have new : a ∉ l := fun mem => apart a mem a mem_cons_self rfl
    rw [eraseDups_concat, if_neg new, ih others]

theorem eraseDups_append_cons_of_mem {l : List α} {a : α} (mem : a ∈ l) (rest : List α) :
    (l ++ a :: rest).eraseDups = (l ++ rest).eraseDups := by
  rw [eraseDups_append, eraseDups_append]
  simp [removeAll, mem]

theorem idxOf_eraseDups_append {l : List α} (distinct : l.Nodup) {a : α} (mem : a ∈ l)
    (rest : List α) : (l ++ rest).eraseDups.idxOf a = l.idxOf a := by
  rw [eraseDups_append, eraseDups_of_nodup distinct, idxOf_append_of_mem mem]

theorem filter_eraseDups (p : α → Bool) (l : List α) :
    l.eraseDups.filter p = (l.filter p).eraseDups := by
  induction l using reverseRecOn with
  | nil => rfl
  | append_singleton l a ih =>
    rw [eraseDups_concat, filter_append]
    by_cases kept : p a = true
    · have mem : a ∈ l.filter p ↔ a ∈ l := mem_filter.trans (and_iff_left kept)
      rw [filter_cons_of_pos kept, filter_nil, eraseDups_concat]
      simp only [mem]
      split
      · exact ih
      · rw [filter_append, ih, filter_cons_of_pos kept, filter_nil]
    · rw [filter_cons_of_neg kept, filter_nil, append_nil]
      split
      · exact ih
      · rw [filter_append, ih, filter_cons_of_neg kept, filter_nil, append_nil]

theorem dedup_map_of_injOn [DecidableEq β] {f : α → β} {l : List α}
    (inj : ∀ a ∈ l, ∀ b ∈ l, f a = f b → a = b) : (l.map f).dedup = l.dedup.map f := by
  induction l with
  | nil => rfl
  | cons a rest ih =>
    have later := ih fun b mem c mem' => inj b (mem_cons_of_mem _ mem) c (mem_cons_of_mem _ mem')
    by_cases mem : a ∈ rest
    · rw [map_cons, dedup_cons_of_mem (mem_map_of_mem mem), dedup_cons_of_mem mem, later]
    · have new : f a ∉ rest.map f := by
        intro known
        obtain ⟨b, hb, same⟩ := mem_map.mp known
        have equal := inj b (mem_cons_of_mem _ hb) a mem_cons_self same
        exact mem (equal ▸ hb)
      rw [map_cons, dedup_cons_of_notMem new, dedup_cons_of_notMem mem, later, map_cons]

/-- Values for distinct keys can be anything. -/
theorem exists_map_eq {l : List α} (distinct : l.Nodup) [Inhabited β] {values : List β}
    (length : values.length = l.length) : ∃ f : α → β, l.map f = values := by
  induction l generalizing values with
  | nil => exact ⟨fun _ => default, (eq_nil_of_length_eq_zero length).symm⟩
  | cons a rest ih =>
    obtain ⟨v, values, rfl⟩ := exists_cons_of_length_eq_add_one length
    obtain ⟨once, distinct⟩ := nodup_cons.mp distinct
    obtain ⟨f, same⟩ := ih distinct (Nat.succ.inj length)
    refine ⟨Function.update f a v, ?_⟩
    have others : rest.map (Function.update f a v) = rest.map f := by
      apply map_congr_left
      intro b mem
      have other : b ≠ a := by
        rintro rfl
        exact once mem
      exact Function.update_of_ne other _ _
    rw [map_cons, Function.update_self, others, same]

end Distinct

section Cuts

theorem split_unique {a : α} {l l' rest rest' : List α} (first : a ∉ l) (first' : a ∉ l')
    (same : l ++ a :: rest = l' ++ a :: rest') : l = l' ∧ rest = rest' := by
  induction l generalizing l' with
  | nil =>
    cases l' with
    | nil => exact ⟨rfl, (cons.inj same).2⟩
    | cons b l' => exact absurd ((cons.inj same).1 ▸ mem_cons_self) first'
  | cons b l ih =>
    cases l' with
    | nil => exact absurd ((cons.inj same).1 ▸ mem_cons_self) first
    | cons b' l' =>
      obtain ⟨head, behind⟩ := cons.inj same
      obtain ⟨before, later⟩ := ih (fun mem => first (mem_cons_of_mem _ mem))
        (fun mem => first' (mem_cons_of_mem _ mem)) behind
      exact ⟨by rw [head, before], later⟩

theorem takeWhile_append_stop {p : α → Bool} {a : α} (stop : p a = false) (l rest : List α) :
    (l ++ a :: rest).takeWhile p = l.takeWhile p ∧
      (l ++ a :: rest).dropWhile p = l.dropWhile p ++ a :: rest := by
  induction l with
  | nil => simp [stop]
  | cons b l ih => by_cases h : p b = true <;> simp [h, ih]

theorem mem_of_mem_splitOnP {p : α → Bool} {l part : List α} {a : α}
    (inside : part ∈ l.splitOnP p) (mem : a ∈ part) : a ∈ l := by
  induction l generalizing part with
  | nil =>
    simp only [splitOnP_nil, mem_singleton] at inside
    subst inside
    exact mem
  | cons b rest ih =>
    rw [splitOnP_cons_eq_if_modifyHead] at inside
    split at inside
    · rcases mem_cons.mp inside with rfl | later
      · cases mem
      · exact mem_cons_of_mem _ (ih later mem)
    · cases parts : rest.splitOnP p with
      | nil => exact absurd parts (splitOnP_ne_nil p rest)
      | cons part' others =>
        rw [parts, modifyHead_cons] at inside
        rcases mem_cons.mp inside with rfl | later
        · rcases mem_cons.mp mem with rfl | mem
          · exact mem_cons_self
          · exact mem_cons_of_mem _ (ih (parts ▸ mem_cons_self) mem)
        · exact mem_cons_of_mem _ (ih (parts ▸ mem_cons_of_mem _ later) mem)

theorem intersperse_cons (sep a : α) (l : List α) :
    (a :: l).intersperse sep = a :: l.flatMap fun b => [sep, b] := by
  induction l generalizing a with
  | nil => rfl
  | cons b rest ih =>
    rw [intersperse_cons_cons, ih b]
    rfl

/-- Two members stand in one order or in the other. -/
theorem pair_sublist_or {l : List α} {a b : α} (ha : a ∈ l) (hb : b ∈ l) (apart : a ≠ b) :
    [a, b].Sublist l ∨ [b, a].Sublist l := by
  induction l with
  | nil => cases ha
  | cons c rest ih =>
    rcases mem_cons.mp ha with rfl | ha'
    · have later := (mem_cons.mp hb).resolve_left apart.symm
      exact .inl ((singleton_sublist.mpr later).cons_cons a)
    · rcases mem_cons.mp hb with rfl | hb'
      · exact .inr ((singleton_sublist.mpr ha').cons_cons b)
      · exact (ih ha' hb').imp (·.cons c) (·.cons c)

end Cuts

section Pairs

theorem ne_nil_of_length {l : List α} {l' : List β} (length : l.length = l'.length)
    (some : l ≠ []) :
    l' ≠ [] := by
  rintro rfl
  exact some (eq_nil_of_length_eq_zero length)

theorem forall₂_of_mapM {f : α → Option β} {l : List α} {l' : List β}
    (all : l.mapM f = some l') :
    Forall₂ (fun a b => f a = some b) l l' := by
  induction l generalizing l' with
  | nil =>
    cases all
    exact .nil
  | cons a rest ih =>
    rw [mapM_cons] at all
    obtain ⟨b, here, later⟩ := Option.bind_eq_some_iff.mp all
    obtain ⟨bs, others, whole⟩ := Option.bind_eq_some_iff.mp later
    cases whole
    exact .cons here (ih others)

theorem sum_map_eq_iff {f g : α → Nat} {l : List α} (each : ∀ a ∈ l, f a ≤ g a) :
    (l.map f).sum = (l.map g).sum ↔ ∀ a ∈ l, f a = g a := by
  induction l with
  | nil => simp
  | cons a rest ih =>
    obtain ⟨here, later⟩ := forall_mem_cons.mp each
    have below : (rest.map f).sum ≤ (rest.map g).sum := sum_le_sum later
    rw [forall_mem_cons, ← ih later, map_cons, map_cons, sum_cons, sum_cons]
    omega

end Pairs

end List
