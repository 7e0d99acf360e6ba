import Reports.OrderedMap
import Mathlib.Data.List.Nodup

/-! Laws of writing entries into a map: which keys and values a map has after another one was
written over it, and that leaving out keys commutes with writing. -/
namespace Reports.OrderedMap

variable {κ α : Type}

@[simp] theorem keys_empty : (∅ : OrderedMap κ α).keys = [] := rfl

def mapKeys {κ' : Type} (f : κ → κ') (m : OrderedMap κ α) : OrderedMap κ' α :=
  ⟨m.entries.map fun e => (f e.1, e.2)⟩

theorem keys_mapKeys {κ' : Type} (f : κ → κ') (m : OrderedMap κ α) :
    (m.mapKeys f).keys = m.keys.map f := by
  simp [mapKeys, keys]

theorem mapKeys_mapKeys_id {κ' : Type} (f : κ → κ') (g : κ' → κ) (m : OrderedMap κ α)
    (back : ∀ k, g (f k) = k) : (m.mapKeys f).mapKeys g = m := by
  obtain ⟨es⟩ := m
  have same : (fun e : κ × α => (g (f e.1), e.2)) = id := funext fun e => by rw [back]; rfl
  simp only [mapKeys, List.map_map, Function.comp_def, same, List.map_id]

variable [DecidableEq κ]

@[simp] theorem mem_keys_insert (m : OrderedMap κ α) (k j : κ) (v : α) :
    j ∈ (m.insert k v).keys ↔ j = k ∨ j ∈ m.keys := by
  rw [keys_insert]
  by_cases known : k ∈ m.keys
  · simp only [known, if_true]
    exact ⟨Or.inr, fun h => h.elim (fun e => e ▸ known) id⟩
  · simp only [known, if_false, List.mem_append, List.mem_singleton]
    exact or_comm

theorem entries_insert_of_notMem {m : OrderedMap κ α} {k : κ} (new : k ∉ m.keys) (v : α) :
    (m.insert k v).entries = m.entries ++ [(k, v)] := by
  obtain ⟨es⟩ := m
  simp only [insert, keys] at new ⊢
  induction es with
  | nil => rfl
  | cons e rest ih =>
    obtain ⟨other, new⟩ := not_or.mp (List.mem_cons.not.mp new)
    rw [write, if_neg (Ne.symm other), ih new, List.cons_append]

theorem merge_cons (m : OrderedMap κ α) (k : κ) (v : α) (rest : List (κ × α)) :
    m.merge ⟨(k, v) :: rest⟩ = (m.insert k v).merge ⟨rest⟩ := rfl

@[simp] theorem merge_empty (m : OrderedMap κ α) : m.merge ∅ = m := rfl

@[simp] theorem mem_keys_merge (m n : OrderedMap κ α) (k : κ) :
    k ∈ (m.merge n).keys ↔ k ∈ m.keys ∨ k ∈ n.keys := by
  obtain ⟨es⟩ := n
  induction es generalizing m with
  | nil => simp [merge, keys]
  | cons e rest ih =>
    rw [merge_cons, ih, mem_keys_insert]
    simp only [keys, List.map_cons, List.mem_cons]
    exact or_assoc.trans or_left_comm

theorem keys_merge (m n : OrderedMap κ α) :
    (m.merge n).keys = n.keys.foldl (fun ks k => if k ∈ ks then ks else ks ++ [k]) m.keys := by
  obtain ⟨es⟩ := n
  induction es generalizing m with
  | nil => rfl
  | cons e rest ih =>
    rw [merge_cons, ih, keys_insert]
    rfl

theorem keys_erase (m : OrderedMap κ α) (k : κ) :
    (m.erase k).keys = m.keys.filter fun j => decide (j ≠ k) := by
  rw [keys, keys, List.filter_map]
  rfl

theorem nodup_keys_insert {m : OrderedMap κ α} (distinct : m.keys.Nodup) (k : κ) (v : α) :
    (m.insert k v).keys.Nodup := by
  rw [keys_insert]
  split
  · exact distinct
  · next new => exact List.concat_eq_append ▸ distinct.concat new

theorem nodup_keys_merge {m : OrderedMap κ α} (distinct : m.keys.Nodup) (n : OrderedMap κ α) :
    (m.merge n).keys.Nodup := by
  obtain ⟨es⟩ := n
  induction es generalizing m with
  | nil => exact distinct
  | cons e rest ih => exact ih (nodup_keys_insert distinct e.1 e.2)

theorem get?_eq_none_iff (m : OrderedMap κ α) (k : κ) : m.get? k = none ↔ k ∉ m.keys := by
  obtain ⟨es⟩ := m
  induction es with
  | nil => simp [get?, lookup, keys]
  | cons e rest ih =>
    obtain ⟨j, v⟩ := e
    by_cases h : j = k
    · simp [get?, lookup, keys, h]
    · have h' : k ≠ j := fun e => h e.symm
      simpa [get?, lookup, keys, h, h'] using ih

theorem mem_entries_of_get? {m : OrderedMap κ α} {k : κ} {v : α} (found : m.get? k = some v) :
    (k, v) ∈ m.entries := by
  obtain ⟨es⟩ := m
  induction es with
  | nil => simp [get?, lookup] at found
  | cons e rest ih =>
    obtain ⟨j, w⟩ := e
    by_cases h : j = k
    · simp only [get?, lookup, h, if_true, Option.some.injEq] at found
      rw [h, found]
      exact List.mem_cons_self
    · simp only [get?, lookup, h, if_false] at found
      exact List.mem_cons_of_mem _ (ih found)

theorem get?_merge_of_notMem {m n : OrderedMap κ α} {k : κ} (other : k ∉ n.keys) :
    (m.merge n).get? k = m.get? k := by
  obtain ⟨es⟩ := n
  induction es generalizing m with
  | nil => rfl
  | cons e rest ih =>
    obtain ⟨here, later⟩ := not_or.mp (List.mem_cons.not.mp other)
    rw [merge_cons, ih later, get?_insert, if_neg (Ne.symm here)]

theorem get?_of_mem_entries {m : OrderedMap κ α} (distinct : m.keys.Nodup) {k : κ} {v : α}
    (mem : (k, v) ∈ m.entries) : m.get? k = some v := by
  obtain ⟨es⟩ := m
  simp only [get?, keys] at distinct ⊢
  induction es with
  | nil => cases mem
  | cons e rest ih =>
    obtain ⟨once, distinct⟩ := List.nodup_cons.mp distinct
    rcases List.mem_cons.mp mem with rfl | later
    · exact if_pos rfl
    · have other : e.1 ≠ k := fun same => once (same ▸ List.mem_map_of_mem later)
      rw [lookup, if_neg other, ih distinct later]

theorem lookup_append_of_notMem {k : κ} {before : List (κ × α)}
    (other : k ∉ before.map Prod.fst) (rest : List (κ × α)) :
    lookup k (before ++ rest) = lookup k rest := by
  induction before with
  | nil => rfl
  | cons e before ih =>
    obtain ⟨here, later⟩ := not_or.mp (List.mem_cons.not.mp other)
    rw [List.cons_append, lookup, if_neg (Ne.symm here), ih later]

theorem filter_key {m : OrderedMap κ α} (distinct : m.keys.Nodup) (k : κ) :
    (m.entries.filter fun e => decide (e.1 = k)) = ((m.get? k).map (k, ·)).toList := by
  obtain ⟨es⟩ := m
  simp only [get?, keys] at distinct ⊢
  induction es with
  | nil => rfl
  | cons e rest ih =>
    obtain ⟨once, distinct⟩ := List.nodup_cons.mp distinct
    by_cases here : e.1 = k
    · have none : (rest.filter fun e => decide (e.1 = k)) = [] := by
        refine List.filter_eq_nil_iff.mpr fun d mem same => once ?_
        rw [here, ← of_decide_eq_true same]
        exact List.mem_map_of_mem mem
      rw [List.filter_cons_of_pos (by simpa using here), none, lookup, if_pos here, ← here]
      rfl
    · rw [List.filter_cons_of_neg (by simpa using here), ih distinct, lookup, if_neg here]

theorem get?_merge_of_mem {m n : OrderedMap κ α} (distinct : n.keys.Nodup) {k : κ} {v : α}
    (mem : (k, v) ∈ n.entries) : (m.merge n).get? k = some v := by
  obtain ⟨es⟩ := n
  induction es generalizing m with
  | nil => cases mem
  | cons e rest ih =>
    obtain ⟨once, distinct⟩ := List.nodup_cons.mp distinct
    rw [merge_cons]
    rcases List.mem_cons.mp mem with rfl | later
    · rw [get?_merge_of_notMem once, get?_insert, if_pos rfl]
    · exact ih distinct later

theorem insert_of_get? {m : OrderedMap κ α} {k : κ} {v : α} (there : m.get? k = some v) :
    m.insert k v = m := by
  obtain ⟨es⟩ := m
  apply congrArg OrderedMap.mk
  simp only [get?] at there
  induction es with
  | nil => cases there
  | cons e rest ih =>
    obtain ⟨j, w⟩ := e
    by_cases same : j = k
    · subst same
      rw [lookup, if_pos rfl] at there
      cases there
      rw [write, if_pos rfl]
    · rw [lookup, if_neg same] at there
      rw [write, if_neg same, ih there]

theorem insert_insert (m : OrderedMap κ α) (k : κ) (v w : α) :
    (m.insert k v).insert k w = m.insert k w := by
  obtain ⟨es⟩ := m
  apply congrArg OrderedMap.mk
  change write k w (write k v es) = write k w es
  induction es with
  | nil => exact if_pos rfl
  | cons e rest ih =>
    obtain ⟨j, x⟩ := e
    by_cases same : j = k
    · simp [write, same]
    · simp [write, same, ih]

/-- A key that is there keeps its place, so writing it commutes with writing others. -/
theorem insert_comm {m : OrderedMap κ α} {k j : κ} (known : k ∈ m.keys)
    (other : j ≠ k) (v w : α) : (m.insert k v).insert j w = (m.insert j w).insert k v := by
  obtain ⟨es⟩ := m
  apply congrArg OrderedMap.mk
  change write j w (write k v es) = write k v (write j w es)
  change k ∈ es.map Prod.fst at known
  induction es with
  | nil => cases known
  | cons e rest ih =>
    obtain ⟨i, x⟩ := e
    by_cases first : i = k
    · subst first
      simp [write, other.symm]
    · have later := ih ((List.mem_cons.mp known).resolve_left (Ne.symm first))
      by_cases second : i = j
      · simp [write, second, other]
      · simp [write, first, second, later]

theorem erase_insert (m : OrderedMap κ α) (k : κ) (v : α) :
    (m.insert k v).erase k = m.erase k := by
  obtain ⟨es⟩ := m
  apply congrArg OrderedMap.mk
  change (write k v es).filter _ = es.filter _
  induction es with
  | nil => simp [write]
  | cons e rest ih =>
    obtain ⟨j, w⟩ := e
    by_cases same : j = k
    · simp [write, same]
    · rw [write, if_neg same, List.filter_cons_of_pos (by simpa using same),
        List.filter_cons_of_pos (by simpa using same), ih]

/-- Entries that agree with a map only add their new keys to it. -/
theorem entries_merge_of_agree {m : OrderedMap κ α} {es : List (κ × α)}
    (agree : ∀ e ∈ es, e.1 ∈ m.keys → m.get? e.1 = some e.2)
    (distinct : (es.map Prod.fst).Nodup) :
    (m.merge ⟨es⟩).entries = m.entries ++ es.filter fun e => decide (e.1 ∉ m.keys) := by
  induction es generalizing m with
  | nil => exact (List.append_nil _).symm
  | cons e rest ih =>
    obtain ⟨once, distinct⟩ := List.nodup_cons.mp distinct
    have others : ∀ d ∈ rest, d.1 ∈ m.keys → m.get? d.1 = some d.2 := fun d mem =>
      agree d (List.mem_cons_of_mem _ mem)
    rw [merge_cons]
    by_cases known : e.1 ∈ m.keys
    · rw [insert_of_get? (agree e List.mem_cons_self known), ih others distinct,
        List.filter_cons_of_neg (by simpa using known)]
    · have apart (d : κ × α) (mem : d ∈ rest) : d.1 ≠ e.1 := fun same =>
        once (same ▸ List.mem_map_of_mem mem)
      have later : ∀ d ∈ rest, d.1 ∈ (m.insert e.1 e.2).keys →
          (m.insert e.1 e.2).get? d.1 = some d.2 := by
        intro d mem inside
        rw [get?_insert, if_neg (apart d mem).symm]
        exact others d mem (((mem_keys_insert m e.1 d.1 e.2).mp inside).resolve_left (apart d mem))
      have same : rest.filter (fun d => decide (d.1 ∉ (m.insert e.1 e.2).keys)) =
          rest.filter fun d => decide (d.1 ∉ m.keys) := by
        apply List.filter_congr
        intro d mem
        simp [apart d mem]
      rw [ih later distinct, same, entries_insert_of_notMem known, List.append_assoc,
        List.filter_cons_of_pos (by simpa using known)]
      rfl

theorem entries_merge_of_nodup {m n : OrderedMap κ α} (distinct : (m.keys ++ n.keys).Nodup) :
    (m.merge n).entries = m.entries ++ n.entries := by
  obtain ⟨-, later, apart⟩ := List.nodup_append.mp distinct
  have new : ∀ e ∈ n.entries, e.1 ∉ m.keys := fun e mem known =>
    apart _ known _ (List.mem_map_of_mem mem) rfl
  have all : (n.entries.filter fun e => decide (e.1 ∉ m.keys)) = n.entries :=
    List.filter_eq_self.mpr fun e mem => decide_eq_true (new e mem)
  have entries :=
    entries_merge_of_agree (m := m) (fun e mem known => absurd known (new e mem)) later
  rwa [all] at entries

theorem empty_merge {m : OrderedMap κ α} (distinct : m.keys.Nodup) :
    (∅ : OrderedMap κ α).merge m = m :=
  congrArg OrderedMap.mk (entries_merge_of_nodup distinct)

theorem lookup_filter (kept : κ → Bool) {k : κ} (keeps : kept k = true) (es : List (κ × α)) :
    lookup k (es.filter fun e => kept e.1) = lookup k es := by
  induction es with
  | nil => rfl
  | cons e rest ih =>
    by_cases here : e.1 = k
    · simp [lookup, here, keeps]
    · by_cases stays : kept e.1 = true
      · simp [lookup, here, stays, ih]
      · simp [lookup, here, stays, ih]

theorem mem_entries_write {k : κ} {v : α} {es : List (κ × α)} {e : κ × α}
    (mem : e ∈ write k v es) : e = (k, v) ∨ e ∈ es := by
  induction es with
  | nil => exact Or.inl (List.mem_singleton.mp mem)
  | cons d rest ih =>
    obtain ⟨j, w⟩ := d
    by_cases same : j = k
    · rw [write, if_pos same] at mem
      exact (List.mem_cons.mp mem).imp_right (List.mem_cons_of_mem _)
    · rw [write, if_neg same] at mem
      rcases List.mem_cons.mp mem with here | later
      · exact Or.inr (here ▸ List.mem_cons_self)
      · exact (ih later).imp_right (List.mem_cons_of_mem _)

theorem mem_entries_merge {m n : OrderedMap κ α} {e : κ × α}
    (mem : e ∈ (m.merge n).entries) :
    e ∈ m.entries ∨ e ∈ n.entries := by
  obtain ⟨es⟩ := n
  induction es generalizing m with
  | nil => exact Or.inl mem
  | cons d rest ih =>
    rw [merge_cons] at mem
    rcases ih mem with written | later
    · rcases mem_entries_write written with here | before
      · exact Or.inr (here ▸ List.mem_cons_self)
      · exact Or.inl before
    · exact Or.inr (List.mem_cons_of_mem _ later)

/-- One entry more, or another value at the first entry with the key. -/
inductive Written (m : OrderedMap κ α) (k : κ) (v : α) : OrderedMap κ α → Prop
  | added (new : k ∉ m.keys) : Written m k v ⟨m.entries ++ [(k, v)]⟩
  | replaced {before after : List (κ × α)} {old : α}
    (there : m.entries = before ++ (k, old) :: after)
      (first : k ∉ before.map Prod.fst) : Written m k v ⟨before ++ (k, v) :: after⟩

def Updated (m : OrderedMap κ α) : Option (κ × α) → OrderedMap κ α → Prop
  | some (k, v), n => Written m k v n
  | none, n => n = m

theorem written_insert (m : OrderedMap κ α) (k : κ) (v : α) : Written m k v (m.insert k v) := by
  obtain ⟨es⟩ := m
  induction es with
  | nil => exact .added (List.not_mem_nil)
  | cons e rest ih =>
    obtain ⟨j, w⟩ := e
    by_cases same : j = k
    · subst same
      have here : (⟨(j, w) :: rest⟩ : OrderedMap κ α).insert j v =
          ⟨[] ++ (j, v) :: rest⟩ :=
        congrArg mk (if_pos rfl)
      rw [here]
      exact .replaced rfl List.not_mem_nil
    · have later : (⟨(j, w) :: rest⟩ : OrderedMap κ α).insert k v =
          ⟨(j, w) :: ((⟨rest⟩ : OrderedMap κ α).insert k v).entries⟩ :=
        congrArg mk (if_neg same)
      rw [later]
      generalize (⟨rest⟩ : OrderedMap κ α).insert k v = m at ih ⊢
      cases ih with
      | added new => exact .added (List.not_mem_cons_of_ne_of_not_mem (Ne.symm same) new)
      | @replaced before after old there first =>
        have first' : k ∉ ((j, w) :: before).map Prod.fst :=
          List.not_mem_cons_of_ne_of_not_mem (Ne.symm same) first
        exact .replaced (congrArg (List.cons (j, w)) there) first'

omit [DecidableEq κ] in
theorem Written.mem_entries {m n : OrderedMap κ α} {k : κ} {v : α} (written : Written m k v n)
    {e : κ × α} (mem : e ∈ n.entries) : e = (k, v) ∨ e ∈ m.entries := by
  cases written with
  | added => exact (List.mem_append.mp mem).symm.imp_left List.mem_singleton.mp
  | replaced there =>
    rw [there]
    rcases List.mem_append.mp mem with before | here
    · exact .inr (List.mem_append_left _ before)
    · exact (List.mem_cons.mp here).imp_right fun after =>
        List.mem_append_right _ (List.mem_cons_of_mem _ after)

section MapKeys

-- A map may be written to before or after its keys get other names, as long as different keys stay
-- different.

variable {κ' : Type} [DecidableEq κ'] (f : κ → κ') (p : κ → Prop)
  (inj : ∀ a b, p a → p b → f a = f b → a = b)

include inj

theorem lookup_map {k : κ} (hk : p k) (es : List (κ × α)) (he : ∀ e ∈ es, p e.1) :
    lookup (f k) (es.map fun e => (f e.1, e.2)) = lookup k es := by
  induction es with
  | nil => rfl
  | cons e rest ih =>
    have later := ih fun d hd => he d (List.mem_cons_of_mem _ hd)
    have same : f e.1 = f k ↔ e.1 = k :=
      ⟨inj e.1 k (he e List.mem_cons_self) hk, congrArg f⟩
    simp only [List.map_cons, lookup, same, later]

theorem write_map {k : κ} (hk : p k) (v : α) (es : List (κ × α)) (he : ∀ e ∈ es, p e.1) :
    write (f k) v (es.map fun e => (f e.1, e.2)) = (write k v es).map fun e => (f e.1, e.2) := by
  induction es with
  | nil => rfl
  | cons e rest ih =>
    have later := ih fun d hd => he d (List.mem_cons_of_mem _ hd)
    have same : f e.1 = f k ↔ e.1 = k :=
      ⟨inj e.1 k (he e List.mem_cons_self) hk, congrArg f⟩
    simp only [List.map_cons, write, same, later]
    split <;> rfl

theorem get?_mapKeys {k : κ} (hk : p k) (m : OrderedMap κ α) (hm : ∀ j ∈ m.keys, p j) :
    (m.mapKeys f).get? (f k) = m.get? k :=
  lookup_map f p inj hk m.entries fun _ he => hm _ (List.mem_map_of_mem he)

theorem mapKeys_insert {k : κ} (hk : p k) (v : α) (m : OrderedMap κ α)
    (hm : ∀ j ∈ m.keys, p j) : (m.insert k v).mapKeys f = (m.mapKeys f).insert (f k) v := by
  have written := write_map f p inj hk v m.entries fun _ he => hm _ (List.mem_map_of_mem he)
  simp only [insert, mapKeys, written]

theorem mapKeys_merge (m n : OrderedMap κ α) (hm : ∀ j ∈ m.keys, p j)
    (hn : ∀ j ∈ n.keys, p j) : (m.merge n).mapKeys f = (m.mapKeys f).merge (n.mapKeys f) := by
  obtain ⟨es⟩ := n
  induction es generalizing m with
  | nil => rfl
  | cons e rest ih =>
    have he : p e.1 := hn e.1 List.mem_cons_self
    have inserted : ∀ j ∈ (m.insert e.1 e.2).keys, p j := fun j hj =>
      ((mem_keys_insert m e.1 j e.2).mp hj).elim (fun same => same ▸ he) (hm j)
    have rest_ok : ∀ j ∈ (⟨rest⟩ : OrderedMap κ α).keys, p j := fun j hj =>
      hn j (List.mem_cons_of_mem _ hj)
    rw [merge_cons, ih _ inserted rest_ok, mapKeys_insert f p inj he e.2 m hm]
    rfl

end MapKeys

def mergeAll (m : OrderedMap κ α) (ns : List (OrderedMap κ α)) : OrderedMap κ α :=
  ns.foldl merge m

@[simp] theorem mergeAll_nil (m : OrderedMap κ α) : m.mergeAll [] = m := rfl

@[simp] theorem mergeAll_cons (m n : OrderedMap κ α) (ns : List (OrderedMap κ α)) :
    m.mergeAll (n :: ns) = (m.merge n).mergeAll ns := rfl

@[simp] theorem mem_keys_mergeAll (m : OrderedMap κ α) (ns : List (OrderedMap κ α)) (k : κ) :
    k ∈ (m.mergeAll ns).keys ↔ k ∈ m.keys ∨ ∃ n ∈ ns, k ∈ n.keys := by
  induction ns generalizing m with
  | nil => simp
  | cons n rest ih => simp [ih, or_assoc]

theorem mem_entries_mergeAll {m : OrderedMap κ α} {ns : List (OrderedMap κ α)} {e : κ × α}
    (mem : e ∈ (m.mergeAll ns).entries) : e ∈ m.entries ∨ ∃ n ∈ ns, e ∈ n.entries := by
  induction ns generalizing m with
  | nil => exact Or.inl mem
  | cons n rest ih =>
    rcases ih mem with merged | ⟨k, hk, inside⟩
    · exact (mem_entries_merge merged).imp_right fun h => ⟨n, List.mem_cons_self, h⟩
    · exact Or.inr ⟨k, List.mem_cons_of_mem _ hk, inside⟩

theorem mapKeys_mergeAll {κ' : Type} [DecidableEq κ'] (f : κ → κ') (p : κ → Prop)
    (inj : ∀ a b, p a → p b → f a = f b → a = b) (m : OrderedMap κ α)
    (ns : List (OrderedMap κ α)) (hm : ∀ j ∈ m.keys, p j)
    (hn : ∀ n ∈ ns, ∀ j ∈ n.keys, p j) :
    (m.mergeAll ns).mapKeys f = (m.mapKeys f).mergeAll (ns.map fun n => n.mapKeys f) := by
  induction ns generalizing m with
  | nil => rfl
  | cons n rest ih =>
    have hn' : ∀ j ∈ n.keys, p j := hn n List.mem_cons_self
    have merged : ∀ j ∈ (m.merge n).keys, p j := fun j hj =>
      ((mem_keys_merge m n j).mp hj).elim (hm j) (hn' j)
    rw [mergeAll_cons, ih _ merged fun k hk => hn k (List.mem_cons_of_mem _ hk),
      mapKeys_merge f p inj m n hm hn']
    rfl

end Reports.OrderedMap
