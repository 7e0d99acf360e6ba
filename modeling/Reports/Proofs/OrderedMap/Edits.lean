import Reports.Proofs.List
import Reports.Proofs.OrderedMap

/-! Maps that are edited one entry at a time. What a map holds in the end is read off the history of
its edits: the keys that were written and not erased later, in the order in which they came in, each
with its last value and the updates since. -/
namespace Reports.OrderedMap

variable {κ α σ ω : Type} [DecidableEq κ]

inductive Edit (κ α : Type)
  | write (k : κ) (v : α)
  | update (k : κ) (f : α → α)
  | erase (k : κ)

namespace Edit

def settles (k : κ) : Edit κ α → Bool
  | write j _ => j = k
  | update _ _ => false
  | erase j => j = k

def erases (k : κ) : Edit κ α → Bool
  | erase j => j = k
  | _ => false

def onto (k : κ) (v : α) : Edit κ α → α
  | update j f => if j = k then f v else v
  | _ => v

end Edit

/-- The map after an edit. Only what is there can be updated. -/
def edit (m : OrderedMap κ α) : Edit κ α → OrderedMap κ α
  | .write k v => m.insert k v
  | .update k f =>
    match m.get? k with
    | some v => m.insert k (f v)
    | none => m
  | .erase k => m.erase k

def edit? (m : OrderedMap κ α) (e : Option (Edit κ α)) : OrderedMap κ α := e.elim m m.edit

def edited (m : OrderedMap κ α) (es : List (Edit κ α)) : OrderedMap κ α := es.foldl edit m

/-- What an edit can do to the entries. A new key goes to the end, and a key that is there keeps its
place. -/
inductive Edited (m : OrderedMap κ α) : Edit κ α → OrderedMap κ α → Prop
  | written {k : κ} {v : α} {n : OrderedMap κ α} (written : Written m k v n) :
    Edited m (.write k v) n
  | updated {before after : List (κ × α)} {k : κ} {old : α} (f : α → α)
      (there : m.entries = before ++ (k, old) :: after) (first : k ∉ before.map Prod.fst) :
      Edited m (.update k f) ⟨before ++ (k, f old) :: after⟩
  | absent {k : κ} (f : α → α) (missing : k ∉ m.keys) : Edited m (.update k f) m
  | erased (k : κ) : Edited m (.erase k) ⟨m.entries.filter fun e => decide (e.1 ≠ k)⟩

def Edited? (m : OrderedMap κ α) : Option (Edit κ α) → OrderedMap κ α → Prop
  | some e, n => Edited m e n
  | none, n => n = m

section Step

variable {m : OrderedMap κ α} {k : κ} {v : α}

theorem edited_update (m : OrderedMap κ α) (k : κ) (f : α → α) :
    Edited m (.update k f) (m.edit (.update k f)) := by
  cases found : m.get? k with
  | none =>
    rw [edit, found]
    exact .absent f ((get?_eq_none_iff m k).mp found)
  | some v =>
    have known : k ∈ m.keys := List.mem_map_of_mem (mem_entries_of_get? found)
    have written := written_insert m k (f v)
    have step : m.edit (.update k f) = m.insert k (f v) := by rw [edit, found]
    rw [step]
    generalize m.insert k (f v) = n at written ⊢
    cases written with
    | added new => exact absurd known new
    | @replaced before after old there first =>
      have value : v = old := by
        rw [get?, there, lookup_append_of_notMem first, lookup, if_pos rfl] at found
        exact (Option.some.inj found).symm
      exact value ▸ .updated f there first

theorem edited_edit (m : OrderedMap κ α) (e : Edit κ α) : Edited m e (m.edit e) := by
  cases e with
  | write k v => exact .written (written_insert m k v)
  | update k f => exact edited_update m k f
  | erase k => exact .erased k

theorem edited?_edit? (m : OrderedMap κ α) (e : Option (Edit κ α)) :
    Edited? m e (m.edit? e) := by
  cases e with
  | none => rfl
  | some e => exact edited_edit m e

theorem keys_update (m : OrderedMap κ α) (k : κ) (f : α → α) :
    (m.edit (.update k f)).keys = m.keys := by
  cases found : m.get? k with
  | none => rw [edit, found]
  | some v =>
    have known : k ∈ m.keys := List.mem_map_of_mem (mem_entries_of_get? found)
    rw [edit, found, keys_insert, if_pos known]

theorem notMem_edit {e : Edit κ α} (unwritten : ∀ v, e ≠ .write k v) (absent : k ∉ m.keys) :
    k ∉ (m.edit e).keys := by
  cases e with
  | write j v =>
    have other : k ≠ j := fun same => unwritten v (same ▸ rfl)
    rw [edit, mem_keys_insert]
    exact not_or.mpr ⟨other, absent⟩
  | update j f => rwa [keys_update]
  | erase j =>
    rw [edit, keys_erase]
    exact fun mem => absent (List.mem_filter.mp mem).1

theorem get?_edit {e : Edit κ α} (stays : e.settles k = false) (found : m.get? k = some v) :
    (m.edit e).get? k = some (e.onto k v) := by
  cases e with
  | write j w =>
    have other : j ≠ k := by simpa [Edit.settles] using stays
    rw [edit, get?_insert, if_neg other, found]
    rfl
  | erase j =>
    have other : j ≠ k := by simpa [Edit.settles] using stays
    rw [edit, get?, erase, lookup_filter (fun i => decide (i ≠ j)) (decide_eq_true other.symm)]
    exact found
  | update j f =>
    rw [edit, Edit.onto]
    by_cases same : j = k
    · subst same
      rw [found, if_pos rfl]
      exact (get?_insert ..).trans (if_pos rfl)
    · rw [if_neg same]
      split
      · exact (get?_insert ..).trans ((if_neg same).trans found)
      · exact found

end Step

/-- The keys that are written and not erased later, in the order of the writes. -/
def standing : List (Edit κ α) → List κ
  | [] => []
  | .write k _ :: rest => if rest.any (Edit.erases k) then standing rest else k :: standing rest
  | _ :: rest => standing rest

/-- A map that has come from nothing by a history of edits. -/
structure Recounts (es : List (Edit κ α)) (m : OrderedMap κ α) : Prop where
  keys : m.keys = (standing es).eraseDups
  values : ∀ before k v after, es = before ++ .write k v :: after →
    (∀ e ∈ after, e.settles k = false) → m.get? k = some (after.foldl (Edit.onto k) v)

section Run

variable (es : List (Edit κ α)) (k : κ)

theorem standing_concat_write (v : α) : standing (es ++ [.write k v]) = standing es ++ [k] := by
  induction es with
  | nil => rfl
  | cons e rest ih =>
    cases e with
    | write j w =>
      rw [List.cons_append, standing, standing, ih]
      simp only [List.any_append, List.any_cons, Edit.erases, List.any_nil, Bool.or_false]
      split <;> rfl
    | update j f => exact ih
    | erase j => exact ih

theorem standing_concat_update (f : α → α) : standing (es ++ [.update k f]) = standing es := by
  induction es with
  | nil => rfl
  | cons e rest ih =>
    cases e with
    | write j w =>
      rw [List.cons_append, standing, standing, ih]
      simp only [List.any_append, List.any_cons, Edit.erases, List.any_nil, Bool.or_false]
    | update j f => exact ih
    | erase j => exact ih

theorem standing_concat_erase :
    standing (es ++ [.erase k]) = (standing es).filter fun j => decide (j ≠ k) := by
  induction es with
  | nil => rfl
  | cons e rest ih =>
    cases e with
    | write j w =>
      rw [List.cons_append, standing, standing, ih]
      by_cases gone : rest.any (Edit.erases j) = true
      · simp [gone]
      · by_cases same : k = j
        · simp [gone, same, Edit.erases]
        · simp [gone, same, Edit.erases, Ne.symm same]
    | update j f => exact ih
    | erase j => exact ih

variable {es k}

theorem edited_concat (m : OrderedMap κ α) (es : List (Edit κ α)) (e : Edit κ α) :
    m.edited (es ++ [e]) = (m.edited es).edit e := List.foldl_concat ..

theorem keys_edited (es : List (Edit κ α)) :
    ((∅ : OrderedMap κ α).edited es).keys = (standing es).eraseDups := by
  -- From the last edit: it does to the keys what it does to those that stand.
  induction es using List.reverseRecOn with
  | nil => rfl
  | append_singleton es e ih =>
    rw [edited_concat]
    cases e with
    | write k v =>
      rw [edit, keys_insert, ih, standing_concat_write, List.eraseDups_concat]
      simp only [List.mem_eraseDups]
    | update k f => rw [keys_update, ih, standing_concat_update]
    | erase k => rw [edit, keys_erase, ih, standing_concat_erase, List.filter_eraseDups]

theorem notMem_edited {m : OrderedMap κ α} (absent : k ∉ m.keys)
    (unwritten : ∀ e ∈ es, ∀ v, e ≠ .write k v) : k ∉ (m.edited es).keys := by
  induction es generalizing m with
  | nil => exact absent
  | cons e rest ih =>
    obtain ⟨here, later⟩ := List.forall_mem_cons.mp unwritten
    exact ih (notMem_edit here absent) later

theorem entries_insertAgain (m : OrderedMap κ α) (k : κ) (v : α)
    (unwritten : ∀ e ∈ es, ∀ w, e ≠ .write k w) :
    (((m.erase k).edited es).insert k v).entries = ((m.erase k).edited es).entries ++ [(k, v)] := by
  have absent : k ∉ (m.erase k).keys := by simp [keys_erase]
  exact entries_insert_of_notMem (notMem_edited absent unwritten) v

theorem get?_edited {m : OrderedMap κ α} {v : α} (found : m.get? k = some v)
    (stays : ∀ e ∈ es, e.settles k = false) :
    (m.edited es).get? k = some (es.foldl (Edit.onto k) v) := by
  induction es generalizing m v with
  | nil => exact found
  | cons e rest ih =>
    obtain ⟨here, later⟩ := List.forall_mem_cons.mp stays
    exact ih (get?_edit here found) later

theorem recounts_edited (es : List (Edit κ α)) :
    Recounts es ((∅ : OrderedMap κ α).edited es) := by
  refine ⟨keys_edited es, ?_⟩
  rintro before k v after rfl stays
  rw [edited, List.foldl_append, List.foldl_cons]
  have found : (((∅ : OrderedMap κ α).edited before).insert k v).get? k = some v :=
    (get?_insert ..).trans (if_pos rfl)
  exact get?_edited found stays

theorem Recounts.nodup {m : OrderedMap κ α} (told : Recounts es m) : m.keys.Nodup :=
  told.keys ▸ List.nodup_eraseDups _

end Run

section Steps

variable {step : σ → ω → σ} (view : σ → OrderedMap κ α)
  {made : ω → Option (Edit κ α)}
  (one : ∀ s x, view (step s x) = (view s).edit? (made x))

include one

/-- If a step makes at most one edit, a run makes those of its steps. -/
theorem edited_of_steps (s : σ) (xs : List ω) :
    view (xs.foldl step s) = (view s).edited (xs.filterMap made) := by
  induction xs generalizing s with
  | nil => rfl
  | cons x rest ih =>
    rw [List.foldl_cons, ih, one]
    cases chosen : made x with
    | none => rw [List.filterMap_cons_none chosen]; rfl
    | some e => rw [List.filterMap_cons_some chosen]; rfl

theorem recounts_of_steps {s : σ} (start : view s = ∅) (xs : List ω) :
    Recounts (xs.filterMap made) (view (xs.foldl step s)) := by
  rw [edited_of_steps view one, start]
  exact recounts_edited _

end Steps

end Reports.OrderedMap
