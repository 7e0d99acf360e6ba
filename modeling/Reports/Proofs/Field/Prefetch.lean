import Reports.Proofs.Ascending
import Reports.Proofs.Field.LabelStatement
import Reports.Proofs.Report.Stages

/-! How labels are loaded: those that are missing and no others, with one statement, whose rows go
under the key of the lookup. -/
namespace Reports

namespace Storage

variable {st : Storage} {x : Sql.Statement} {b : Sql.Bound} {s : Session}

theorem fetch_of_ok {found : List Row} (bound : x.bind st.dialect = .ok b)
    (answer : st.answer s.served b = .ok found) : st.fetch x s =
      (.ok found, { s with served := s.served + 1, calls := s.calls ++ [⟨x, some b⟩] }) := by
  rw [fetch, bound]
  simp only [answer]

theorem fetch_of_error {reason : String} (bound : x.bind st.dialect = .ok b)
    (answer : st.answer s.served b = .error reason) : st.fetch x s =
      (.error (.execution reason x.sql x.params),
        { s with served := s.served + 1, calls := s.calls ++ [⟨x, some b⟩] }) := by
  rw [fetch, bound]
  simp only [answer]

end Storage

namespace Field

open Sql (Dialect Statement Bound Template)

namespace Lookup

def keyOf (row : Row) : Option String := (row.get? "k").bind Json.cellText?

/-- The label that a row has; none is empty. -/
def labelOf (row : Row) : String := ((row.get? "label").bind Json.cellText?).getD ""

theorem entryOfRow_eq (row : Row) :
    entryOfRow row = (keyOf row).map fun id => (id, labelOf row) := by
  cases cell : row.get? "k" with
  | none => simp [entryOfRow, keyOf, cell]
  | some v => cases text : v.cellText? <;> simp [entryOfRow, keyOf, labelOf, cell, text]

def Lacks (found : List Row) (id : String) : Prop := ∀ row ∈ found, keyOf row ≠ some id

/-- The last of the rows that have a label for the id. -/
def LastFor (found : List Row) (id : String) (row : Row) : Prop :=
  ∃ before after, found = before ++ row :: after ∧ keyOf row = some id ∧ Lacks after id

theorem lacks_or_lastFor (found : List Row) (id : String) :
    Lacks found id ∨ ∃ row, LastFor found id row := by
  induction found with
  | nil => exact .inl fun _ mem => absurd mem List.not_mem_nil
  | cons first rest ih =>
    rcases ih with none | ⟨row, before, after, rfl, last⟩
    · by_cases here : keyOf first = some id
      · exact .inr ⟨first, [], rest, rfl, here, none⟩
      · exact .inl (List.forall_mem_cons.mpr ⟨here, none⟩)
    · exact .inr ⟨row, first :: before, after, rfl, last⟩

theorem notMem_entries_iff {found : List Row} {id : String} :
    id ∉ (found.filterMap entryOfRow).map Prod.fst ↔ Lacks found id := by
  have keys : (found.filterMap entryOfRow).map Prod.fst = found.filterMap keyOf := by
    rw [List.map_filterMap]
    refine List.filterMap_congr fun row _ => ?_
    rw [entryOfRow_eq]
    cases keyOf row <;> rfl
  simp only [keys, List.mem_filterMap, not_exists, not_and]
  exact Iff.rfl

/-- A call for the labels of some ids. The names in it are safe, and its values are the ids. -/
structure Asks (l : Lookup) (d : Dialect) (ids : List String) (x : Statement) (b : Bound) :
    Prop where
  safe : ∀ name ∈ l.names, isSafe name = true
  text : ∃ n m, (l.template d ids).fill n = (.ok x, m)
  bound : x.bind d = .ok b
  values : b.values = ids.map .string

theorem exists_asks {l : Lookup} (safe : l.Safe) {ids : List String} (some : ids ≠ [])
    (d : Dialect) (n : Nat) :
    ∃ x m b, (l.query d ids).render d n = (.ok x, m) ∧ l.Asks d ids x b := by
  have filled := Template.fill_bare (t := l.template d ids) rfl n
  obtain ⟨b, bound, values⟩ := Template.bind_fillPieces (plain_template safe d ids) n d
  exact ⟨_, _, b, (render_query safe some d n).trans filled, safe, ⟨_, _, filled⟩, bound,
    values.trans (Template.holeValues_inOrEqual _ _ _)⟩

end Lookup

namespace Labels

open Lookup (Lacks LastFor keyOf labelOf)

def learn (ls : Labels) (l : Lookup) (found : List Row) : Labels :=
  ls.insertMany l (found.filterMap Lookup.entryOfRow)

variable {ls : Labels} {l l' : Lookup} {found : List Row} {id : String}

theorem get?_congr (same : l'.key = l.key) (ls : Labels) (id : String) :
    ls.get? l' id = ls.get? l id := by
  rw [get?, get?, same]

theorem get?_insertMany (ls : Labels) (l : Lookup) (entries : List (String × String))
    (id : String) : (ls.insertMany l entries).get? l id =
      (((ls.tables.get? l.key).getD ∅).merge ⟨entries⟩).get? id := by
  rw [get?, insertMany, OrderedMap.get?_insert, if_pos rfl]
  rfl

theorem get?_learn_of_ne (apart : l'.key ≠ l.key) :
    (ls.learn l found).get? l' id = ls.get? l' id := by
  rw [get?, learn, insertMany, OrderedMap.get?_insert, if_neg apart.symm]
  rfl

theorem get?_learn_of_lacks (lacks : Lacks found id) :
    (ls.learn l found).get? l' id = ls.get? l' id := by
  by_cases same : l'.key = l.key
  · have old : ((ls.tables.get? l.key).getD ∅).get? id = ls.get? l id := by
      rw [get?]
      cases ls.tables.get? l.key <;> rfl
    rw [get?_congr same, get?_congr same, learn, get?_insertMany,
      OrderedMap.get?_merge_of_notMem (Lookup.notMem_entries_iff.mpr lacks), old]
  · exact get?_learn_of_ne same

theorem get?_learn_of_lastFor (same : l'.key = l.key) {row : Row} (last : LastFor found id row) :
    (ls.learn l found).get? l' id = some (labelOf row) := by
  obtain ⟨before, after, rfl, here, none⟩ := last
  have entry : Lookup.entryOfRow row = some (id, labelOf row) := by
    rw [Lookup.entryOfRow_eq, here]; rfl
  have split (m : OrderedMap String String) (es fs : List (String × String)) :
      m.merge ⟨es ++ (id, labelOf row) :: fs⟩ =
        ((m.merge ⟨es⟩).insert id (labelOf row)).merge ⟨fs⟩ :=
    List.foldl_append
  rw [get?_congr same, learn, get?_insertMany, List.filterMap_append,
    List.filterMap_cons_some entry, split, OrderedMap.get?_merge_of_notMem
      (Lookup.notMem_entries_iff.mpr none), OrderedMap.get?_insert, if_pos rfl]

theorem isSome_get?_learn (l : Lookup) (found : List Row) (cached : (ls.get? l' id).isSome = true) :
    ((ls.learn l found).get? l' id).isSome = true := by
  by_cases same : l'.key = l.key
  · rcases Lookup.lacks_or_lastFor found id with lacks | ⟨row, last⟩
    · rwa [get?_learn_of_lacks lacks]
    · rw [get?_learn_of_lastFor same last]
      rfl
  · rwa [get?_learn_of_ne same]

/-- Labels after an answer for some ids. -/
structure Filled (ls : Labels) (l : Lookup) (asked : List String) (found : List Row)
    (ls' : Labels) :
    Prop where
  kept : (∀ row ∈ found, ∀ id, keyOf row = some id → id ∈ asked) →
    ∀ l' id label, ls.get? l' id = some label → ls'.get? l' id = some label
  labelled : ∀ id row, LastFor found id row → ls'.get? l id = some (labelOf row)
  unlabelled : ∀ l' id, ls.get? l' id = none → Lacks found id → ls'.get? l' id = none
  apart : ∀ l', l'.key ≠ l.key → ∀ id, ls'.get? l' id = ls.get? l' id

theorem filled_learn {asked : List String} (uncached : ∀ id ∈ asked, ls.get? l id = none)
    (found : List Row) : ls.Filled l asked found (ls.learn l found) where
  kept := by
    intro honest l' id label cached
    by_cases same : l'.key = l.key
    · have lacks : Lacks found id := fun row mem key => by
        have none := uncached id (honest row mem id key)
        rw [get?_congr same, none] at cached
        cases cached
      rw [get?_learn_of_lacks lacks, cached]
    · rw [get?_learn_of_ne same, cached]
  labelled := fun _ _ last => get?_learn_of_lastFor rfl last
  unlabelled := fun _ _ none lacks => (get?_learn_of_lacks lacks).trans none
  apart := fun _ different _ => get?_learn_of_ne different

def missing (ls : Labels) (l : Lookup) (ids : List String) : List String :=
  (Ascending.texts ids).filter fun id => !ls.contains l id

theorem mem_missing {ids : List String} : id ∈ ls.missing l ids ↔
    id ∈ ids ∧ ls.get? l id = none := by
  simp [missing, Ascending.mem_texts, contains]

theorem pairwise_missing (ls : Labels) (l : Lookup) (ids : List String) :
    (ls.missing l ids).Pairwise (· < ·) :=
  (List.pairwise_map.mpr (Ascending.sorted_ofList _)).sublist List.filter_sublist

/-- How loading the labels of some ids ends. -/
inductive Prefetched (ls : Labels) (st : Storage) (l : Lookup) (ids : List String) (s : Session) :
    Except Error Labels → Session → Prop
  | known : ls.missing l ids = [] → Prefetched ls st l ids s (.ok ls) s
  | refused {name : String} : ls.missing l ids ≠ [] → name ∈ l.names →
      Lookup.isSafe name = false →
      Prefetched ls st l ids s (.error (.configuration (.unsafeIdentifier name))) s
  | failed {x : Statement} {b : Bound} {reason : String}
      {s' : Session} : ls.missing l ids ≠ [] → l.Asks st.dialect (ls.missing l ids) x b →
        st.answer s.served b = .error reason → s'.calls = s.calls ++ [⟨x, some b⟩] →
          s'.served = s.served + 1 →
          Prefetched ls st l ids s (.error (.execution reason x.sql x.params)) s'
  | answered {x : Statement} {b : Bound} {found : List Row}
      {s' : Session} : ls.missing l ids ≠ [] → l.Asks st.dialect (ls.missing l ids) x b →
        st.answer s.served b = .ok found → s'.calls = s.calls ++ [⟨x, some b⟩] →
          s'.served = s.served + 1 → Prefetched ls st l ids s (.ok (ls.learn l found)) s'

theorem prefetch_eq (ls : Labels) (st : Storage) (l : Lookup) (ids : List String) :
    ls.prefetch st l ids = if (ls.missing l ids).isEmpty then pure ls else
      match l.check with
      | .error e => throw e
      | .ok () => do
        let x ← Session.draw ((l.query st.dialect (ls.missing l ids)).render st.dialect)
        let found ← st.fetch x
        Session.log (.labelsLoaded l.table)
        return ls.learn l found := rfl

theorem prefetched (ls : Labels) (st : Storage) (l : Lookup) (ids : List String) (s : Session) :
    ls.Prefetched st l ids s (ls.prefetch st l ids s).1 (ls.prefetch st l ids s).2 := by
  by_cases none : ls.missing l ids = []
  · rw [prefetch_eq, if_pos (List.isEmpty_iff.mpr none)]
    exact .known none
  rw [prefetch_eq, if_neg (List.isEmpty_iff.not.mpr none)]
  by_cases safe : l.Safe
  · obtain ⟨x, m, b, rendered, asks⟩ := Lookup.exists_asks safe none st.dialect s.drawn
    rw [Lookup.check_of_safe safe]
    dsimp only
    rw [Effect.bind_ok _ (Sql.draw_eq rendered)]
    rcases answer : st.answer s.served b with reason | found
    · rw [Effect.bind_error _
        (Storage.fetch_of_error (s := { s with drawn := m }) asks.bound answer)]
      exact .failed none asks answer rfl rfl
    · rw [Effect.bind_ok _ (Storage.fetch_of_ok (s := { s with drawn := m }) asks.bound answer)]
      exact .answered none asks answer rfl rfl
  · obtain ⟨name, mem, unsafely, refused⟩ := Lookup.check_of_not_safe safe
    rw [refused]
    exact .refused none mem unsafely

end Labels

end Field

namespace Request

open Reports.Field (Lookup Labels)

def loadLabels (l : Lookup) (ids : List String) : RequestAction Unit := do
  let r ← current
  let labels ← act (r.labels.prefetch r.storage l ids)
  update fun r => { r with labels }

theorem loadLabels_of_ok {r : Request} {l : Lookup} {ids : List String} {s s' : Session}
    {labels : Labels} (loaded : r.labels.prefetch r.storage l ids s = (.ok labels, s')) :
    loadLabels l ids r s = ((.ok (), { r with labels }), s') := by
  rw [loadLabels, bind_ok _ (rfl : current r s = _), bind_ok _ (act_eq loaded r)]
  rfl

theorem loadLabels_of_error {r : Request} {l : Lookup} {ids : List String}
    {s s' : Session} {e : Error} (failed : r.labels.prefetch r.storage l ids s = (.error e, s')) :
    loadLabels l ids r s = ((.error e, r), s') := by
  rw [loadLabels, bind_ok _ (rfl : current r s = _), bind_error _ (act_eq failed r)]

theorem prefetchAttribute_of_some {a : Field.Attribute} {l : Lookup} (lookup : a.lookup? = some l)
    (name : String) (rows : List Row) :
    prefetchAttribute name rows a = loadLabels l (idsOfRows name rows) := by
  funext r s
  rw [prefetchAttribute, lookup]
  dsimp only
  by_cases none : (idsOfRows name rows).isEmpty = true
  · have nothing : r.labels.prefetch r.storage l (idsOfRows name rows) s = (.ok r.labels, s) := by
      rw [List.isEmpty_iff.mp none]
      rfl
    rw [if_pos none, loadLabels_of_ok nothing]
    rfl
  · rw [if_neg none]
    rfl

end Request

namespace Field.Labels

/-- Loading labels asks for what is missing and for nothing else, with one call and in ascending
order, or refuses an unsafe name without a call. Its rows fill the labels of the lookup; a request
that cannot load labels keeps those it has. -/
theorem prefetch_missing (ls : Labels) (st : Storage) (l : Lookup) (ids : List String)
    (s : Session) : ((ls.missing l ids).Pairwise (· < ·) ∧
      ∀ id, id ∈ ls.missing l ids ↔ id ∈ ids ∧ ls.get? l id = none) ∧
    ls.Prefetched st l ids s (ls.prefetch st l ids s).1 (ls.prefetch st l ids s).2 ∧
    (∀ found, ls.Filled l (ls.missing l ids) found (ls.learn l found)) ∧
    ∀ r name rows a e, (Request.prefetchAttribute name rows a r s).1.1 = .error e →
      (Request.prefetchAttribute name rows a r s).1.2 = r := by
  refine ⟨⟨pairwise_missing ls l ids, fun id => mem_missing⟩, prefetched ls st l ids s,
    filled_learn fun id mem => (mem_missing.mp mem).2, fun r name rows a e failed => ?_⟩
  cases lookup : a.lookup? with
  | none =>
    rw [Request.prefetchAttribute, lookup] at failed
    cases failed
  | some l' =>
    rw [Request.prefetchAttribute_of_some lookup] at failed ⊢
    rcases loaded : r.labels.prefetch r.storage l' (Request.idsOfRows name rows) s
      with ⟨e | labels, s'⟩
    · rw [Request.loadLabels_of_error loaded]
    · rw [Request.loadLabels_of_ok loaded] at failed
      cases failed

end Field.Labels

end Reports
