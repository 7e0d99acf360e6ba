import Reports.Proofs.Effect
import Reports.Proofs.Sql.CountKey
import Reports.Proofs.Sql.Renaming
import Reports.Proofs.Sql.Spelled

/-! Statements that are alike up to their drawn names are bound to the same text and the same
values, so a storage cannot tell them apart. -/
namespace Reports.Sql

namespace Binding

theorem mem_of_rank? {name : String} {seen : List (String × Json)} {i : Nat}
    (found : rank? name seen = some i) : ∃ e ∈ seen, e.1 = name := by
  induction seen generalizing i with
  | nil => cases found
  | cons e rest ih =>
    by_cases same : e.1 = name
    · exact ⟨e, List.mem_cons_self, same⟩
    · simp only [rank?, same, if_false, Option.map_eq_some_iff] at found
      obtain ⟨j, found, -⟩ := found
      obtain ⟨e', mem, same⟩ := ih found
      exact ⟨e', List.mem_cons_of_mem _ mem, same⟩

theorem bound_of_resolve {d : Dialect} {params : Params} {ts : List Token}
    {seen : List (String × Json)} (known : ∀ e ∈ seen, params.get? e.1 ≠ none) {b : Bound}
    (resolved : resolve d params seen ts = .ok b) {cs : List Char} (mem : .parameter cs ∈ ts) :
    params.get? (String.ofList cs) ≠ none := by
  induction ts generalizing seen b with
  | nil => cases mem
  | cons t rest ih =>
    cases t with
    | char c =>
      obtain ⟨b', later, -⟩ := Effect.ok_of_bind resolved
      exact ih known later ((List.mem_cons.mp mem).resolve_left (by simp))
    | parameter chars =>
      simp only [resolve] at resolved
      split at resolved
      · next i found =>
        obtain ⟨b', later, -⟩ := Effect.ok_of_bind resolved
        rcases List.mem_cons.mp mem with here | mem
        · cases here
          obtain ⟨e, he, same⟩ := mem_of_rank? found
          exact same ▸ known e he
        · exact ih known later mem
      · split at resolved
        · cases resolved
        · next v value =>
          obtain ⟨b', later, -⟩ := Effect.ok_of_bind resolved
          have here : params.get? (String.ofList chars) ≠ none := by
            rw [value]
            exact Option.some_ne_none v
          rcases List.mem_cons.mp mem with same | mem
          · cases same
            exact here
          · refine ih (fun e he => ?_) later mem
            rcases List.mem_append.mp he with before | last
            · exact known e before
            · rw [List.mem_singleton.mp last]
              exact here

end Binding

namespace CountKey

variable {s s' : Statement} {a : Marked} {names names' : List String}

def Ranked (names : List String) : Name → Prop
  | .drawn i => i < names.length
  | .written s => s ∉ names

theorem nameAt_drawn {i : Nat} (inside : i < names.length) :
    nameAt names (.drawn i) = names[i] := by
  rw [nameAt, List.getD_eq_getElem?_getD, List.getElem?_eq_getElem inside, Option.getD_some]

theorem nameAt_injective (distinct : names.Nodup) {n m : Name} (hn : Ranked names n)
    (hm : Ranked names m) (same : nameAt names n = nameAt names m) : n = m := by
  have apart {i : Nat} {t : String} (inside : i < names.length) (outside : t ∉ names) :
      nameAt names (.drawn i) ≠ t := by
    rw [nameAt_drawn inside]
    exact fun same => outside (same ▸ List.getElem_mem inside)
  cases n with
  | drawn i =>
    cases m with
    | drawn j =>
      rw [nameAt_drawn hn, nameAt_drawn hm] at same
      rw [(List.Nodup.getElem_inj_iff distinct).mp same]
    | written t => exact absurd same (apart hn hm)
  | written t =>
    cases m with
    | drawn j => exact absurd same.symm (apart hm hn)
    | written u => exact congrArg Name.written same

/-- What is known of one of the statements under a key: how its text reads with ranks in the place
of drawn names. -/
structure Keyed (s : Statement) (a : Marked) (names : List String) : Prop where
  tokens : Binding.tokens s.sql =
    (Binding.reader.reads .plain a).map (Binding.reader.write (nameAt names))
  distinct : names.Nodup
  ranked : ∀ n, .name n ∈ Binding.reader.reads .plain a → Ranked names n

theorem Keyed.get?_of_bind (keyed : Keyed s a names) {d : Dialect} {b : Bound}
    (bound : s.bind d = .ok b) {n : Name} (mem : .name n ∈ Binding.reader.reads .plain a) :
    s.params.get? (nameAt names n) ≠ none := by
  rw [Statement.bind, keyed.tokens] at bound
  have found := Binding.bound_of_resolve (fun e he => absurd he List.not_mem_nil) bound
    (List.mem_map_of_mem (f := Binding.reader.write (nameAt names)) mem)
  rwa [String.ofList_toList] at found

theorem Alike.length (alike : Alike s s' a names names') : names.length = names'.length := by
  simpa using congrArg List.length alike.values

theorem Alike.get? (alike : Alike s s' a names names') {n : Name} (hn : Ranked names n)
    (hn' : Ranked names' n) :
    s.params.get? (nameAt names n) = s'.params.get? (nameAt names' n) := by
  cases n with
  | drawn i =>
    have inside : i < names.length := hn
    have inside' : i < names'.length := hn'
    rw [nameAt_drawn inside, nameAt_drawn inside']
    have values := congrArg (·[i]?) alike.values
    simpa [inside, inside'] using values
  | written t =>
    have outside {names : List String} (other : t ∉ names) : (!names.contains t) = true := by
      rw [Bool.not_eq_true', List.contains_eq_mem, decide_eq_false_iff_not]
      exact other
    have left := OrderedMap.lookup_filter (fun k => !names.contains k) (outside hn) s.params.entries
    have right :=
      OrderedMap.lookup_filter (fun k => !names'.contains k) (outside hn') s'.params.entries
    change OrderedMap.lookup t s.params.entries = OrderedMap.lookup t s'.params.entries
    rw [← left, ← right]
    exact congrArg (OrderedMap.lookup t) alike.others

/-- What is asked of a storage is the same for all statements under one key. -/
theorem Alike.bind (alike : Alike s s' a names names') (keyed : Keyed s a names)
    (keyed' : Keyed s' a names') {d : Dialect} {b : Bound} (bound : s.bind d = .ok b) :
    s'.bind d = .ok b := by
  let given (n : Name) : Prop :=
    (Ranked names n ∧ Ranked names' n) ∧ s.params.get? (nameAt names n) ≠ none
  have apart : Sql.Alike (nameAt names) (nameAt names') given :=
    ⟨fun n m hn hm => nameAt_injective keyed.distinct hn.1.1 hm.1.1,
      fun n m hn hm => nameAt_injective keyed'.distinct hn.1.2 hm.1.2⟩
  have resolved := apart.resolve d (fun n hn => alike.get? hn.1.1 hn.1.2)
    (fun n hn unbound => absurd unbound hn.2) (Binding.reader.reads .plain a)
    (fun n mem => ⟨⟨keyed.ranked n mem, keyed'.ranked n mem⟩, keyed.get?_of_bind bound mem⟩)
    []
    fun e he => absurd he List.not_mem_nil
  rw [Statement.bind, keyed'.tokens]
  rw [Statement.bind, keyed.tokens] at bound
  exact resolved ▸ bound

end CountKey

end Reports.Sql
