import Mathlib.Data.List.Nodup
import Mathlib.Data.String.Basic
import Reports.Ascending

/-! Entries that were put in order stay as they are when they are put in order again. -/
namespace Reports.Ascending

variable {α : Type}

/-- Each key is greater than those before it. -/
def Sorted (entries : List (String × α)) : Prop := entries.Pairwise fun d e => d.1 < e.1

variable {entries : List (String × α)}

theorem Sorted.nodup (sorted : Sorted entries) : (entries.map Prod.fst).Nodup :=
  List.pairwise_map.mpr (sorted.imp ne_of_lt)

theorem sorted_place (key : String) (value : α) (sorted : Sorted entries) :
    Sorted (place key value entries) := by
  induction entries with
  | nil => exact List.pairwise_singleton _ _
  | cons e rest ih =>
    obtain ⟨k, v⟩ := e
    obtain ⟨above, others⟩ := List.pairwise_cons.mp sorted
    unfold place
    split
    · next here =>
      subst here
      exact List.pairwise_cons.mpr ⟨above, others⟩
    · next other =>
      split
      · next before =>
        refine List.pairwise_cons.mpr ⟨fun e mem => ?_, sorted⟩
        rcases List.mem_cons.mp mem with rfl | later
        · exact before
        · exact String.lt_trans before (above e later)
      · next behind =>
        refine List.pairwise_cons.mpr ⟨fun e mem => ?_, ih others⟩
        rcases mem_of_mem_place mem with rfl | later
        · exact lt_of_le_of_ne (String.not_lt.mp behind) (Ne.symm other)
        · exact above e later

theorem sorted_ofList (entries : List (String × α)) : Sorted (ofList entries) := by
  have fold (acc : List (String × α)) (sorted : Sorted acc) :
      Sorted (entries.foldl (fun acc e => place e.1 e.2 acc) acc) := by
    induction entries generalizing acc with
    | nil => exact sorted
    | cons e rest ih => exact ih _ (sorted_place e.1 e.2 sorted)
  exact fold [] List.Pairwise.nil

theorem place_of_forall_lt {key : String} {value : α} (greatest : ∀ e ∈ entries, e.1 < key) :
    place key value entries = entries ++ [(key, value)] := by
  induction entries with
  | nil => rfl
  | cons e rest ih =>
    obtain ⟨less, greatest⟩ := List.forall_mem_cons.mp greatest
    rw [place, if_neg (ne_of_gt less), if_neg (lt_asymm less), ih greatest, List.cons_append]

theorem ofList_of_sorted (sorted : Sorted entries) : ofList entries = entries := by
  have fold (acc : List (String × α)) (all : Sorted (acc ++ entries)) :
      entries.foldl (fun acc e => place e.1 e.2 acc) acc = acc ++ entries := by
    clear sorted
    induction entries generalizing acc with
    | nil => rw [List.foldl_nil, List.append_nil]
    | cons e rest ih =>
      have greatest : ∀ d ∈ acc, d.1 < e.1 := fun d mem =>
        (List.pairwise_append.mp all).2.2 d mem e List.mem_cons_self
      rw [List.append_cons] at all
      rw [List.foldl_cons, place_of_forall_lt greatest, ih _ all, ← List.append_cons]
  exact fold [] sorted

end Reports.Ascending
