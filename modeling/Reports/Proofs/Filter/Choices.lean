import Reports.Proofs.Effect
import Reports.Proofs.Filter.Conditions

/-! What stays true of filters while users choose values for them: whatever one accepted value
keeps, every run of operations keeps. -/
namespace Reports

def Json.isScalar : Json → Bool
  | .array _ | .object _ => false
  | _ => true

namespace Filter

namespace Selection

/-- The stored form that a choice gives to a value. -/
inductive Takes (s : Selection) (value : Json) : Json → Prop
  | all : isAll value = true → Takes s value allValue
  | unknown : isAll value = false → s.options = [] → Takes s value value
  | several {items options : List Json} : value = .array items → s.options ≠ [] →
    s.multiple = true →
    List.Forall₂ (fun item o => s.findOption? item = some o) items options →
      Takes s value (.array options)
  | single {o : Json} : isAll value = false → s.options ≠ [] →
    (∀ items, value ≠ .array items) → s.findOption? value = some o → Takes s value o

variable {s : Selection} {value v : Json} {name : String}

theorem resolve_eq_ok : s.resolve name value = .ok v ↔ s.findOption? value = some v := by
  unfold resolve
  cases s.findOption? value <;> simp

theorem resolveAll_eq_ok {items options : List Json} : s.resolveAll name items = .ok options ↔
    List.Forall₂ (fun item o => s.findOption? item = some o) items options := by
  induction items generalizing options with
  | nil =>
    rw [resolveAll, List.forall₂_nil_left_iff, Except.ok.injEq]
    exact eq_comm
  | cons item rest ih =>
    rw [resolveAll, List.forall₂_cons_left_iff]
    constructor
    · intro stored
      obtain ⟨o, here, stored⟩ := Effect.ok_of_bind stored
      obtain ⟨os, later, stored⟩ := Effect.ok_of_bind stored
      cases stored
      exact ⟨o, os, resolve_eq_ok.mp here, ih.mp later, rfl⟩
    · rintro ⟨o, os, here, later, rfl⟩
      rw [resolve_eq_ok.mpr here, ih.mpr later]
      rfl

theorem takes_of_validate (stored : s.validate name value = .ok v) : s.Takes value v := by
  unfold validate at stored
  split at stored
  · next all =>
    cases stored
    exact .all all
  · next single =>
    have single : isAll value = false := Bool.eq_false_iff.mpr single
    split at stored
    · next none =>
      cases stored
      exact .unknown single (List.isEmpty_iff.mp none)
    · next known =>
      have known : s.options ≠ [] := fun none => known (List.isEmpty_iff.mpr none)
      split at stored
      · split at stored
        · next multiple =>
          obtain ⟨options, resolved, stored⟩ := Effect.ok_of_bind stored
          cases stored
          exact .several rfl known multiple (resolveAll_eq_ok.mp resolved)
        · cases stored
      · next plain => exact .single single known plain (resolve_eq_ok.mp stored)

theorem Takes.validate (takes : s.Takes value v) : s.validate name value = .ok v := by
  unfold Selection.validate
  cases takes with
  | all all => rw [if_pos all]
  | unknown single none =>
    rw [if_neg (Bool.eq_false_iff.mp single), if_pos (List.isEmpty_iff.mpr none)]
  | @several items _ list known multiple each =>
    subst list
    have single : ¬isAll (.array items) = true := Bool.false_ne_true
    rw [if_neg single, if_neg (by simpa using known)]
    simp only [if_pos multiple, resolveAll_eq_ok.mpr each]
    rfl
  | single single known plain found =>
    rw [if_neg (Bool.eq_false_iff.mp single), if_neg (by simpa using known)]
    split
    · next items => exact absurd rfl (plain items)
    · exact resolve_eq_ok.mpr found

theorem validate_eq_ok : s.validate name value = .ok v ↔ s.Takes value v :=
  ⟨takes_of_validate, Takes.validate⟩

theorem findOption?_eq_some (found : s.findOption? value = some v) :
    ∃ o ∈ s.options, o.value = v ∧ v.plain = value.plain := by
  obtain ⟨o, first, rfl⟩ := Option.map_eq_some_iff.mp found
  exact ⟨o, List.mem_of_find?_eq_some first, rfl, by simpa using List.find?_some first⟩

end Selection

namespace Collection

theorem apply_frame {c c' : Collection} {name : String} {value : Json} {b : Bool}
    (applied : c.apply name value = .ok (b, c')) : c' = { c with filters := c'.filters } := by
  rcases apply_cases applied with ⟨-, rfl⟩ | ⟨-, f, g, -, -, -, -, rfl⟩ <;> rfl

theorem frame_of_applies {V : Json → Prop} {c c' : Collection}
    (applies : Relation.ReflTransGen (Applies V) c c') : c' = { c with filters := c'.filters } := by
  induction applies with
  | refl => rfl
  | tail _ step ih =>
    obtain ⟨name, value, b, -, applied⟩ := step
    rw [apply_frame applied, ih]

theorem run_frame (c : Collection) (as : List UserAction) :
    c.run as = { c with filters := (c.run as).filters } := by
  induction as generalizing c with
  | nil => rfl
  | cons a rest ih =>
    change (c.perform a).run rest = { c with filters := ((c.perform a).run rest).filters }
    rw [ih, frame_of_applies (c.applies_perform a)]

/-- What a filter keeps when it takes one of these values. -/
def Lasting (V : Json → Prop) (P : Filter → Prop) : Prop :=
  ∀ f g value, P f → V value → isEmptyInput value = false → f.isCondition = false →
    f.setRaw value = .ok g → P g

variable {V : Json → Prop} {P : Filter → Prop} {c c' : Collection}

theorem forall_replaceFirst {name : String} {g : Filter} {fs : List Filter}
    (all : ∀ f ∈ fs, P f) (new : P g) : ∀ f ∈ replaceFirst name g fs, P f := by
  induction fs with
  | nil => exact fun f mem => nomatch mem
  | cons first rest ih =>
    have later := ih fun f mem => all f (List.mem_cons_of_mem _ mem)
    rw [replaceFirst]
    split
    · exact List.forall_mem_cons.mpr ⟨new, fun f mem => all f (List.mem_cons_of_mem _ mem)⟩
    · exact List.forall_mem_cons.mpr ⟨all first List.mem_cons_self, later⟩

section Lasting

variable (lasting : Lasting V P)

include lasting

theorem forall_apply {name : String} {value : Json} {b : Bool} (all : ∀ f ∈ c.filters, P f)
    (offered : V value) (applied : c.apply name value = .ok (b, c')) :
    ∀ f ∈ c'.filters, P f := by
  rcases apply_cases applied with ⟨-, rfl⟩ | ⟨-, f, g, found, some, free, stored, rfl⟩
  · exact all
  · exact forall_replaceFirst all
      (lasting f g value (all f (List.mem_of_find?_eq_some found)) offered some free stored)

theorem forall_perform (a : UserAction) (all : ∀ f ∈ c.filters, P f)
    (offered : ∀ v, a.Offers v → V v) : ∀ f ∈ (c.perform a).filters, P f := by
  have applies := c.applies_perform a
  generalize c.perform a = c' at applies
  induction applies with
  | refl => exact all
  | tail _ step ih =>
    obtain ⟨name, value, b, has, applied⟩ := step
    exact forall_apply lasting ih (offered value has) applied

theorem forall_run (as : List UserAction) (all : ∀ f ∈ c.filters, P f)
    (offered : ∀ a ∈ as, ∀ v, a.Offers v → V v) : ∀ f ∈ (c.run as).filters, P f := by
  induction as generalizing c with
  | nil => exact all
  | cons a rest ih =>
    have others : ∀ a ∈ rest, ∀ v, a.Offers v → V v :=
      fun a mem => offered a (List.mem_cons_of_mem _ mem)
    exact ih (forall_perform lasting a all (offered a List.mem_cons_self)) others

end Lasting

end Collection

end Filter

end Reports
