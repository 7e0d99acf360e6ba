import Reports.Proofs.Filter.Choices
import Reports.Proofs.Json.Text
import Reports.Proofs.Text.Trim

/-! Stored values. The stored form of a value is its own stored form, so a value that a filter holds
can be applied again: nothing is refused and nothing changes. -/
namespace Reports

theorem Json.lowerChar_ne_of_kindOf {c : Char} {k : Nat} (kind : kindOf c = some k) :
    Text.lowerChar c ≠ 'a' := by
  unfold kindOf at kind
  split_ifs at kind with null truth number quote list object
  · rw [null]
    decide
  · rcases truth with rfl | rfl <;> decide
  · rcases Number.isNumberChar_cases number with digit | rfl | rfl | rfl | rfl
    · rw [Number.lowerChar_digit digit]
      rintro rfl
      exact absurd digit (by decide)
    all_goals decide
  · rw [quote]
    decide
  · rw [list]
    decide
  · rw [object]
    decide

theorem Json.plain_head {v : Json} (other : ∀ s, v ≠ .string s) :
    ∃ c rest, v.plain.toList = c :: rest ∧ Text.lowerChar c ≠ 'a' := by
  obtain ⟨c, rest, chars, kind⟩ := v.text_head
  refine ⟨c, rest, ?_, lowerChar_ne_of_kindOf kind⟩
  cases v with
  | string s => exact absurd rfl (other s)
  | _ => exact chars

namespace Filter

namespace Selection

def Flat (s : Selection) : Prop := ∀ o ∈ s.options, ∀ items, o.value ≠ .array items

variable {s : Selection} {value v : Json}

theorem findOption?_again (found : s.findOption? value = some v) : s.findOption? v = some v := by
  obtain ⟨o, -, -, same⟩ := findOption?_eq_some found
  rw [findOption?, same]
  exact found

/-- An option that reads "all" is found by this text only, which asks for all options. -/
theorem isAll_of_findOption? (single : isAll value = false) (found : s.findOption? value = some v) :
    isAll v = false := by
  obtain ⟨o, -, -, same⟩ := findOption?_eq_some found
  cases v with
  | string t =>
    by_cases text : ∃ u, value = .string u
    · obtain ⟨u, rfl⟩ := text
      obtain rfl : t = u := same
      exact single
    · obtain ⟨c, rest, chars, other⟩ := Json.plain_head fun u is => text ⟨u, is⟩
      have chars : t.toList = c :: rest := (congrArg String.toList same).trans chars
      by_contra all
      have lower : Text.lower t = allText := by simpa [isAll] using all
      have first := congrArg String.toList lower
      rw [Text.lower, String.toList_ofList, chars] at first
      exact other (List.cons.inj first).1
  | _ => rfl

theorem Takes.again (flat : s.Flat) (takes : s.Takes value v) : s.Takes v v := by
  cases takes with
  | all => exact .all (by decide)
  | unknown other none => exact .unknown other none
  | @several items options list known multiple each =>
    refine .several rfl known multiple ?_
    clear list
    induction each with
    | nil => exact .nil
    | cons found _ ih => exact .cons (findOption?_again found) ih
  | single other known _ found =>
    obtain ⟨o, mem, rfl, -⟩ := findOption?_eq_some found
    exact .single (isAll_of_findOption? other found) known (flat o mem) (findOption?_again found)

end Selection

def Handler.Flat (h : Handler) : Prop := ∀ s, h = .select s → s.Flat

theorem Handler.validate_again {h : Handler} (flat : h.Flat) {name : String} {value stored : Json}
    (taken : h.validate name value = .ok stored) : h.validate name stored = .ok stored := by
  cases h with
  | value => rfl
  | condition k => rfl
  | text =>
    cases value with
    | string s =>
      cases taken
      exact congrArg (fun t => Except.ok (Json.string t)) (Text.trim_trim s)
    | number n =>
      cases taken
      exact congrArg (fun t => Except.ok (Json.string t)) (Text.trim_number n)
    | _ => cases taken
  | date functions =>
    cases value with
    | string t =>
      by_cases offered : functions.contains t = true
      · rw [validate, if_pos offered] at taken
        cases taken
        exact if_pos offered
      · rw [validate, if_neg offered] at taken
        cases taken
    | _ => cases taken
  | select s =>
    exact Selection.validate_eq_ok.mpr ((Selection.validate_eq_ok.mp taken).again (flat s rfl))

/-- The filter would take again the value that it holds. -/
structure Steady (f : Filter) : Prop where
  flat : f.handler.Flat
  again : ∀ v, f.raw = some v → f.handler.validate f.name v = .ok v

theorem Steady.setRaw {f : Filter} (steady : f.Steady) {v : Json} (held : f.raw = some v) :
    f.setRaw v = .ok f := by
  have same : { f with raw := some v } = f := by rw [← held]
  rw [Filter.setRaw, steady.again v held]
  exact congrArg Except.ok same

theorem lasting_steady : Collection.Lasting (fun _ => True) Steady := by
  intro f g value steady _ _ _ stored
  obtain ⟨v, taken, rfl⟩ := Collection.setRaw_ok stored
  refine ⟨steady.flat, ?_⟩
  rintro _ ⟨⟩
  exact Handler.validate_again steady.flat taken

namespace Collection

theorem replaceFirst_self {name : String} {f : Filter} {fs : List Filter}
    (found : fs.find? (fun g => g.name == name) = some f) : replaceFirst name f fs = fs := by
  induction fs with
  | nil => cases found
  | cons first rest ih =>
    by_cases here : first.name = name
    · rw [List.find?_cons_of_pos (by simpa using here)] at found
      cases found
      rw [replaceFirst, if_pos here]
    · rw [List.find?_cons_of_neg (by simpa using here)] at found
      rw [replaceFirst, if_neg here, ih found]

variable {c : Collection} {name : String} {f : Filter} {v : Json}

theorem replace_self (found : c.get? name = some f) : c.replace name f = c := by
  rw [replace, replaceFirst_self found]

theorem apply_held (found : c.get? name = some f) (steady : f.Steady) (held : f.raw = some v) :
    ∃ b, c.apply name v = .ok (b, c) := by
  unfold apply
  split
  · exact ⟨false, rfl⟩
  · rw [found]
    cases condition : f.isCondition with
    | true => exact ⟨false, by simp [condition]⟩
    | false =>
      refine ⟨true, ?_⟩
      simp only [condition, Bool.false_eq_true, if_false, steady.setRaw held]
      exact congrArg (fun d => Except.ok (true, d)) (replace_self found)

end Collection

/-- A handler changes no value that it has given. So after anything that users have done, the value
that a filter holds can be set or applied again, and the collection is as before. -/
theorem validate_idempotent (h : Handler) (c : Collection) (actions : List Collection.UserAction) :
    (h.Flat → ∀ (name : String) (value stored : Json), h.validate name value = .ok stored →
      h.validate name stored = .ok stored) ∧
    ((∀ f ∈ c.filters, f.Steady) → ∀ (name : String) (f : Filter) (held : Json),
      (c.run actions).get? name = some f → f.raw = some held →
        f.setRaw held = .ok f ∧ (c.run actions).setRaw name held = .ok (c.run actions) ∧
        ∃ b, (c.run actions).apply name held = .ok (b, c.run actions)) := by
  refine ⟨fun flat name value stored taken => Handler.validate_again flat taken, ?_⟩
  intro start name f held found chosen
  have mem : f ∈ (c.run actions).filters := List.mem_of_find?_eq_some found
  have steady := Collection.forall_run lasting_steady actions start (fun _ _ _ _ => trivial) f mem
  have set := steady.setRaw chosen
  refine ⟨set, ?_, Collection.apply_held found steady chosen⟩
  rw [Collection.setRaw, found]
  simp only [set]
  exact congrArg Except.ok (Collection.replace_self found)

/-- Two options have the same text, and one reads as the choice of all does. -/
def sizes : Selection :=
  .new (.fixed [⟨.ofInt 2, "Medium"⟩, ⟨.string "2", "M"⟩, ⟨.string "ALL", "One size"⟩])
    .ignore true

def shirts : Collection :=
  { identifier := "shirts", context := { userId := 1 }
    filters := [(Filter.new "search" "s.name").withHandler .text,
      (Filter.new "size" "s.size").withHandler (.select sizes)] }

theorem validate_idempotent_shirts :
    let actions : List Collection.UserAction :=
      [.apply "search" (.string " linen  "), .apply "size" (.array [.string "2", .string "ALL"])]
    (Handler.select sizes).validate "size" (.array [.ofInt 2, .string "ALL"]) =
      .ok (.array [.ofInt 2, .string "ALL"]) ∧
    (∃ b, (shirts.run actions).apply "search" (.string "linen") = .ok (b, shirts.run actions)) ∧
    ∃ b, (shirts.run actions).apply "size" (.array [.ofInt 2, .string "ALL"]) =
      .ok (b, shirts.run actions) := by
  intro actions
  obtain ⟨again, kept⟩ := validate_idempotent (.select sizes) shirts actions
  have flat : (Handler.select sizes).Flat := by
    rintro s ⟨⟩ o mem items
    simp only [sizes, Selection.new, List.mem_cons, List.not_mem_nil, or_false] at mem
    rcases mem with rfl | rfl | rfl <;> exact nofun
  have start : ∀ f ∈ shirts.filters, f.Steady := by
    intro f mem
    simp only [shirts, List.mem_cons, List.not_mem_nil, or_false] at mem
    rcases mem with rfl | rfl
    · exact ⟨by rintro s ⟨⟩, by rintro v ⟨⟩⟩
    · exact ⟨flat, by rintro v ⟨⟩⟩
  exact ⟨again flat "size" (.array [.string "2", .string "ALL"]) _ rfl,
    (kept start "search" _ _ rfl rfl).2.2, (kept start "size" _ _ rfl rfl).2.2⟩

end Filter

end Reports
