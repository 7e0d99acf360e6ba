import Reports.Proofs.Filter.Choices

/-! Which values a choice takes. When options are known, these are the text "all", the options by
their text and, where several can be chosen, lists of them. While none is known, it takes every
value: a choice does not tell options that are not loaded yet from options of which there are
none. -/
namespace Reports.Filter

def SpellsAll (value : Json) : Prop :=
  ∃ a b c, (a = 'a' ∨ a = 'A') ∧ (b = 'l' ∨ b = 'L') ∧ (c = 'l' ∨ c = 'L') ∧
    value = .string (String.ofList [a, b, c])

theorem lowerChar_eq_iff {c small capital : Char}
    (letter : 65 ≤ capital.toNat ∧ capital.toNat ≤ 90)
    (pair : small.toNat = capital.toNat + 32) :
    Text.lowerChar c = small ↔ c = small ∨ c = capital := by
  rw [Text.lowerChar, ← Char.toNat_inj, ← Char.toNat_inj (c := c), ← Char.toNat_inj (c := c)]
  split
  · next inside =>
    have bounds : 65 ≤ c.toNat ∧ c.toNat ≤ 90 := inside
    have valid : (c.toNat + 32).isValidChar := .inl (by omega)
    have moved : (Char.ofNat (c.toNat + 32)).toNat = c.toNat + 32 := by
      rw [Char.ofNat, dif_pos valid]
      rfl
    omega
  · next outside =>
    have bounds : ¬ (65 ≤ c.toNat ∧ c.toNat ≤ 90) := outside
    omega

theorem isAll_iff {value : Json} : isAll value = true ↔ SpellsAll value := by
  cases value with
  | string s =>
    have first {c : Char} : Text.lowerChar c = 'a' ↔ c = 'a' ∨ c = 'A' :=
      lowerChar_eq_iff (by decide) rfl
    have other {c : Char} : Text.lowerChar c = 'l' ↔ c = 'l' ∨ c = 'L' :=
      lowerChar_eq_iff (by decide) rfl
    have text : allText.toList = ['a', 'l', 'l'] := rfl
    rw [isAll, beq_iff_eq, Text.lower, ← String.toList_inj, String.toList_ofList, text]
    constructor
    · intro letters
      obtain ⟨a, as, chars, ha, letters⟩ := List.map_eq_cons_iff.mp letters
      obtain ⟨b, bs, rfl, hb, letters⟩ := List.map_eq_cons_iff.mp letters
      obtain ⟨c, cs, rfl, hc, letters⟩ := List.map_eq_cons_iff.mp letters
      obtain rfl := List.map_eq_nil_iff.mp letters
      refine ⟨a, b, c, first.mp ha, other.mp hb, other.mp hc, ?_⟩
      rw [← chars, String.ofList_toList]
    · rintro ⟨a, b, c, ha, hb, hc, same⟩
      obtain rfl := Json.string.inj same
      rw [String.toList_ofList, List.map_cons, List.map_cons, List.map_singleton, first.mpr ha,
        other.mpr hb, other.mpr hc]
  | _ =>
    refine iff_of_false Bool.false_ne_true ?_
    rintro ⟨a, b, c, -, -, -, same⟩
    cases same

theorem isAll_eq_false_iff {value : Json} : isAll value = false ↔ ¬ SpellsAll value := by
  rw [← isAll_iff, Bool.not_eq_true]

namespace Selection

/-- Of the options with the text of a value, the first one has this value. -/
def Picks (s : Selection) (value o : Json) : Prop :=
  ∃ before c after, s.options = before ++ c :: after ∧ c.value = o ∧ o.plain = value.plain ∧
    ∀ b ∈ before, b.value.plain ≠ value.plain

/-- A value that the options admit, with its stored form. -/
inductive Accepts (s : Selection) (value : Json) : Json → Prop
  | all : SpellsAll value → Accepts s value (.string "all")
  | one {o : Json} : ¬ SpellsAll value → (∀ items, value ≠ .array items) →
    s.Picks value o → Accepts s value o
  | several {items os : List Json} : value = .array items → s.multiple = true →
    List.Forall₂ s.Picks items os → Accepts s value (.array os)

/-- A value that the options do not admit, with the reason that is given. In a list it is the first
item that no option has the text of. -/
inductive Refuses (s : Selection) (value : Json) : String → Prop
  | one : ¬ SpellsAll value → (∀ items, value ≠ .array items) →
    (∀ o ∈ s.options, o.value.plain ≠ value.plain) →
      Refuses s value ("'" ++ value.plain ++ "' is not an option")
  | several {items : List Json} : value = .array items → s.multiple = false →
    Refuses s value "multiple values not allowed"
  | item {before after : List Json} {item : Json} : value = .array (before ++ item :: after) →
    s.multiple = true → (∀ b ∈ before, ∃ o, s.Picks b o) →
      (∀ o ∈ s.options, o.value.plain ≠ item.plain) →
        Refuses s value ("'" ++ item.plain ++ "' is not an option")

variable {s : Selection} {value stored : Json} {name : String}

theorem findOption?_eq_some_iff {o : Json} : s.findOption? value = some o ↔ s.Picks value o := by
  rw [findOption?, Option.map_eq_some_iff]
  constructor
  · rintro ⟨c, found, rfl⟩
    obtain ⟨text, before, after, split, others⟩ := List.find?_eq_some_iff_append.mp found
    exact ⟨before, c, after, split,
      rfl, by simpa using text, fun b mem => by simpa using others b mem⟩
  · rintro ⟨before, c, after, split, rfl, text, others⟩
    refine ⟨c, List.find?_eq_some_iff_append.mpr
      ⟨by simpa using text, before, after, split, ?_⟩, rfl⟩
    exact fun b mem => by simpa using others b mem

theorem findOption?_eq_none_iff :
    s.findOption? value = none ↔ ∀ o ∈ s.options, o.value.plain ≠ value.plain := by
  rw [findOption?, Option.map_eq_none_iff, List.find?_eq_none]
  simp

theorem picks_or_none (s : Selection) (value : Json) :
    (∃ o, s.Picks value o) ∨ ∀ o ∈ s.options, o.value.plain ≠ value.plain := by
  cases found : s.findOption? value with
  | some o => exact .inl ⟨o, findOption?_eq_some_iff.mp found⟩
  | none => exact .inr (findOption?_eq_none_iff.mp found)

theorem picks_each_or_first (s : Selection) (items : List Json) :
    (∃ os, List.Forall₂ s.Picks items os) ∨ ∃ before item after,
      items = before ++ item :: after ∧ (∀ b ∈ before, ∃ o, s.Picks b o) ∧
      ∀ o ∈ s.options, o.value.plain ≠ item.plain := by
  induction items with
  | nil => exact .inl ⟨[], .nil⟩
  | cons item rest ih =>
    rcases s.picks_or_none item with ⟨o, picks⟩ | none
    · rcases ih with ⟨os, each⟩ | ⟨before, other, after, split, earlier, none⟩
      · exact .inl ⟨o :: os, .cons picks each⟩
      · refine .inr ⟨item :: before, other, after, by rw [split]; rfl, ?_, none⟩
        exact List.forall_mem_cons.mpr ⟨⟨o, picks⟩, earlier⟩
    · exact .inr ⟨[], item, rest, rfl, by simp, none⟩

theorem takes_iff_accepts (known : s.options ≠ []) : s.Takes value stored ↔
    s.Accepts value stored := by
  constructor
  · intro takes
    cases takes with
    | all all => exact .all (isAll_iff.mp all)
    | unknown _ none => exact absurd none known
    | several list _ multiple each =>
      exact .several list multiple (each.imp fun _ _ => findOption?_eq_some_iff.mp)
    | single single _ plain found =>
      exact .one (isAll_eq_false_iff.mp single) plain (findOption?_eq_some_iff.mp found)
  · intro accepts
    cases accepts with
    | all all => exact .all (isAll_iff.mpr all)
    | one single plain picks =>
      exact .single (isAll_eq_false_iff.mpr single) known plain (findOption?_eq_some_iff.mpr picks)
    | several list multiple each =>
      exact .several list known multiple (each.imp fun _ _ => findOption?_eq_some_iff.mpr)

theorem accepts_or_refuses (s : Selection) (value : Json) :
    (∃ stored, s.Accepts value stored) ∨ ∃ reason, s.Refuses value reason := by
  by_cases all : SpellsAll value
  · exact .inl ⟨_, .all all⟩
  · by_cases list : ∃ items, value = .array items
    · obtain ⟨items, list⟩ := list
      cases multiple : s.multiple with
      | false => exact .inr ⟨_, .several list multiple⟩
      | true =>
        rcases s.picks_each_or_first items with ⟨os, each⟩ |
          ⟨before, item, after, rfl, earlier, none⟩
        · exact .inl ⟨_, .several list multiple each⟩
        · exact .inr ⟨_, .item list multiple earlier none⟩
    · have plain : ∀ items, value ≠ .array items := fun items is => list ⟨items, is⟩
      rcases s.picks_or_none value with ⟨o, picks⟩ | none
      · exact .inl ⟨o, .one all plain picks⟩
      · exact .inr ⟨_, .one all plain none⟩

theorem resolve_error (none : ∀ o ∈ s.options, o.value.plain ≠ value.plain) :
    s.resolve name value = .error (notAnOption name value) := by
  rw [resolve, findOption?_eq_none_iff.mpr none]

theorem resolveAll_error {before after : List Json} {item : Json}
    (earlier : ∀ b ∈ before, ∃ o, s.Picks b o)
    (none : ∀ o ∈ s.options, o.value.plain ≠ item.plain) :
    s.resolveAll name (before ++ item :: after) = .error (notAnOption name item) := by
  induction before with
  | nil =>
    rw [List.nil_append, resolveAll, resolve_error none]
    rfl
  | cons b rest ih =>
    obtain ⟨⟨o, picks⟩, later⟩ := List.forall_mem_cons.mp earlier
    rw [List.cons_append, resolveAll, resolve_eq_ok.mpr
      (findOption?_eq_some_iff.mpr picks), ih later]
    rfl

theorem Refuses.validate {reason : String} (known : s.options ≠ [])
    (refuses : s.Refuses value reason) :
    s.validate name value = .error (.invalidValue name reason) := by
  have some : ¬ s.options.isEmpty = true := by simpa using known
  unfold Selection.validate
  cases refuses with
  | one single plain none =>
    rw [if_neg (isAll_iff.not.mpr single), if_neg some]
    split
    · next items => exact absurd rfl (plain items)
    · exact resolve_error none
  | @several items list multiple =>
    subst list
    rw [if_neg (show ¬ isAll (.array items) = true from Bool.false_ne_true), if_neg some]
    simp [multiple]
  | @item before after item list multiple earlier none =>
    subst list
    rw [if_neg (show ¬ isAll (.array (before ++ item :: after)) = true from Bool.false_ne_true),
      if_neg some]
    simp only [multiple, if_true, resolveAll_error earlier none]
    rfl

theorem validate_eq_error_iff (known : s.options ≠ []) {e : Error} :
    s.validate name value = .error e ↔
    ∃ reason, s.Refuses value reason ∧ e = .invalidValue name reason := by
  constructor
  · intro failed
    rcases s.accepts_or_refuses value with ⟨stored, accepts⟩ | ⟨reason, refuses⟩
    · cases failed.symm.trans ((takes_iff_accepts known).mpr accepts).validate
    · exact ⟨reason, refuses, Except.error.inj (failed.symm.trans (refuses.validate known))⟩
  · rintro ⟨reason, refuses, rfl⟩
    exact refuses.validate known

/-- Stored is all options, one of them, or a list of them. -/
def Holds (s : Selection) (stored : Json) : Prop :=
  stored = .string "all" ∨ stored ∈ s.optionValues ∨
    s.multiple = true ∧ ∃ os, stored = .array os ∧ ∀ o ∈ os, o ∈ s.optionValues

theorem Picks.mem {o : Json} (picks : s.Picks value o) : o ∈ s.optionValues := by
  obtain ⟨before, c, after, split, rfl, -, -⟩ := picks
  have inside : c ∈ s.options := by
    rw [split]
    exact List.mem_append_right _ List.mem_cons_self
  exact List.mem_map_of_mem inside

theorem Accepts.holds (accepts : s.Accepts value stored) : s.Holds stored := by
  cases accepts with
  | all => exact .inl rfl
  | one _ _ picks => exact .inr (.inl picks.mem)
  | @several items os list multiple each =>
    refine .inr (.inr ⟨multiple, os, rfl, ?_⟩)
    clear list
    induction each with
    | nil => exact fun o none => nomatch none
    | cons picks _ ih => exact List.forall_mem_cons.mpr ⟨picks.mem, ih⟩

end Selection

/-- If it is a choice whose options are known, then it holds nothing but options. -/
def Within (f : Filter) : Prop :=
  ∀ s stored, f.handler = .select s → s.options ≠ [] → f.raw = some stored →
    s.Holds stored

theorem lasting_within : Collection.Lasting (fun _ => True) Within := by
  intro f g value _ _ _ _ stored
  obtain ⟨v, checked, rfl⟩ := Collection.setRaw_ok stored
  rintro s _ handler known ⟨⟩
  have handler : f.handler = .select s := handler
  rw [handler] at checked
  exact ((Selection.takes_iff_accepts known).mp (Selection.validate_eq_ok.mp checked)).holds

/-- A choice with options takes exactly what they admit and says what is wrong with the rest;
without options it takes everything. Whatever users do, filters that hold nothing but options go on
to. -/
theorem choice_takes_options (s : Selection) (name : String) (value : Json) :
    (s.options ≠ [] →
      (∀ stored, s.validate name value = .ok stored ↔ s.Accepts value stored) ∧
      ∀ e, s.validate name value = .error e ↔
        ∃ reason, s.Refuses value reason ∧ e = .invalidValue name reason) ∧
    (s.options = [] →
      (SpellsAll value → s.validate name value = .ok (.string "all")) ∧
      (¬ SpellsAll value → s.validate name value = .ok value)) ∧
    ∀ (c : Collection) (actions : List Collection.UserAction), (∀ f ∈ c.filters, f.Within) →
      ∀ f ∈ (c.run actions).filters, f.Within := by
  refine ⟨fun known => ⟨fun stored => ?_, fun e => ?_⟩,
    fun none => ⟨fun all => ?_, fun single => ?_⟩, fun c actions within => ?_⟩
  · exact Selection.validate_eq_ok.trans (Selection.takes_iff_accepts known)
  · exact Selection.validate_eq_error_iff known
  · exact Selection.validate_eq_ok.mpr (.all (isAll_iff.mpr all))
  · exact Selection.validate_eq_ok.mpr (.unknown (isAll_eq_false_iff.mpr single) none)
  · exact Collection.forall_run lasting_within actions within fun _ _ _ _ => trivial

def repeatedCategories : Selection :=
  .new (.fixed [⟨.ofInt 1, "Art"⟩, ⟨.ofInt 2, "Science"⟩, ⟨.string "2", "Sciences"⟩])
    .ignore true

def byCategory : Collection :=
  { identifier := "items", context := { userId := 1 }
    filters := [(Filter.new "category" "i.category").withHandler (.select repeatedCategories)] }

theorem choice_takes_options_repeatedCategories :
    repeatedCategories.validate "category" (.array [.string "2", .ofInt 1]) =
      .ok (.array [.ofInt 2, .ofInt 1]) ∧
    repeatedCategories.validate "category" (.array [.ofInt 1, .string "All"]) =
      .error (.invalidValue "category" "'All' is not an option") ∧
    ∀ f ∈
      (byCategory.run [.apply "category" (.ofInt 3),
      .applyAll [("category", .string "2")]]).filters, f.Within := by
  have options : repeatedCategories.options ≠ [] := List.cons_ne_nil _ _
  obtain ⟨reversed, -, kept⟩ :=
    choice_takes_options repeatedCategories "category" (.array [.string "2", .ofInt 1])
  obtain ⟨mixed, -, -⟩ :=
    choice_takes_options repeatedCategories "category" (.array [.ofInt 1, .string "All"])
  have first : repeatedCategories.Picks (.ofInt 1) (.ofInt 1) :=
    ⟨[], ⟨.ofInt 1, "Art"⟩, _, rfl, rfl, rfl, by simp⟩
  have second : repeatedCategories.Picks (.string "2") (.ofInt 2) :=
    ⟨[⟨.ofInt 1, "Art"⟩], ⟨.ofInt 2, "Science"⟩, _, rfl,
      rfl, by decide +kernel, by decide +kernel⟩
  have other : ∀ o ∈ repeatedCategories.options, o.value.plain ≠
      (Json.string "All").plain := by
    decide +kernel
  have earlier : ∀ b ∈ [Json.ofInt 1], ∃ o, repeatedCategories.Picks b o :=
    List.forall_mem_singleton.mpr ⟨_, first⟩
  have fresh : ∀ f ∈ byCategory.filters, f.Within := by
    rintro f mem s stored - - chosen
    obtain rfl := List.mem_singleton.mp mem
    cases chosen
  exact ⟨((reversed options).1 _).mpr (.several rfl rfl (.cons second (.cons first .nil))),
    ((mixed options).2 _).mpr ⟨_, .item rfl rfl earlier other, rfl⟩, kept byCategory _ fresh⟩

end Reports.Filter
