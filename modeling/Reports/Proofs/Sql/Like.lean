import Mathlib.Data.List.Infix
import Reports.Proofs.OrderedMap
import Reports.Proofs.Sql.PlaceholderName
import Reports.Sql.Predicate

/-! How SQL matches texts against patterns, and that the pattern which is bound for a search finds
the texts that contain what is searched. -/
namespace Reports.Sql

namespace Like

/-- What a pattern is made of: any run of characters, any one character, a character itself. -/
inductive Element
  | run
  | one
  | char (c : Char)
  deriving DecidableEq, Repr

/-- A backslash makes the character behind it stand for itself, whatever it is. -/
def elements : List Char → List Element
  | [] => []
  | '\\' :: c :: rest => .char c :: elements rest
  | '%' :: rest => .run :: elements rest
  | '_' :: rest => .one :: elements rest
  | c :: rest => .char c :: elements rest

/-- Whether a text is one that elements describe. A run is tried at every length. -/
def admits : List Element → List Char → Bool
  | [], text => text.isEmpty
  | .run :: rest, text => text.tails.any fun later => admits rest later
  | .one :: _, [] => false
  | .one :: rest, _ :: later => admits rest later
  | .char _ :: _, [] => false
  | .char c :: rest, d :: later => c == d && admits rest later

def Matches (pattern text : String) : Prop := admits (elements pattern.toList) text.toList = true

instance (pattern text : String) : Decidable (Matches pattern text) :=
  inferInstanceAs (Decidable (_ = _))

theorem admits_run (rest : List Element) (text : List Char) :
    admits (.run :: rest) text = true ↔
    ∃ later, later <:+ text ∧ admits rest later = true := by
  simp [admits, List.any_eq_true]

theorem admits_any (text : List Char) : admits [.run] text = true :=
  (admits_run [] text).mpr ⟨[], List.nil_suffix, rfl⟩

theorem admits_chars (cs : List Char) (rest : List Element) (text : List Char) :
    admits (cs.map .char ++ rest) text = true ↔
      ∃ later, text = cs ++ later ∧ admits rest later = true := by
  induction cs generalizing text with
  | nil => simp
  | cons c cs ih =>
    cases text with
    | nil => simp [admits]
    | cons d later =>
      rw [List.map_cons, List.cons_append, admits, Bool.and_eq_true, beq_iff_eq, ih]
      constructor
      · rintro ⟨rfl, last, rfl, admitted⟩
        exact ⟨last, rfl, admitted⟩
      · rintro ⟨last, whole, admitted⟩
        obtain ⟨rfl, rfl⟩ := List.cons.inj whole
        exact ⟨rfl, last, rfl, admitted⟩

theorem admits_between_runs (cs text : List Char) :
    admits (.run :: cs.map .char ++ [.run]) text = true ↔ cs <:+: text := by
  rw [List.cons_append, admits_run]
  constructor
  · rintro ⟨later, ⟨before, rfl⟩, admitted⟩
    obtain ⟨last, rfl, -⟩ := (admits_chars cs [.run] later).mp admitted
    exact ⟨before, last, List.append_assoc before cs last⟩
  · rintro ⟨before, last, rfl⟩
    refine ⟨cs ++ last, ⟨before, (List.append_assoc before cs last).symm⟩, ?_⟩
    exact (admits_chars cs [.run] _).mpr ⟨last, rfl, admits_any last⟩

/-- What was escaped is read as its own characters, none of them as a wildcard. -/
theorem elements_escaped (cs rest : List Char) :
    elements (cs.flatMap escapeLikeChar ++ rest) = cs.map .char ++ elements rest := by
  induction cs with
  | nil => rfl
  | cons c cs ih =>
    rw [List.flatMap_cons, List.append_assoc]
    by_cases special : c = '\\' ∨ c = '%' ∨ c = '_'
    · rw [escapeLikeChar, if_pos special, List.cons_append, List.cons_append,
        List.nil_append, elements, ih, List.map_cons, List.cons_append]
    · rw [escapeLikeChar, if_neg special, List.cons_append, List.nil_append]
      obtain ⟨noEscape, noRun, noOne⟩ : c ≠ '\\' ∧ c ≠ '%' ∧ c ≠ '_' := by
        simpa using special
      rw [elements, ih, List.map_cons, List.cons_append] <;> simp_all

theorem elements_escapeLike (s : String) : elements (escapeLike s).toList = s.toList.map .char := by
  have read := elements_escaped s.toList []
  rw [List.append_nil, elements, List.append_nil] at read
  rw [escapeLike, Text.mapChars, String.toList_ofList, read]

theorem elements_substringPattern (s : String) :
    elements (substringPattern s).toList = .run :: s.toList.map .char ++ [.run] := by
  have chars : (substringPattern s).toList = '%' :: (s.toList.flatMap escapeLikeChar ++ ['%']) := by
    simp [substringPattern, escapeLike, Text.mapChars]
  rw [chars, elements, elements_escaped]
  rfl

theorem escapeLike_injective : Function.Injective escapeLike := by
  intro s t same
  have read := elements_escapeLike s
  rw [same, elements_escapeLike] at read
  have chars := List.map_injective_iff.mpr (fun _ _ => Element.char.inj) read
  exact String.toList_inj.mp chars.symm

def prefixed (q : Char) (s : String) : String :=
  Text.mapChars (fun c => if c = q then ['\\', q] else [c]) s

/-- The three kinds of characters may be escaped one after the other, backslashes first. -/
theorem escapeLike_eq_prefixed (s : String) :
    escapeLike s = prefixed '_' (prefixed '%' (prefixed '\\' s)) := by
  simp only [escapeLike, prefixed, Text.mapChars, String.toList_ofList, List.flatMap_assoc]
  congr 1
  refine List.flatMap_congr fun c _ => ?_
  unfold escapeLikeChar
  by_cases escape : c = '\\'
  · subst escape
    decide
  · by_cases run : c = '%'
    · subst run
      decide
    · by_cases one : c = '_' <;> simp [escape, run, one]

end Like

namespace Predicate

variable {p : Predicate} {v : Json} {rest : List Json}

theorem base_likeWildcard (search : p.operator = .likeWildcard) (values : p.values = v :: rest)
    (d : Dialect) : p.base d = .ok ⟨[.text (p.selector ++ " " ++ d.likeKeyword ++ " "),
      .hole (.string (substringPattern v.plain)), .text " ESCAPE '\\'"], ∅⟩ := by
  have first : p.firstValue = .ok v := by rw [firstValue, values]
  simp only [base, search, first]
  rfl

def searchSql (p : Predicate) (d : Dialect) (name : String) : String :=
  p.selector ++ " " ++ d.likeKeyword ++ " :" ++ name ++ " ESCAPE '\\'"

theorem render_likeWildcard (search : p.operator = .likeWildcard) (values : p.values = v :: rest)
    (d : Dialect) (n : Nat) : p.render d n =
      (.ok ⟨if p.rawConditions.isEmpty then p.searchSql d (placeholderName (n + 1)) else
          "(" ++ p.searchSql d (placeholderName (n + 1)) ++
            (String.join (p.rawConditions.map fun r => " AND " ++ r.sql) ++ ")"),
        (⟨[(placeholderName (n + 1), .string (substringPattern v.plain))]⟩ : Params).merge
          ((∅ : Params).mergeAll (p.rawConditions.map (·.params)))⟩, n + 1) := by
  have base := base_likeWildcard search values d
  rw [render, template, base, OrderedMap.mergeAll, List.foldl_map]
  cases raw : p.rawConditions with
  | nil =>
    simp [bind, Except.bind, pure, Except.pure, Template.fill, Template.fillPieces, searchSql,
      String.append_assoc]
    rfl
  | cons r rs =>
    simp [bind, Except.bind, pure, Except.pure, Template.fill, Template.fillPieces, searchSql,
      String.append_assoc]
    rfl

/-- A search binds a pattern that matches the texts in which the searched text occurs, and no
others: escaped, its characters are read as themselves. Of a value that is no text its JSON text is
searched. -/
theorem search_finds_occurrences :
    Function.Injective escapeLike ∧
    ∀ (p : Predicate) (v : Json) (rest : List Json) (d : Dialect) (n : Nat),
      p.operator = .likeWildcard → p.values = v :: rest →
      (∀ r ∈ p.rawConditions, placeholderName (n + 1) ∉ r.params.keys) →
      ∃ s pattern, p.render d n = (.ok s, n + 1) ∧
        s.sql = (if p.rawConditions.isEmpty then p.searchSql d (placeholderName (n + 1)) else
          "(" ++ p.searchSql d (placeholderName (n + 1)) ++
            (String.join (p.rawConditions.map fun r => " AND " ++ r.sql) ++ ")")) ∧
        s.params.get? (placeholderName (n + 1)) = some (.string pattern) ∧
        (∀ text, Like.Matches pattern text ↔ v.plain.toList <:+: text.toList) ∧
        Like.elements pattern.toList = .run :: v.plain.toList.map .char ++ [.run] ∧
        pattern = "%" ++ Like.prefixed '_'
          (Like.prefixed '%' (Like.prefixed '\\' v.plain)) ++ "%" ∧
        v.plain = match v with
          | .string text => text
          | other => other.text := by
  refine ⟨Like.escapeLike_injective, fun p v rest d n search values free => ?_⟩
  have elements := Like.elements_substringPattern v.plain
  have other : placeholderName (n + 1) ∉
      ((∅ : Params).mergeAll (p.rawConditions.map (·.params))).keys := by
    rw [OrderedMap.mem_keys_mergeAll]
    rintro (none | ⟨params, given, mem⟩)
    · exact absurd none List.not_mem_nil
    · obtain ⟨r, raw, rfl⟩ := List.mem_map.mp given
      exact free r raw mem
  refine ⟨_, substringPattern v.plain, render_likeWildcard search values d n, rfl, ?_,
    fun text => ?_, elements, ?_, ?_⟩
  · rw [OrderedMap.get?_merge_of_notMem other]
    simp [OrderedMap.get?, OrderedMap.lookup]
  · rw [Like.Matches, elements]
    exact Like.admits_between_runs _ _
  · rw [substringPattern, Like.escapeLike_eq_prefixed]
  · cases v <;> rfl

/-- A search for all three characters that a pattern would read, under a condition of its own. -/
def discounts : Predicate :=
  (new "p.note" [.string "50%_\\"] .likeWildcard).andRaw
    ⟨"p.shop = :shop", .ofList [("shop", .null)]⟩

theorem search_finds_occurrences_discounts : ∃ s pattern,
    discounts.render .postgres 6 = (.ok s, 7) ∧
    s.sql = "(p.note ILIKE :qp7 ESCAPE '\\' AND p.shop = :shop)" ∧
    s.params.get? "qp7" = some (.string pattern) ∧ pattern = "%50\\%\\_\\\\%" ∧
    Like.Matches pattern "now 50%_\\ off" ∧ ¬Like.Matches pattern "now 50 %_\\ off" ∧
    ¬Like.Matches pattern "50 x\\" := by
  obtain ⟨-, search⟩ := search_finds_occurrences
  obtain ⟨s, pattern, rendered, sql, bound, occurs, -, escaped, -⟩ :=
    search discounts (.string "50%_\\") [] .postgres 6 rfl rfl (by decide +kernel)
  have written : pattern = "%50\\%\\_\\\\%" := by
    rw [escaped]
    decide +kernel
  refine ⟨s, pattern, rendered, ?_, bound, written, ?_, ?_, ?_⟩
  · rw [sql]
    decide +kernel
  · exact (occurs _).mpr (by decide +kernel)
  · exact fun matched => absurd ((occurs _).mp matched) (by decide +kernel)
  · exact fun matched => absurd ((occurs _).mp matched) (by decide +kernel)

end Predicate

end Reports.Sql
