import Mathlib
import Reports.Proofs.List
import Reports.Proofs.Report.Protocol
import Reports.Proofs.Report.SelectList

/-! What a report shows: which fields, in which order, and for every row that came back one row of
the cells of these fields. -/
namespace Reports

/-- Who is shown: identifiers, all that are not hidden while nothing is listed, and what is listed
as visible. -/
def Preferences.Shows (p : Preferences) (f : Field) : Prop :=
  f.isIdentifier = true ∨ (p.fields.entries = [] ∧ f.visibility = .visible) ∨
    ∃ listed, p.fields.get? f.name = some listed ∧ listed.visible = true

theorem Preferences.isFieldVisible_iff (p : Preferences) (f : Field) :
    p.isFieldVisible f = true ↔ p.Shows f := by
  unfold isFieldVisible Shows
  by_cases identifier : f.isIdentifier = true
  · simp [identifier]
  · have whole : f.isVisible = true ↔ f.visibility = .visible := by
      cases visibility : f.visibility <;>
        simp [Field.isVisible, Field.isHidden, identifier, visibility]
    rw [if_neg identifier]
    by_cases empty : p.fields.entries = []
    · have none : p.fields.get? f.name = none := by rw [OrderedMap.get?, empty]; rfl
      simp [OrderedMap.isEmpty, empty, none, identifier, whole]
    · cases listed : p.fields.get? f.name <;> simp [OrderedMap.isEmpty, empty, identifier]

namespace Request

/-- Identifiers go first; of two identifiers or two other fields the one with the lesser place; of
two with one place the one that is declared first. -/
def Precedes (r : Request) (p : Preferences) (f g : Field) : Prop :=
  (f.isIdentifier = true ∧ g.isIdentifier = false) ∨
    f.isIdentifier = g.isIdentifier ∧ (p.fieldOrder f.name < p.fieldOrder g.name ∨
      p.fieldOrder f.name = p.fieldOrder g.name ∧ [f, g].Sublist r.fields)

theorem displayLe_iff (p : Preferences) (f g : Field) : displayLe p f g = true ↔
    (f.isIdentifier = true ∧ g.isIdentifier = false) ∨
      f.isIdentifier = g.isIdentifier ∧ p.fieldOrder f.name ≤ p.fieldOrder g.name := by
  unfold displayLe
  cases f.isIdentifier <;> cases g.isIdentifier <;> simp

theorem displayLe_trans (p : Preferences) (f g h : Field) (fg : displayLe p f g = true)
    (gh : displayLe p g h = true) : displayLe p f h = true := by
  rw [displayLe_iff] at fg gh ⊢
  rcases fg with ⟨first, second⟩ | ⟨same, le⟩
  · rcases gh with ⟨never, -⟩ | ⟨same, -⟩
    · rw [second] at never
      cases never
    · exact .inl ⟨first, same ▸ second⟩
  · rcases gh with ⟨first, second⟩ | ⟨same', le'⟩
    · exact .inl ⟨same ▸ first, second⟩
    · exact .inr ⟨same.trans same', le.trans le'⟩

theorem displayLe_total (p : Preferences) (f g : Field) :
    (displayLe p f g || displayLe p g f) = true := by
  have places := le_total (p.fieldOrder f.name) (p.fieldOrder g.name)
  rw [Bool.or_eq_true, displayLe_iff, displayLe_iff]
  cases f.isIdentifier <;> cases g.isIdentifier <;> simp [places]

theorem displayFields_of_some {r : Request} {p : Preferences}
    (configured : r.preferences = some p) :
    r.displayFields = (r.fields.filter p.isFieldVisible).mergeSort (displayLe p) := by
  rw [displayFields, configured]

theorem mem_displayFields {r : Request} {p : Preferences} (configured : r.preferences = some p)
    (f : Field) : f ∈ r.displayFields ↔ f ∈ r.fields ∧ p.Shows f := by
  rw [displayFields_of_some configured, (List.mergeSort_perm _ _).mem_iff, List.mem_filter,
    p.isFieldVisible_iff]

theorem pairwise_displayFields {r : Request} {p : Preferences} (configured : r.preferences = some p)
    (distinct : (r.fields.map (·.name)).Nodup) : r.displayFields.Pairwise (r.Precedes p) := by
  have once : r.displayFields.Nodup := .of_map _ (nodup_displayFields distinct)
  rw [displayFields_of_some configured] at once ⊢
  have sorted := List.pairwise_mergeSort (displayLe_trans p) (displayLe_total p)
    (r.fields.filter p.isFieldVisible)
  rw [List.pairwise_iff_forall_sublist] at sorted ⊢
  intro f g pair
  have apart : f ≠ g := by
    have two := once.sublist pair
    simpa using two
  rcases (displayLe_iff p f g).mp (sorted pair) with first | ⟨same, le⟩
  · exact .inl first
  · rcases lt_or_eq_of_le le with less | tie
    · exact .inr ⟨same, .inl less⟩
    · have member (h : Field) (mem : h ∈ [f, g]) : h ∈ r.fields.filter p.isFieldVisible :=
        (List.mergeSort_perm _ _).mem_iff.mp (pair.subset mem)
      rcases List.pair_sublist_or (member f (by simp))
        (member g (by simp)) apart with declared | swapped
      · exact .inr ⟨same, .inr ⟨tie, declared.trans List.filter_sublist⟩⟩
      -- The sort is stable, and so would have kept the order in which they are declared.
      · have back := (displayLe_iff p g f).mpr (.inr ⟨same.symm, tie.ge⟩)
        have kept :=
          List.pair_sublist_mergeSort (displayLe_trans p) (displayLe_total p) back swapped
        have equal := (List.Nodup.perm_iff_eq_of_sublist once pair kept).mp (.swap g f [])
        exact absurd (List.cons.inj equal).1 apart

/-- A value taken through attributes from left to right, next to the raw row. -/
def carried (reading : Field.Reading) (raw : Row) (as : List Field.Attribute) (value : Json) :
    Option Json :=
  as.foldlM (fun v a => a.apply reading v raw) value

def rawCell (raw : Row) (name : String) : Json := (raw.get? name).getD .null

/-- One shown row: a cell for each field in order, each the raw cell of its name taken through the
attributes of the field. -/
def ShownAs (reading : Field.Reading) (display : List Field) (raw shown : Row) : Prop :=
  shown.keys = display.map (·.name) ∧ ∀ f ∈ display, ∃ cell,
    carried reading raw f.attributes (rawCell raw f.name) = some cell ∧
    shown.get? f.name = some cell

theorem transformWith_eq (reading : Field.Reading) (raw : Row) (value : Json)
    (as : List Field.Attribute) :
    Field.transformWith reading raw value as = carried reading raw as value := by
  induction as generalizing value with
  | nil => rfl
  | cons a rest ih =>
    rw [Field.transformWith, carried, List.foldlM_cons]
    cases a.apply reading value raw with
    | none => rfl
    | some v => exact ih v

theorem shownAs_of_showRow {reading : Field.Reading} {display : List Field} {raw shown : Row}
    (distinct : (display.map (·.name)).Nodup) (done : showRow reading display raw = some shown) :
    ShownAs reading display raw shown := by
  obtain ⟨cells, each, rfl⟩ := Option.map_eq_some_iff.mp done
  have pairs := List.forall₂_of_mapM each
  have cell {f : Field} {e : String × Json} (here : showCell reading raw f = some e) :
      e.1 = f.name ∧ carried reading raw f.attributes (rawCell raw f.name) = some e.2 := by
    obtain ⟨v, value, rfl⟩ := Option.map_eq_some_iff.mp here
    exact ⟨rfl, (transformWith_eq _ _ _ _).symm.trans value⟩
  have names : cells.map Prod.fst = display.map (·.name) := by
    clear each distinct done
    induction pairs with
    | nil => rfl
    | cons here _ ih => rw [List.map_cons, List.map_cons, (cell here).1, ih]
  have once : (⟨cells⟩ : OrderedMap String Json).keys.Nodup := by
    rw [OrderedMap.keys, names]; exact distinct
  have whole : OrderedMap.ofList cells = ⟨cells⟩ := OrderedMap.empty_merge once
  rw [whole]
  refine ⟨names, fun f mem => ?_⟩
  have found : ∃ e ∈ cells, showCell reading raw f = some e := by
    clear each distinct names whole once done
    induction pairs with
    | nil => cases mem
    | cons here _ ih =>
      rcases List.mem_cons.mp mem with rfl | later
      · exact ⟨_, List.mem_cons_self, here⟩
      · obtain ⟨e, inside, shown⟩ := ih later
        exact ⟨e, List.mem_cons_of_mem _ inside, shown⟩
  obtain ⟨e, inside, here⟩ := found
  obtain ⟨name, value⟩ := cell here
  refine ⟨e.2, value, OrderedMap.get?_of_mem_entries once ?_⟩
  rw [← name]
  exact inside

/-- What the storage answers the statement for the rows with, and the request and the session
then. -/
def Fetches (r : Request) (s : Session) (raws : List Row) (r' : Request) (s' : Session) : Prop :=
  ∃ page x s₁, dataStatement r s = ((.ok (page, x), r'), s₁) ∧
    r.storage.fetch x s₁ = (.ok raws, s')

theorem request_of_dataStatement {r r' : Request} {s s' : Session} {page : Option PageInfo}
    {x : Sql.Statement} (asked : dataStatement r s = ((.ok (page, x), r'), s')) :
    ∃ filters query counts, r' = { r with filters, query, counts } := by
  rw [dataStatement, bind_ok _ (rfl : current r s = _)] at asked
  obtain ⟨_, r₁, s₁, done, rest⟩ := of_bind_ok asked
  obtain ⟨c, rfl, -⟩ := of_init done
  obtain ⟨-, -, -, q, counts, same⟩ := paging_ask_loaded r c s₁
  rw [rest] at same
  exact ⟨c, q, counts, same rfl⟩

theorem display_of_loaded {r r₁ r₂ : Request} {s₁ s₂ : Session} {raws : List Row}
    (page : Option PageInfo)
    (loaded : prefetchLabels raws r.displayFields r₁ s₁ = ((.ok (), r₂), s₂)) :
    ∃ s₃, s₂.Silent s₃ ∧ display r page raws r₁ s₁ =
      ((.ok ((raws.mapM (showRow { labels := r₂.labels, clock := r₂.clock } r.displayFields)).map
        fun rows => { rows, page }), r₂), s₃) := by
  rw [display, bind_ok _ loaded, bind_ok _ (rfl : current r₂ s₂ = _)]
  cases raws.mapM (showRow { labels := r₂.labels, clock := r₂.clock } r.displayFields) with
  | none => exact ⟨s₂, .refl s₂, rfl⟩
  | some rows =>
    let event := Event.executed r₂.report.name rows.length (page.map (·.page))
    exact ⟨{ s₂ with events := s₂.events ++ [event] }, ⟨rfl, rfl⟩, rfl⟩

/-- A run that ends well has fetched rows, loaded their labels and taken them through the
attributes. -/
theorem getData_ok {r : Request} (configured : r.preferences.isSome = true) {s : Session}
    {result : Option RowSet} (done : (getData r s).1.1 = .ok result) :
    ∃ raws r₁ s₁ s₂ page, r.Fetches s raws r₁ s₁ ∧
      prefetchLabels raws r.displayFields r₁ s₁ = ((.ok (), (getData r s).1.2), s₂) ∧
      s₂.Silent (getData r s).2 ∧
      result = (raws.mapM (showRow { labels := (getData r s).1.2.labels, clock := r.clock }
        r.displayFields)).map fun rows => { rows, page } := by
  rw [getData_eq configured] at done ⊢
  rcases asked : dataStatement r s with ⟨⟨e | ⟨page, x⟩, r₁⟩, s₁⟩
  · rw [bind_error _ asked] at done
    cases done
  rw [bind_ok _ asked, present] at done ⊢
  rcases fetched : r.storage.fetch x s₁ with ⟨e | raws, s₂⟩
  · rw [bind_error _ (act_eq fetched r₁)] at done
    cases done
  rw [bind_ok _ (act_eq fetched r₁)] at done ⊢
  have reads := Reading.prefetchLabels raws r.displayFields r₁ s₂
  rcases loaded : prefetchLabels raws r.displayFields r₁ s₂ with ⟨⟨e | _, r₂⟩, s₃⟩
  · rw [display, bind_error _ loaded] at done
    cases done
  rw [loaded] at reads
  obtain ⟨filters, query, counts, same⟩ := request_of_dataStatement asked
  have clock : r₂.clock = r.clock := by
    have kept : r₂.inputs.clock = r₁.inputs.clock := congrArg Request.clock reads.inputs
    rw [same] at kept
    exact kept
  obtain ⟨s₄, silent, shown⟩ := display_of_loaded page loaded
  rw [shown] at done ⊢
  cases done
  rw [← clock]
  exact ⟨raws, r₁, s₂, s₃, page, ⟨page, x, s₁, asked, fetched⟩, loaded, silent, rfl⟩

/-- A report shows one row for each row that came back, in the same order. Its keys are the
displayed fields; its cells are the raw cells taken through the attributes. The displayed fields are
those that the preferences show, each once, identifiers first, then by place and then as they are
declared. -/
theorem getData_rows {r : Request} {p : Preferences} (configured : r.preferences = some p)
    (distinct : (r.fields.map (·.name)).Nodup) (s : Session) {shown : RowSet}
    (done : (getData r s).1.1 = .ok (some shown)) :
    (∃ raws r' s', r.Fetches s raws r' s' ∧
      List.Forall₂
        (ShownAs { labels := (getData r s).1.2.labels, clock := r.clock } r.displayFields)
        raws shown.rows) ∧
    (∀ f, f ∈ r.displayFields ↔ f ∈ r.fields ∧ p.Shows f) ∧
    (r.displayFields.map (·.name)).Nodup ∧ r.displayFields.Pairwise (r.Precedes p) := by
  have once := nodup_displayFields distinct
  refine ⟨?_, mem_displayFields configured, once, pairwise_displayFields configured distinct⟩
  obtain ⟨raws, r', s', -, page, fetches, -, -, result⟩ :=
    getData_ok (by rw [configured]; rfl) done
  obtain ⟨rows, all, whole⟩ := Option.map_eq_some_iff.mp result.symm
  refine ⟨raws, r', s', fetches, ?_⟩
  rw [← whole]
  exact (List.forall₂_of_mapM all).imp fun raw row => shownAs_of_showRow once

/-- Scores whose rows lack a column and have one more, with two fields in one place. The query is
there already. -/
def scores : Request where
  report := taken
  storage := { dialect := .sqlite, answer := fun _ _ => .ok [
    .ofList [("id", .ofInt 1), ("extra", .null)],
    .ofList [("passed", .bool true), ("id", .ofInt 2)]] }
  preferences := some { layout := .timeline, fields := .ofList [("passed", { sortOrder := 3 }),
    ("name", { sortOrder := 3 }), ("note", { visible := false })] }
  fields := [Field.new "note" (some "t.note") "Note", Field.new "name" (some "t.name") "Name",
    (Field.new "passed" (some "t.passed") "Passed").withAttribute (.truth "Yes" "No"),
    (Field.new "id" (some "t.id") "ID").withAttribute .identifier]
  filters := .new "scores" { userId := 7 }
  query := some (taken.template.select "t.id" "id")

theorem displayFields_scores :
    scores.displayFields = [scores.fields[3], scores.fields[1], scores.fields[2]] := by
  cbv

def cellTexts (row : Row) : List (String × String) := row.entries.map fun e => (e.1, e.2.text)

theorem getData_rows_scores : ∃ shown, (getData scores {}).1.1 = .ok (some shown) ∧
    (∀ row ∈ shown.rows, row.keys = ["id", "name", "passed"]) ∧ shown.rows.map cellTexts =
      [[("id", "1"), ("name", "null"), ("passed", "\x22No\x22")],
        [("id", "2"), ("name", "null"), ("passed", "\x22Yes\x22")]] := by
  have texts : (getData scores {}).1.1.toOption.join.map (fun shown => shown.rows.map cellTexts) =
      some [[("id", "1"), ("name", "null"), ("passed", "\x22No\x22")],
        [("id", "2"), ("name", "null"), ("passed", "\x22Yes\x22")]] := by
    simp only [getData_eq (r := scores) rfl, present, display, displayFields_scores]
    decide +kernel
  rcases done : (getData scores {}).1.1 with e | _ | shown <;> rw [done] at texts
  · cases texts
  · cases texts
  · obtain ⟨⟨raws, r', s', -, rows⟩, -⟩ := getData_rows rfl (by decide +kernel) {} done
    refine ⟨shown, rfl, fun row mem => ?_, Option.some.inj texts⟩
    obtain ⟨i, inside, rfl⟩ := List.getElem_of_mem mem
    have keys := (List.forall₂_iff_get.mp rows).2 i (rows.length_eq ▸ inside) inside
    exact keys.1.trans (congrArg (List.map Field.name) displayFields_scores)

end Request

end Reports
