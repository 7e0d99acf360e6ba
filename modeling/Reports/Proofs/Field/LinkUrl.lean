import Reports.Field.Link
import Reports.Proofs.List
import Reports.Proofs.Text.Decimal
import Reports.Proofs.Text.Percent
import Reports.Text.Scanner

/-! Addresses of links. A template is cut at its placeholders in exactly one way, and its address is
the template with an encoded cell in the place of each. -/
namespace Reports.Field.Link

open Reports.Text (Scanner percentEncode percentDecode percentBytes)

/-- A placeholder and the literal text before it. -/
structure Slot where
  before : List Char
  column : List Char

namespace Slot

def text (s : Slot) : List Char := s.before ++ '\x7b' :: (s.column ++ ['\x7d'])

/-- It opens with the first brace that opens, and closes with the next that closes. -/
structure Leftmost (s : Slot) : Prop where
  opens : '\x7b' ∉ s.before
  closes : '\x7d' ∉ s.column

def filled (value : String → String) (s : Slot) : List Char :=
  s.before ++ (value (String.ofList s.column)).toList

end Slot

/-- No brace that opens is closed later. -/
def Unclosed (cs : List Char) : Prop :=
  ∀ before behind, cs = before ++ '\x7b' :: behind → '\x7d' ∉ behind

/-- A template as its placeholders from left to right, and what is left behind the last. -/
structure Cut (template : List Char) (slots : List Slot) (last : List Char) : Prop where
  whole : template = slots.flatMap Slot.text ++ last
  leftmost : ∀ s ∈ slots, s.Leftmost
  rest : Unclosed last

theorem unclosed_of_notMem {cs : List Char} (none : '\x7b' ∉ cs) : Unclosed cs := by
  rintro before behind rfl
  exact absurd (List.mem_append_right _ List.mem_cons_self) none

theorem unclosed_append {before behind : List Char} (opens : '\x7b' ∉ before)
    (none : '\x7d' ∉ behind) :
    Unclosed (before ++ '\x7b' :: behind) := by
  intro x y same mem
  rcases List.append_eq_append_iff.mp same with ⟨more, -, tail⟩ | ⟨more, rfl, tail⟩
  · cases more with
    | nil => exact none ((List.cons.inj tail).2 ▸ mem)
    | cons c more =>
      rw [List.cons_append] at tail
      apply none
      rw [(List.cons.inj tail).2]
      exact List.mem_append_right _ (List.mem_cons_of_mem _ mem)
  · cases more with
    | nil => exact none ((List.cons.inj tail).2 ▸ mem)
    | cons c more =>
      rw [List.cons_append] at tail
      apply opens
      rw [(List.cons.inj tail).1]
      exact List.mem_append_right _ List.mem_cons_self

theorem exists_cut (cs : List Char) : ∃ slots last, Cut cs slots last := by
  induction length : cs.length using Nat.strong_induction_on generalizing cs with
  | h n ih =>
    by_cases opens : '\x7b' ∈ cs
    · obtain ⟨before, behind, rfl, first⟩ := List.eq_append_cons_of_mem opens
      by_cases closes : '\x7d' ∈ behind
      · obtain ⟨column, later, rfl, next⟩ := List.eq_append_cons_of_mem closes
        have shorter : later.length < n := by
          simp only [List.length_append, List.length_cons] at length
          omega
        obtain ⟨slots, last, whole, leftmost, rest⟩ := ih _ shorter later rfl
        refine ⟨⟨before, column⟩ :: slots, last, ?_,
          List.forall_mem_cons.mpr ⟨⟨first, next⟩, leftmost⟩, rest⟩
        simp [whole, Slot.text]
      · exact ⟨[], _, rfl, fun s mem => (nomatch mem), unclosed_append first closes⟩
    · exact ⟨[], cs, rfl, fun s mem => (nomatch mem), unclosed_of_notMem opens⟩

theorem text_append (s : Slot) (rest : List Char) :
    s.text ++ rest = s.before ++ '\x7b' :: (s.column ++ '\x7d' :: rest) := by
  simp [Slot.text]

theorem not_unclosed_text (s : Slot) (rest : List Char) : ¬Unclosed (s.text ++ rest) := by
  intro unclosed
  exact unclosed _ _ (text_append s rest) (List.mem_append_right _ List.mem_cons_self)

theorem text_inj {s s' : Slot} (leftmost : s.Leftmost) (leftmost' : s'.Leftmost)
    {rest rest' : List Char} (same : s.text ++ rest = s'.text ++ rest') :
    s = s' ∧ rest = rest' := by
  rw [text_append, text_append] at same
  obtain ⟨before, behind⟩ := List.split_unique leftmost.opens leftmost'.opens same
  obtain ⟨column, later⟩ := List.split_unique leftmost.closes leftmost'.closes behind
  cases s
  cases s'
  simp_all only [and_self]

theorem Cut.unique {cs : List Char} {slots slots' : List Slot} {last last' : List Char}
    (cut : Cut cs slots last) (cut' : Cut cs slots' last') : slots' = slots ∧ last' = last := by
  induction slots generalizing cs slots' with
  | nil =>
    cases slots' with
    | nil => exact ⟨rfl, cut'.whole.symm.trans cut.whole⟩
    | cons s' slots' =>
      have whole := cut.whole.symm.trans cut'.whole
      rw [List.flatMap_nil, List.nil_append, List.flatMap_cons, List.append_assoc] at whole
      exact absurd (whole ▸ cut.rest) (not_unclosed_text _ _)
  | cons s slots ih =>
    have whole := cut.whole
    rw [List.flatMap_cons, List.append_assoc] at whole
    cases slots' with
    | nil =>
      have rest : cs = last' := cut'.whole
      exact absurd (whole ▸ rest ▸ cut'.rest) (not_unclosed_text _ _)
    | cons s' slots' =>
      have whole' := cut'.whole
      rw [List.flatMap_cons, List.append_assoc] at whole'
      obtain ⟨here, leftmost⟩ := List.forall_mem_cons.mp cut.leftmost
      obtain ⟨here', leftmost'⟩ := List.forall_mem_cons.mp cut'.leftmost
      obtain ⟨rfl, later⟩ := text_inj here here' (whole.symm.trans whole')
      obtain ⟨slots, last⟩ := ih ⟨rfl, leftmost, cut.rest⟩ ⟨later, leftmost', cut'.rest⟩
      exact ⟨congrArg (s :: ·) slots, last⟩

variable (value : String → String)

theorem run_literal {cs : List Char} (none : '\x7b' ∉ cs) (rest : List Char) :
    (scanner value).run .literal (cs ++ rest) = cs ++ (scanner value).run .literal rest := by
  induction cs with
  | nil => rfl
  | cons c cs ih =>
    have other : c ≠ '\x7b' := fun same => none (same ▸ List.mem_cons_self)
    have step : (scanner value).step .literal c = ([c], .literal) := if_neg other
    have later := ih fun mem => none (List.mem_cons_of_mem _ mem)
    rw [List.cons_append, Scanner.run_cons, step, later]
    rfl

theorem step_column {c : Char} (other : c ≠ '\x7d') (name : List Char) :
    (scanner value).step (.column name) c = ([], .column (c :: name)) := if_neg other

theorem run_column {cs : List Char} (none : '\x7d' ∉ cs) (name rest : List Char) :
    (scanner value).run (.column name) (cs ++ '\x7d' :: rest) =
      (value (String.ofList (name.reverse ++ cs))).toList ++ (scanner value).run .literal rest := by
  induction cs generalizing name with
  | nil =>
    have step : (scanner value).step (.column name) '\x7d' =
        ((value (String.ofList name.reverse)).toList, .literal) := rfl
    rw [List.nil_append, Scanner.run_cons, step, List.append_nil]
  | cons c cs ih =>
    have other : c ≠ '\x7d' := fun same => none (same ▸ List.mem_cons_self)
    have later := ih (fun mem => none (List.mem_cons_of_mem _ mem)) (c :: name)
    rw [List.cons_append, Scanner.run_cons, step_column value other, later]
    simp

theorem run_unclosed_column {cs : List Char} (none : '\x7d' ∉ cs) (name : List Char) :
    (scanner value).run (.column name) cs = '\x7b' :: (name.reverse ++ cs) := by
  induction cs generalizing name with
  | nil =>
    rw [List.append_nil]
    rfl
  | cons c cs ih =>
    have other : c ≠ '\x7d' := fun same => none (same ▸ List.mem_cons_self)
    have later := ih (fun mem => none (List.mem_cons_of_mem _ mem)) (c :: name)
    rw [Scanner.run_cons, step_column value other, later]
    simp

theorem step_opens : (scanner value).step .literal '\x7b' = ([], .column []) := rfl

theorem run_slot {s : Slot} (leftmost : s.Leftmost) (rest : List Char) :
    (scanner value).run .literal (s.text ++ rest) = s.filled value ++
    (scanner value).run .literal rest := by
  rw [text_append, run_literal value leftmost.opens, Scanner.run_cons, step_opens, List.nil_append,
    run_column value leftmost.closes, Slot.filled, List.append_assoc]
  rfl

theorem run_unclosed {cs : List Char} (unclosed : Unclosed cs) :
    (scanner value).run .literal cs = cs := by
  by_cases opens : '\x7b' ∈ cs
  · obtain ⟨before, behind, rfl, first⟩ := List.eq_append_cons_of_mem opens
    rw [run_literal value first, Scanner.run_cons, step_opens, List.nil_append,
      run_unclosed_column value (unclosed before behind rfl)]
    rfl
  · have whole := run_literal value opens []
    rw [List.append_nil] at whole
    rw [whole, Scanner.run_nil]
    exact List.append_nil cs

theorem run_cut {cs : List Char} {slots : List Slot} {last : List Char} (cut : Cut cs slots last) :
    (scanner value).run .literal cs = slots.flatMap (Slot.filled value) ++ last := by
  obtain ⟨rfl, leftmost, rest⟩ := cut
  induction slots with
  | nil => exact run_unclosed value rest
  | cons s slots ih =>
    obtain ⟨here, later⟩ := List.forall_mem_cons.mp leftmost
    rw [List.flatMap_cons, List.append_assoc, run_slot value here, ih later, List.flatMap_cons,
      List.append_assoc]

inductive CellText (row : Row) (column : String) : String → Prop
  | missing : row.get? column = none → CellText row column ""
  | null : row.get? column = some .null → CellText row column ""
  | text {s : String} : row.get? column = some (.string s) → CellText row column s
  | value {v : Json} : row.get? column = some v → v ≠ .null → (∀ s, v ≠ .string s) →
    CellText row column v.text

theorem cellText_columnText (row : Row) (column : String) :
    CellText row column (columnText row column) := by
  unfold columnText
  cases found : row.get? column with
  | none => exact .missing found
  | some v =>
    cases v with
    | null => exact .null found
    | string s => exact .text found
    | bool b => exact .value found Json.noConfusion fun s => Json.noConfusion
    | number n => exact .value found Json.noConfusion fun s => Json.noConfusion
    | array xs => exact .value found Json.noConfusion fun s => Json.noConfusion
    | object ms => exact .value found Json.noConfusion fun s => Json.noConfusion

/-- A template is cut in one way, and for every row the address is what was cut with the encoded
text of a cell in the place of each placeholder. No encoded text has a brace, and each can be read
back. -/
theorem url_substitutes (l : Link) : ∃ slots last, Cut l.template.toList slots last ∧
    (∀ slots' last', Cut l.template.toList slots' last' → slots' = slots ∧ last' = last) ∧
    ∀ row, ∃ text : String → String, (∀ column, CellText row column (text column)) ∧
      (l.url row).toList =
        (slots.flatMap fun s => s.before ++
          (percentEncode (text (String.ofList s.column))).toList) ++ last ∧
      ∀ column, let encoded := percentEncode (text column)
        (text column = "" → encoded = "") ∧
          (∀ c ∈ encoded.toList, c ≠ '\x7b' ∧ c ≠ '\x7d') ∧
          percentBytes encoded.toList = (text column).toUTF8.toList ∧
          percentDecode encoded = some (text column) := by
  obtain ⟨slots, last, cut⟩ := exists_cut l.template.toList
  refine ⟨slots, last, cut, fun slots' last' cut' => cut.unique cut', fun row => ?_⟩
  refine ⟨columnText row, cellText_columnText row, ?_, fun column => ⟨?_, ?_, ?_, ?_⟩⟩
  · rw [url, String.toList_ofList, run_cut _ cut]
    rfl
  · intro empty
    rw [empty, Text.percentEncode_empty]
  · intro c mem
    exact Text.braceless_percentEncode mem
  · exact Text.percentBytes_percentEncode _
  · exact Text.percentDecode_percentEncode _

/-- A brace that opens inside a placeholder belongs to its name, and one that is not closed is
literal. -/
example : (({ template := "/a?x=\x7bn\x7bm\x7d&y=\x7b\x7d\x7bk" : Link }).url
    (.ofList [("n\x7bm", .string "\x7bq\x7d é"), ("q", .string "z")])) =
      "/a?x=%7Bq%7D%20%C3%A9&y=\x7bk" := by
  decide +kernel

end Reports.Field.Link
