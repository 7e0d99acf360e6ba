import Reports.Field.Attribute
import Reports.Text.Scanner

/-! Markup in cells. An anchor and an image have the markup characters of their configuration and
none of the row. A cell that a link leaves as it is keeps its own. -/
namespace Reports.Text

/-- The characters that open and close tags and the values of their attributes. -/
def isMarkup (c : Char) : Bool := c == '<' || c == '>' || c == '\x22' || c == '\x27'

def markup (s : String) : List Char := s.toList.filter isMarkup

theorem markup_append (s t : String) : markup (s ++ t) = markup s ++ markup t := by simp [markup]

theorem markup_mapChars {f : Char → List Char} (inert : ∀ c, (f c).filter isMarkup = [])
    (s : String) :
    markup (mapChars f s) = [] := by
  rw [markup, mapChars, String.toList_ofList, List.filter_flatMap]
  exact List.flatMap_eq_nil_iff.mpr fun c _ => inert c

theorem filter_markupChar (c : Char) : (markupChar c).filter isMarkup = [] := by
  unfold markupChar
  split
  case h_15 opening closing double single _ _ _ _ _ _ _ _ _ _ =>
    have other : isMarkup c = false := by
      simpa [isMarkup] using ⟨⟨⟨opening, closing⟩, double⟩, single⟩
    rw [List.filter_cons_of_neg (by simp [other]), List.filter_nil]
  all_goals decide

theorem markup_escapeMarkup (s : String) : markup (escapeMarkup s) = [] :=
  markup_mapChars filter_markupChar s

theorem filter_percentByte (b : UInt8) : (percentByte b).filter isMarkup = [] := by
  have all : ∀ n < 256, (percentByte (UInt8.ofNat n)).filter isMarkup = [] := by decide +kernel
  rw [← UInt8.ofNat_toNat (x := b)]
  exact all b.toNat b.toNat_lt

theorem markup_percentEncode (s : String) : markup (percentEncode s) = [] := by
  rw [markup, percentEncode, String.toList_ofList, List.filter_flatMap]
  exact List.flatMap_eq_nil_iff.mpr fun b _ => filter_percentByte b

end Reports.Text

namespace Reports.Field

open Reports.Text (Scanner isMarkup markup escapeMarkup percentEncode)

namespace Link

def label (l : Link) (value : Json) (row : Row) : String :=
  match l.labelField with
  | some field => columnText row field
  | none => value.cellText

def literalText (l : Link) : String :=
  String.ofList ((scanner fun _ => "").run .literal l.template.toList)

/-- The markup of an anchor: that of the tags, the quotes around the values of their attributes, and
what the template has of its own. -/
def skeleton (l : Link) : List Char :=
  ['<', '\x22'] ++ markup l.literalText ++ ['\x22'] ++
    (if l.target.isSome then ['\x22', '\x22'] else []) ++
    (if l.button then ['\x22', '\x22'] else []) ++ ['>', '<', '>']

theorem filter_run {value : String → String}
    (inert : ∀ column, markup (value column) = []) (s : State) (cs : List Char) :
      ((scanner value).run s cs).filter isMarkup =
      ((scanner fun _ => "").run s cs).filter isMarkup := by
  induction cs generalizing s with
  | nil => cases s <;> rfl
  | cons c rest ih =>
    rw [Scanner.run_cons, Scanner.run_cons, List.filter_append, List.filter_append]
    cases s with
    | literal =>
      by_cases opens : c = '\x7b'
      · simp only [scanner, if_pos opens]
        exact congrArg _ (ih _)
      · simp only [scanner, if_neg opens]
        exact congrArg _ (ih _)
    | column name =>
      by_cases closes : c = '\x7d'
      · have held : (value (String.ofList name.reverse)).toList.filter isMarkup = [] := inert _
        simp only [scanner, if_pos closes, held]
        exact ih _
      · simp only [scanner, if_neg closes]
        exact ih _

theorem markup_url (l : Link) (row : Row) : markup (l.url row) = markup l.literalText := by
  rw [markup, markup, url, literalText, String.toList_ofList, String.toList_ofList]
  exact filter_run (fun _ => Text.markup_percentEncode _) _ _

theorem apply_eq (l : Link) (value : Json) (row : Row) :
    l.apply value row =
      if (l.label value row).isEmpty then value
      else .string ("<a href=\"" ++ l.url row ++ "\"" ++
        (match l.target with
          | some t => " target=\"" ++ escapeMarkup t ++ "\""
          | none => "") ++
        (if l.button then " class=\"btn btn-secondary\"" else "") ++ ">" ++
        escapeMarkup (l.label value row) ++ "</a>") := rfl

theorem markup_anchor (l : Link) {value : Json} {row : Row} (labelled : l.label value row ≠ "") :
    ∃ s, l.apply value row = .string s ∧ markup s = l.skeleton := by
  have shown : (l.label value row).isEmpty = false := by simpa using labelled
  refine ⟨_, by rw [apply_eq, shown]; rfl, ?_⟩
  have target : markup (match l.target with
      | some t => " target=\"" ++ escapeMarkup t ++ "\""
      | none => "") = if l.target.isSome then ['\x22', '\x22'] else [] := by
    cases l.target with
    | none => rfl
    | some t =>
      simp only [Text.markup_append, Text.markup_escapeMarkup]
      rfl
  have style : markup (if l.button then " class=\"btn btn-secondary\"" else "") =
      if l.button then ['\x22', '\x22'] else [] := by
    cases l.button <;> decide +kernel
  simp only [Text.markup_append, Text.markup_escapeMarkup, markup_url, target, style, skeleton]
  simp [markup, isMarkup]

theorem apply_unlabelled (l : Link) {value : Json} {row : Row}
    (unlabelled : l.label value row = "") :
    l.apply value row = value := by
  rw [apply_eq, unlabelled]
  rfl

theorem two_lt_length_skeleton (l : Link) : 2 < l.skeleton.length := by
  simp only [skeleton, List.length_append, List.length_cons, List.length_nil]
  omega

end Link

theorem cellText_eq_empty {value : Json} {s : String} (text : value = .string s)
    (empty : value.cellText = "") : s = "" := by
  subst text
  exact empty

namespace Attribute

/-- Whatever the row, a text that comes out has no markup characters or these. -/
def Confined (a : Attribute) (r : Reading) (skeleton : List Char) : Prop :=
  ∀ value row s, a.apply r value row = some (.string s) → markup s = [] ∨ markup s = skeleton

theorem markup_image (r : Reading) (altField : Option String) {value : Json} (row : Row)
    (shown : value.cellText ≠ "") :
    ∃ s, (image altField).apply r value row = some (.string s) ∧
      markup s = ['<', '\x22', '\x22', '\x22', '\x22', '>'] := by
  have source : value.cellText.isEmpty = false := by simpa using shown
  refine ⟨_, by rw [apply, source]; rfl, ?_⟩
  simp only [Text.markup_append, Text.markup_escapeMarkup]
  decide +kernel

/-- A column bound to the label may be empty, and then the cell comes out as it is. -/
theorem not_confined_of_label (r : Reading) {l : Link} {field : String}
    (bound : l.labelField = some field) :
    ¬(link l).Confined r l.skeleton := by
  intro confined
  have unlabelled : l.label (.string "<") ∅ = "" := by rw [Link.label, bound]; rfl
  have passed : (link l).apply r (.string "<") ∅ = some (.string "<") :=
    congrArg some (l.apply_unlabelled unlabelled)
  have one : markup "<" = ['<'] := by decide
  rcases confined _ _ _ passed with none | whole
  · rw [one] at none
    cases none
  · have long := l.two_lt_length_skeleton
    rw [← whole, one] at long
    exact absurd long (by decide)

/-- Markup comes from the configuration. An anchor and an image have exactly the markup characters
of their tags and of the link's template, whatever is in the row. A cell whose label is empty comes
out as it is: without a label field that is nothing or the empty text, but with one it may be any
text, and so a link keeps the markup of rows out exactly when it has no label field. -/
theorem markup_of_configuration (r : Reading) (l : Link) (altField : Option String) :
    (∀ value row, l.label value row ≠ "" →
      ∃ s, (link l).apply r value row = some (.string s) ∧ markup s = l.skeleton) ∧
    (∀ value row, l.label value row = "" → (link l).apply r value row = some value) ∧
    ((link l).Confined r l.skeleton ↔ l.labelField = none) ∧
    ∀ value row, if value.cellText = "" then (image altField).apply r value row = some .null
      else ∃ s, (image altField).apply r value row = some (.string s) ∧
        markup s = ['<', '\x22', '\x22', '\x22', '\x22', '>'] := by
  have anchor (value : Json) (row : Row) (labelled : l.label value row ≠ "") :
      ∃ s, (link l).apply r value row = some (.string s) ∧ markup s = l.skeleton := by
    obtain ⟨s, shown, skeleton⟩ := l.markup_anchor labelled
    exact ⟨s, congrArg some shown, skeleton⟩
  have passes (value : Json) (row : Row) (unlabelled : l.label value row = "") :
      (link l).apply r value row = some value := congrArg some (l.apply_unlabelled unlabelled)
  refine ⟨anchor, passes, ⟨fun confined => ?_, fun unbound value row s shown => ?_⟩,
    fun value row => ?_⟩
  · cases bound : l.labelField with
    | none => rfl
    | some field => exact absurd confined (not_confined_of_label r bound)
  · by_cases unlabelled : l.label value row = ""
    · rw [passes value row unlabelled] at shown
      rw [Link.label, unbound] at unlabelled
      rw [cellText_eq_empty (Option.some.inj shown) unlabelled]
      exact .inl rfl
    · obtain ⟨s', shown', skeleton⟩ := anchor value row unlabelled
      rw [shown'] at shown
      cases shown
      exact .inr skeleton
  · split
    · next empty =>
      rw [apply, empty]
      rfl
    · next shown => exact markup_image r altField row shown

example : (link { template := "/user/\x7bid\x7d", labelField := some "nick" }).apply {}
    (.string "<b>Ann</b>") (.ofList [("id", .ofInt 3), ("nick", .null)]) =
      some (.string "<b>Ann</b>") := rfl

end Attribute

end Reports.Field
