import Stencil.Proofs.ElementTree
import Stencil.RunFormatting

namespace Stencil

namespace RunVocabulary

/-- A tag of the run or of its properties, whatever its position. -/
def Marks (vocabulary : RunVocabulary) (fragment : Fragment) : Prop :=
  fragment.hasTag vocabulary.runTag = true ∨ fragment.hasTag vocabulary.runPropertiesTag = true

/-- A tag that begins a run, or begins or ends run properties. -/
def Disturbs (vocabulary : RunVocabulary) (fragment : Fragment) : Prop :=
  (fragment.hasTag vocabulary.runTag = true ∧ fragment.tagPosition = .start) ∨
    (fragment.hasTag vocabulary.runPropertiesTag = true ∧ fragment.tagPosition ≠ .none)

instance (vocabulary : RunVocabulary) (fragment : Fragment) :
    Decidable (vocabulary.Marks fragment) :=
  inferInstanceAs (Decidable (_ ∨ _))

instance (vocabulary : RunVocabulary) (fragment : Fragment) :
    Decidable (vocabulary.Disturbs fragment) :=
  inferInstanceAs (Decidable (_ ∨ _))

variable {vocabulary : RunVocabulary} {fragment : Fragment}

theorem Disturbs.marks (disturbs : vocabulary.Disturbs fragment) : vocabulary.Marks fragment :=
  disturbs.imp And.left And.left

end RunVocabulary

theorem Dialect.tags_distinct {dialect : Dialect} {vocabulary : RunVocabulary}
    (known : dialect.vocabulary? = some vocabulary) :
    vocabulary.runTag ≠ vocabulary.runPropertiesTag ∧ vocabulary.textTag ≠ vocabulary.runTag ∧
      vocabulary.textTag ≠ vocabulary.runPropertiesTag := by
  cases dialect with
  | docx | pptx =>
      cases known
      decide
  | xlsx | text => cases known

theorem Dialect.not_isPlainText {dialect : Dialect} {vocabulary : RunVocabulary}
    (known : dialect.vocabulary? = some vocabulary) : dialect.isPlainText = false := by
  cases dialect with
  | docx | pptx | xlsx => rfl
  | text => cases known

theorem RunVocabulary.no_run {vocabulary : RunVocabulary} {fragment : Fragment}
    (distinct : vocabulary.runTag ≠ vocabulary.runPropertiesTag)
    (properties : fragment.hasTag vocabulary.runPropertiesTag = true) :
    fragment.hasTag vocabulary.runTag = false := by
  rw [Fragment.hasTag_iff] at properties
  simpa [Fragment.hasTag, properties] using distinct.symm

namespace RunFormatting

def after (dialect : Dialect) (fragments : List Fragment) : RunFormatting :=
  fragments.foldl observe (.initial dialect)

variable {vocabulary : RunVocabulary} {fragment : Fragment} {fragments : List Fragment}
  {inside : Bool} {texts : List String}

theorem observe_run_start (run : fragment.hasTag vocabulary.runTag = true)
    (start : fragment.tagPosition = .start) :
    observe ⟨some vocabulary, inside, texts⟩ fragment = ⟨some vocabulary, inside, []⟩ := by
  simp [observe, run, start]

theorem observe_run_other (run : fragment.hasTag vocabulary.runTag = true)
    (other : fragment.tagPosition ≠ .start) :
    observe ⟨some vocabulary, inside, texts⟩ fragment = ⟨some vocabulary, inside, texts⟩ := by
  simp [observe, run, other]

theorem observe_properties_start (noRun : fragment.hasTag vocabulary.runTag = false)
    (properties : fragment.hasTag vocabulary.runPropertiesTag = true)
    (start : fragment.tagPosition = .start) :
    observe ⟨some vocabulary, inside, texts⟩ fragment =
      ⟨some vocabulary, true, [fragment.text]⟩ := by
  simp [observe, noRun, properties, start]

theorem observe_properties_last (noRun : fragment.hasTag vocabulary.runTag = false)
    (properties : fragment.hasTag vocabulary.runPropertiesTag = true)
    (last : fragment.tagPosition = .end ∨ fragment.tagPosition = .selfClosing) :
    observe ⟨some vocabulary, inside, texts⟩ fragment =
      ⟨some vocabulary, false, texts ++ [fragment.text]⟩ := by
  rcases last with last | last <;> simp [observe, noRun, properties, last]

theorem observe_properties_none (noRun : fragment.hasTag vocabulary.runTag = false)
    (properties : fragment.hasTag vocabulary.runPropertiesTag = true)
    (none : fragment.tagPosition = .none) :
    observe ⟨some vocabulary, inside, texts⟩ fragment = ⟨some vocabulary, inside, texts⟩ := by
  simp [observe, noRun, properties, none]

theorem observe_unmarked (unmarked : ¬ vocabulary.Marks fragment) :
    observe ⟨some vocabulary, inside, texts⟩ fragment =
      ⟨some vocabulary, inside, if inside then texts ++ [fragment.text] else texts⟩ := by
  simp only [RunVocabulary.Marks, not_or, Bool.not_eq_true] at unmarked
  cases inside <;> simp [observe, unmarked.1, unmarked.2]

end RunFormatting

/-! ### Streams of runs -/

namespace Fragment

def startTag (name : String) : Fragment :=
  .tag 0 name .start ("<" ++ name ++ ">")

def endTag (name : String) : Fragment :=
  .tag 0 name .end ("</" ++ name ++ ">")

def emptyTag (name : String) : Fragment :=
  .tag 0 name .selfClosing ("<" ++ name ++ "/>")

/-- A paragraph up to the text in its only run, which is bold, and its end. -/
def boldText : List Fragment :=
  [startTag "w:p", startTag "w:r", startTag "w:rPr", emptyTag "w:b", endTag "w:rPr",
    startTag "w:t"]

def textEnd : List Fragment :=
  [endTag "w:t", endTag "w:r", endTag "w:p"]

end Fragment

end Stencil
