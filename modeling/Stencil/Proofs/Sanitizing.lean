import Stencil.Proofs.ForbiddenCharacters
import Stencil.Proofs.Outputs

namespace Stencil

open Markup

variable {options : Options} {properties : String} {fragment : Fragment} {value sanitized : Value}

/-- What a rendered value inserts has a forbidden character if the text of the value
has one: escaping and splitting into lines change nothing about that. -/
theorem hasForbidden_ofValue (value : Value) :
    (∃ text, (Rendered.ofValue options properties value).Inserts text ∧
        hasForbidden text = true) ↔ hasForbidden value.text = true := by
  unfold Rendered.ofValue
  split
  · simp [Rendered.Inserts]
  · split
    · rename_i text vocabulary _
      split
      · have some_line : (lines text).any hasForbidden = hasForbidden text :=
          any_lines isForbidden (by decide) text
        simp only [Rendered.inserts_ofLines, Value.text, ← some_line, List.any_eq_true]
        constructor
        · rintro ⟨_, ⟨line, member, rfl⟩, found⟩
          exact ⟨line, member, by simpa using found⟩
        · rintro ⟨line, member, found⟩
          exact ⟨_, ⟨line, member, rfl⟩, by simpa using found⟩
      · simp [Rendered.Inserts, Value.escapedText]
    · simp [Rendered.Inserts, Value.escapedText]

/-- The value is an array, and a string in it that has only arrays around it holds a
forbidden character. -/
def Value.HasForbiddenItem (value : Value) : Prop :=
  ∃ items, value = .array items ∧ ForbiddenAmong value.leaves

theorem hasForbidden_of_sanitize
    (guarded : options.stripForbidden = true ∨ options.isStrict = true)
    (cleaned : sanitize options fragment value = .ok sanitized) :
    hasForbidden sanitized.text = true ↔ value.HasForbiddenItem := by
  cases value with
  | string text =>
      have clean : hasForbidden sanitized.text = false := by
        simp only [sanitize] at cleaned
        split at cleaned
        · cases cleaned
          simp [Value.text]
        · rename_i kept
          split at cleaned
          · contradiction
          · rename_i accepted
            cases cleaned
            simpa [guarded.resolve_left kept, Value.text] using accepted
      simp [clean, Value.HasForbiddenItem]
  | array items =>
      cases cleaned
      simp [Value.hasForbidden_text, Value.HasForbiddenItem]
  | null | bool _ | number _ | object _ =>
      cases cleaned
      simp [Value.hasForbidden_text, Value.HasForbiddenItem, Value.ForbiddenAmong, Value.leaves]

variable {ε : Type} {language : Language ε} {nullPolicy : NullPolicy} {data : Value}
  {fragments : List Fragment} {position : Nat}

open OnePass

theorem stripped_or_reported {text : String}
    (placeholder : fragment.isPlaceholder = true) (unclaimed : fragment.isClaimed = false)
    (found : fragments[position]? = some fragment)
    (compiled : ∀ error ∈ (renderPart language options nullPolicy fragments data).compileErrors,
      error.position ≠ position)
    (valued : language.value? nullPolicy data fragment = some (.string text))
    (forbidden : hasForbidden text = true)
    (guarded : options.stripForbidden = true ∨ options.isStrict = true) :
    if options.stripForbidden then
      ∃ properties, (renderPart language options nullPolicy fragments data).outputs[position]? =
        some (.rendered (.ofValue options properties (.string (stripForbidden text))))
    else
      (renderPart language options nullPolicy fragments data).outputs[position]? =
          some .failed ∧
        .forbiddenCharacters fragment.expression text fragment.sourceOffset ∈
          (renderPart language options nullPolicy fragments data).renderErrors := by
  obtain ⟨properties, entry⟩ := entry_of_value options placeholder unclaimed found compiled
    valued
  rw [renderPart_outputs, renderPart_renderErrors, List.getElem?_map, entry]
  split
  · rename_i strip
    exact ⟨properties, by simp [sanitize, strip, Entry.ofOutcome]⟩
  · rename_i keep
    have strict : options.isStrict = true := guarded.resolve_left keep
    have refused : sanitize options fragment (.string text) =
        .error (.forbiddenCharacters fragment.expression text fragment.sourceOffset) := by
      simp [sanitize, keep, strict, forbidden]
    rw [refused] at entry ⊢
    exact ⟨rfl, List.mem_filterMap.mpr ⟨_, List.mem_of_getElem? entry, rfl⟩⟩

/-- Where forbidden characters are removed or refused, a text that stands for a
placeholder holds one exactly if the value is an array with such a string in it. A
string value that holds one is stripped or reported. -/
theorem forbidden_only_from_array_items {ε : Type} (language : Language ε) (options : Options)
    (nullPolicy : NullPolicy) (fragments : List Fragment) (data : Value)
    (guarded : options.stripForbidden = true ∨ options.isStrict = true) :
    (∀ (position : Nat) (result : Rendered),
      (renderPart language options nullPolicy fragments data).outputs[position]? =
          some (.rendered result) →
        ∃ fragment value, fragments[position]? = some fragment ∧
          language.value? nullPolicy data fragment = some value ∧
          ((∃ text, result.Inserts text ∧ hasForbidden text = true) ↔
            value.HasForbiddenItem)) ∧
    (∀ (position : Nat) (fragment : Fragment) (text : String),
      fragments[position]? = some fragment →
      fragment.isPlaceholder = true → fragment.isClaimed = false →
      (∀ error ∈ (renderPart language options nullPolicy fragments data).compileErrors,
        error.position ≠ position) →
      language.value? nullPolicy data fragment = some (.string text) →
      hasForbidden text = true →
        if options.stripForbidden then
          ∃ properties,
            (renderPart language options nullPolicy fragments data).outputs[position]? =
              some (.rendered (.ofValue options properties (.string (stripForbidden text))))
        else
          (renderPart language options nullPolicy fragments data).outputs[position]? =
              some .failed ∧
            .forbiddenCharacters fragment.expression text fragment.sourceOffset ∈
              (renderPart language options nullPolicy fragments data).renderErrors) := by
  constructor
  · intro position result present
    obtain ⟨fragment, value, sanitized, found, _, _, valued, cleaned, rfl⟩ := rendered_at present
    refine ⟨fragment, value, found, valued, ?_⟩
    rw [hasForbidden_ofValue, hasForbidden_of_sanitize guarded cleaned]
  · intro position fragment text found placeholder unclaimed compiled valued forbidden
    exact stripped_or_reported placeholder unclaimed found compiled valued forbidden guarded

/-- An array of one string, inserted with the control character that the string holds. -/
theorem array_item_keeps_forbidden :
    ¬ ∀ (fragments : List Fragment) (data : Value) (position : Nat) (result : Rendered)
        (text : String),
      (renderPart Path.language { stripForbidden := true } .standard fragments
          data).outputs[position]? = some (.rendered result) →
        result.Inserts text → hasForbidden text = false := by
  intro claim
  have inserted : (renderPart Path.language { stripForbidden := true } .standard
      [.placeholder 0 "." 0] (.array [.string "\x01"])).outputs[0]? =
        some (.rendered (.escaped "\x01")) := by
    rw [renderPart_outputs]
    rfl
  have clean := claim _ _ 0 _ "\x01" inserted rfl
  revert clean
  decide

theorem array_item_of_strict_document :
    ({} : Options).isStrict = true ∧
      ∃ fragment value, [Fragment.placeholder 0 "." 0][0]? = some fragment ∧
        Path.language.value? .standard (.array [.string "\x01"]) fragment = some value ∧
        ((∃ text, (Rendered.escaped "\x01").Inserts text ∧ hasForbidden text = true) ↔
          value.HasForbiddenItem) := by
  have strict : ({} : Options).isStrict = true := by decide
  refine ⟨strict, ?_⟩
  have inserted : (renderPart Path.language {} .standard [.placeholder 0 "." 0]
      (.array [.string "\x01"])).outputs[0]? = some (.rendered (.escaped "\x01")) := by
    rw [renderPart_outputs]
    rfl
  exact (forbidden_only_from_array_items Path.language {} .standard [.placeholder 0 "." 0]
    (.array [.string "\x01"]) (.inr strict)).1 0 _ inserted

end Stencil
