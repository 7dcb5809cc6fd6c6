import Stencil.Proofs.StrippedSources
import Stencil.Text.Characters

namespace Stencil

/-! The characters that validation and stripping let through, against those that an XML
document may hold. The control characters are told apart as XML 1.0 does it. The two last
code points of the basic plane are in no document either, and they pass. -/

namespace Markup

/-- The production Char of XML 1.0. -/
def xmlRanges : Text.CodeRanges :=
  [(0x9, 0x9), (0xA, 0xA), (0xD, 0xD), (0x20, 0xD7FF), (0xE000, 0xFFFD), (0x10000, 0x10FFFF)]

def isXmlChar (c : Char) : Bool :=
  xmlRanges.contains c

/-- U+FFFE and U+FFFF. -/
def isLastOfPlane (c : Char) : Bool :=
  c.toNat == 0xFFFE || c.toNat == 0xFFFF

theorem isXmlChar_iff {c : Char} :
    isXmlChar c = true ↔
      c.toNat = 0x9 ∨ c.toNat = 0xA ∨ c.toNat = 0xD ∨
        (0x20 ≤ c.toNat ∧ c.toNat ≠ 0xFFFE ∧ c.toNat ≠ 0xFFFF) := by
  have scalar : c.toNat < 0xD800 ∨ (0xDFFF < c.toNat ∧ c.toNat < 0x110000) := c.valid
  simp only [isXmlChar, Text.CodeRanges.contains_iff, xmlRanges, List.mem_cons,
    List.not_mem_nil, or_false, exists_eq_or_imp, exists_eq_left]
  omega

theorem isForbidden_iff {c : Char} :
    isForbidden c = true ↔
      c.toNat < 0x20 ∧ c.toNat ≠ 0x9 ∧ c.toNat ≠ 0xA ∧ c.toNat ≠ 0xD := by
  simp [isForbidden, ← Char.toNat_inj, and_assoc]

/-- A character passes if it is one of XML or one of the two code points. -/
theorem not_isForbidden_iff {c : Char} :
    isForbidden c = false ↔ isXmlChar c = true ∨ isLastOfPlane c = true := by
  rw [← Bool.not_eq_true, isForbidden_iff, isXmlChar_iff, isLastOfPlane, Bool.or_eq_true,
    beq_iff_eq, beq_iff_eq]
  omega

theorem not_isXmlChar_of_last {c : Char} (last : isLastOfPlane c = true) :
    isXmlChar c = false := by
  simp only [isLastOfPlane, Bool.or_eq_true, beq_iff_eq] at last
  rw [← Bool.not_eq_true, isXmlChar_iff]
  omega

theorem hasForbidden_iff {text : String} :
    hasForbidden text = false ↔
      ∀ c ∈ text.toList, isXmlChar c = true ∨ isLastOfPlane c = true := by
  simp only [hasForbidden, List.any_eq_false, Bool.not_eq_true, not_isForbidden_iff]

/-- Where neither of the two code points occurs, or another character is refused anyway,
no forbidden character means XML characters only. -/
theorem hasForbidden_exact {text : String} :
    (hasForbidden text = false ↔ ∀ c ∈ text.toList, isXmlChar c = true) ↔
      (hasForbidden text = true ∨ ∀ c ∈ text.toList, isLastOfPlane c = false) := by
  cases refused : hasForbidden text with
  | true =>
      have outside : ¬ ∀ c ∈ text.toList, isXmlChar c = true := by
        intro legal
        rw [hasForbidden_iff.mpr fun c member => .inl (legal c member)] at refused
        contradiction
      simp [outside]
  | false =>
      have passes := hasForbidden_iff.mp refused
      simp only [true_iff, Bool.false_eq_true, false_or]
      constructor
      · intro legal c member
        cases last : isLastOfPlane c with
        | false => rfl
        | true => rw [← legal c member, not_isXmlChar_of_last last]
      · intro none c member
        simpa [none c member] using passes c member

theorem stripForbidden_eq (text : String) :
    stripForbidden text =
      String.ofList (text.toList.filter fun c => isXmlChar c || isLastOfPlane c) := by
  have same (c : Char) : (!isForbidden c) = (isXmlChar c || isLastOfPlane c) := by
    rw [Bool.eq_iff_iff, Bool.not_eq_true', not_isForbidden_iff, Bool.or_eq_true]
  simp only [stripForbidden, same]

theorem filter_exact (chars : List Char) :
    (chars.filter fun c => isXmlChar c || isLastOfPlane c) = chars.filter isXmlChar ↔
      ∀ c ∈ chars, isLastOfPlane c = false := by
  constructor
  · intro same c member
    cases last : isLastOfPlane c with
    | false => rfl
    | true =>
        have passes : c ∈ chars.filter fun c => isXmlChar c || isLastOfPlane c :=
          List.mem_filter.mpr ⟨member, by rw [last, Bool.or_true]⟩
        rw [same] at passes
        have legal := (List.mem_filter.mp passes).2
        rw [not_isXmlChar_of_last last] at legal
        contradiction
  · intro none
    refine List.filter_congr fun c member => ?_
    rw [none c member, Bool.or_false]

end Markup

open Markup

namespace Session

variable {session : Session} {fragment : Fragment} {text : String}

/-- A placeholder that resolves to a text. -/
theorem render_snd_of_text (placeholder : fragment.isPlaceholder = true)
    (unclaimed : fragment.isClaimed = false)
    (resolved : session.resolver fragment.expression fragment = .ok (some (.string text))) :
    (session.render fragment).2 =
      fill session.options session.nullPolicy (session.observe fragment).formatting.snapshot
        fragment (.ok (some (.string text))) := by
  rw [render_snd, placeholder, unclaimed, resolved]
  rfl

theorem render_of_strict (placeholder : fragment.isPlaceholder = true)
    (unclaimed : fragment.isClaimed = false)
    (resolved : session.resolver fragment.expression fragment = .ok (some (.string text)))
    (strict : session.options.isStrict = true) (keep : session.options.stripForbidden = false) :
    (session.render fragment).2 =
      if hasForbidden text then
        .failed (.forbiddenCharacters fragment.expression text fragment.sourceOffset)
      else
        .rendered (.ofValue session.options (session.observe fragment).formatting.snapshot
          (.string text)) := by
  rw [render_snd_of_text placeholder unclaimed resolved]
  cases found : hasForbidden text <;>
    simp [fill, NullPolicy.apply, Value.isNull, sanitize, strict, keep, found]

theorem render_of_strip (placeholder : fragment.isPlaceholder = true)
    (unclaimed : fragment.isClaimed = false)
    (resolved : session.resolver fragment.expression fragment = .ok (some (.string text)))
    (strip : session.options.stripForbidden = true) :
    (session.render fragment).2 =
      .rendered (.ofValue session.options (session.observe fragment).formatting.snapshot
        (.string (stripForbidden text))) := by
  rw [render_snd_of_text placeholder unclaimed resolved]
  simp only [fill, NullPolicy.apply, Value.isNull, sanitize_of_strip strip]
  rfl

/-- A text is refused for a character outside of XML, and stripping removes all of these,
but for U+FFFE and U+FFFF. Where neither of them occurs, both are exact. -/
theorem validation_exact_up_to_last_of_plane (session : Session) (fragment : Fragment)
    (text : String) (placeholder : fragment.isPlaceholder = true)
    (unclaimed : fragment.isClaimed = false)
    (resolved : session.resolver fragment.expression fragment = .ok (some (.string text))) :
    let outcome := (session.render fragment).2
    let written (content : String) : Outcome :=
      .rendered (.ofValue session.options (session.observe fragment).formatting.snapshot
        (.string content))
    let refused : Outcome :=
      .failed (.forbiddenCharacters fragment.expression text fragment.sourceOffset)
    (session.options.isStrict = true → session.options.stripForbidden = false →
      (outcome = written text ↔
        ∀ c ∈ text.toList, isXmlChar c = true ∨ isLastOfPlane c = true) ∧
      (outcome = refused ↔
        ∃ c ∈ text.toList, isXmlChar c = false ∧ isLastOfPlane c = false) ∧
      ((outcome = written text ↔ ∀ c ∈ text.toList, isXmlChar c = true) ↔
        (outcome = refused ∨ ∀ c ∈ text.toList, isLastOfPlane c = false))) ∧
    (session.options.stripForbidden = true →
      outcome = written (String.ofList
        (text.toList.filter fun c => isXmlChar c || isLastOfPlane c)) ∧
      ((text.toList.filter fun c => isXmlChar c || isLastOfPlane c) =
          text.toList.filter isXmlChar ↔
        ∀ c ∈ text.toList, isLastOfPlane c = false)) := by
  intro outcome written refused
  refine ⟨?validates, ?strips⟩
  case validates =>
    intro strict keep
    have decided : outcome = if hasForbidden text then refused else written text :=
      render_of_strict placeholder unclaimed resolved strict keep
    have accepts : outcome = written text ↔ hasForbidden text = false := by
      rw [decided]
      cases hasForbidden text <;> simp [written, refused]
    have refuses : outcome = refused ↔ hasForbidden text = true := by
      rw [decided]
      cases hasForbidden text <;> simp [written, refused]
    refine ⟨?accepted, ?refused, ?decides⟩
    case accepted => rw [accepts, hasForbidden_iff]
    case refused =>
      rw [refuses, ← Bool.not_eq_false, hasForbidden_iff]
      simp
    case decides => rw [accepts, refuses, hasForbidden_exact]
  case strips =>
    intro strip
    refine ⟨?_, filter_exact text.toList⟩
    rw [← stripForbidden_eq]
    exact render_of_strip placeholder unclaimed resolved strip

/-- U+FFFE in a text that is validated, and between other characters in one that is stripped. -/
theorem last_of_plane_passes :
    let resolver (text : String) : Resolver := fun _ _ => .ok (some (.string text))
    let fragment : Fragment := .placeholder 0 "a" 0
    ((start {} (resolver "x\uFFFE")).render fragment).2 =
        .rendered (.escaped "x\uFFFE") ∧
      ((start { stripForbidden := true } (resolver "x\x01\uFFFEy")).render fragment).2 =
        .rendered (.escaped "x\uFFFEy") := by
  intro resolver fragment
  obtain ⟨validates, _⟩ := validation_exact_up_to_last_of_plane
    (start {} (resolver "x\uFFFE")) fragment "x\uFFFE" rfl rfl rfl
  obtain ⟨_, strips⟩ := validation_exact_up_to_last_of_plane
    (start { stripForbidden := true } (resolver "x\x01\uFFFEy")) fragment "x\x01\uFFFEy"
    rfl rfl rfl
  refine ⟨?_, ?_⟩
  · rw [(validates rfl rfl).1.mpr (hasForbidden_iff.mp (by decide))]
    rfl
  · rw [(strips rfl).1]
    rfl

/-- A strict document takes a text with U+FFFE, and stripping keeps it. -/
theorem last_of_plane_is_no_xmlChar :
    let resolver : Resolver := fun _ _ => .ok (some (.string "\uFFFE"))
    let fragment : Fragment := .placeholder 0 "a" 0
    ¬ ((∃ result, ((start {} resolver).render fragment).2 = .rendered result) ↔
        ∀ c ∈ "\uFFFE".toList, isXmlChar c = true) ∧
      ((start { stripForbidden := true } resolver).render fragment).2 ≠
        .rendered (.escaped (String.ofList ("\uFFFE".toList.filter isXmlChar))) := by
  intro resolver fragment
  have validated : ((start {} resolver).render fragment).2 = .rendered (.escaped "\uFFFE") := rfl
  have stripped : ((start { stripForbidden := true } resolver).render fragment).2 =
      .rendered (.escaped "\uFFFE") := rfl
  refine ⟨?_, ?_⟩
  · intro validates
    have legal := validates.mp ⟨_, validated⟩ '\uFFFE' (by decide)
    rw [not_isXmlChar_of_last (by decide)] at legal
    contradiction
  · rw [stripped, ne_eq, Outcome.rendered.injEq, Rendered.escaped.injEq]
    decide

end Session

end Stencil
