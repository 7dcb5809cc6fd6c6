import Stencil.Proofs.SessionHistory
import Stencil.Proofs.SplitRuns
import Stencil.Proofs.Splitting

namespace Stencil

variable {text line : String}

theorem length_lines (text : String) :
    (lines text).length = text.toList.count '\n' + 1 := by
  rw [lines, List.length_map, Text.length_splitOn]

theorem not_mem_line (member : line ∈ lines text) : '\n' ∉ line.toList := by
  obtain ⟨chars, piece, rfl⟩ := List.mem_map.mp member
  rw [String.toList_ofList]
  exact Text.not_mem_of_mem_splitOn piece

theorem lines_of_unbroken (unbroken : '\n' ∉ text.toList) : lines text = [text] := by
  simp [lines, List.splitOn_eq_singleton unbroken]

/-- An escaped line holds no line feed and none of the characters that delimit markup. -/
theorem plain_of_mem_escaped_lines (member : line ∈ (lines text).map Markup.escape) :
    ∀ c ∈ line.toList, c ∉ ['\n', '<', '>', '"', '\''] := by
  obtain ⟨source, listed, rfl⟩ := List.mem_map.mp member
  intro c within
  rw [Markup.toList_escape] at within
  have unbroken : c ≠ '\n' := by
    intro same
    subst same
    have somewhere : (Markup.escapeChars source.toList).any (· == '\n') = true :=
      List.any_eq_true.mpr ⟨_, within, beq_self_eq_true _⟩
    rw [Markup.any_escapeChars _ (by decide), List.any_eq_true] at somewhere
    obtain ⟨d, inLine, feed⟩ := somewhere
    exact not_mem_line listed (beq_iff_eq.mp feed ▸ inLine)
  simpa [unbroken] using Markup.not_delimiter_of_mem_escapeChars within

theorem RunVocabulary.transition_begins (vocabulary : RunVocabulary) (properties : String) :
    ∃ tail, (vocabulary.transition properties).toList = '<' :: tail := by
  rw [transition_eq, leaving]
  simp

theorem join_intersperse (separator : String) (items : List String) :
    String.join (items.intersperse separator) = separator.intercalate items := by
  induction items with
  | nil => rfl
  | cons first rest ih =>
      cases rest with
      | nil => simp
      | cons next rest =>
          rw [String.intercalate_cons_cons, ← ih, List.intersperse_cons_cons, String.join_cons,
            String.join_cons, String.append_assoc]

namespace Rendered

variable {options : Options} {vocabulary : RunVocabulary}

/-- A text that is not split is the case of a single line. -/
theorem markup_of_text (active : options.linebreaksActive = true)
    (known : options.dialect.vocabulary? = some vocabulary) (properties text : String) :
    (ofValue options properties (.string text)).markup =
      (vocabulary.transition properties).intercalate ((lines text).map Markup.escape) := by
  by_cases breaks : '\n' ∈ text.toList
  · rw [ofValue_of_lines active known breaks, ofLines, markup]
    exact join_intersperse _ _
  · have single : ∀ content, Value.string text = .string content → '\n' ∉ content.toList := by
      intro content same
      cases same
      exact breaks
    rw [ofValue_unsplit (.inr (.inr single)), Dialect.not_isPlainText known,
      lines_of_unbroken breaks]
    simp [markup, Value.escapedText, Value.text]

theorem pieces_of_text (active : options.linebreaksActive = true)
    (known : options.dialect.vocabulary? = some vocabulary) (properties text : String) :
    Text.pieces (vocabulary.transition properties)
        (ofValue options properties (.string text)).markup =
      (lines text).map Markup.escape := by
  obtain ⟨tail, begins⟩ := vocabulary.transition_begins properties
  rw [markup_of_text active known]
  refine Text.pieces_intercalate begins ?absent ?present
  case absent =>
    intro part member within
    exact plain_of_mem_escaped_lines member '<' within (by simp)
  case present =>
    intro empty
    have count := congrArg List.length empty
    rw [List.length_map, length_lines, List.length_nil] at count
    omega

/-- The markup of a text, and the properties of the run it stands in, tell the text. -/
theorem text_of_markup (active : options.linebreaksActive = true)
    (known : options.dialect.vocabulary? = some vocabulary) (properties text : String) :
    "\n".intercalate ((Text.pieces (vocabulary.transition properties)
        (ofValue options properties (.string text)).markup).map Markup.unescape) = text := by
  rw [pieces_of_text active known, List.map_map]
  have undone : Markup.unescape ∘ Markup.escape = id := by
    funext line
    exact Markup.unescape_escape line
  rw [undone, List.map_id, join_lines]

end Rendered

namespace Session

/-- A text with line feeds becomes its escaped lines with one and the same transition between
them, which repeats the properties of the run as they are. The lines are found in the markup
around the transitions and give the text, so no other text has this markup in such a run. -/
theorem split_text_recovered (session : Session) (fragment : Fragment)
    (vocabulary : RunVocabulary) (text : String)
    (active : session.options.linebreaksActive = true)
    (known : session.options.dialect.vocabulary? = some vocabulary)
    (yields : sanitized? session.options session.resolver session.nullPolicy fragment =
      some (.string text))
    (breaks : 1 ≤ text.toList.count '\n') :
    let properties := (session.observe fragment).formatting.snapshot
    let transition := vocabulary.transition properties
    ∃ parts, (session.render fragment).2 = .rendered (.segments parts) ∧
      parts.length = 2 * text.toList.count '\n' + 1 ∧
      (∀ index < text.toList.count '\n', parts[2 * index + 1]? = some transition) ∧
      properties.toList <:+: transition.toList ∧
      (∀ line ∈ evenItems parts, ∀ c ∈ line.toList, c ∉ ['\n', '<', '>', '"', '\'']) ∧
      "\n".intercalate ((evenItems parts).map Markup.unescape) = text ∧
      Text.pieces transition (Rendered.segments parts).markup = evenItems parts ∧
      ∀ (resolver : Resolver) (nullPolicy : NullPolicy) (other : Fragment) (content : String)
          (result : Rendered),
        let alike : Session := { session with resolver, nullPolicy }
        (alike.observe other).formatting.snapshot = properties →
        sanitized? session.options resolver nullPolicy other = some (.string content) →
        (alike.render other).2 = .rendered result →
        result.markup = (Rendered.segments parts).markup → content = text := by
  intro properties transition
  have broken : '\n' ∈ text.toList := List.count_pos_iff.mp breaks
  have split : Rendered.ofValue session.options properties (.string text) =
      .segments (((lines text).map Markup.escape).intersperse transition) :=
    Rendered.ofValue_of_lines active known broken properties
  have found := Rendered.pieces_of_text active known properties text
  have recovered := Rendered.text_of_markup active known properties text
  rw [split] at found recovered
  rw [found] at recovered
  have rendered : (session.render fragment).2 =
      .rendered (.segments (((lines text).map Markup.escape).intersperse transition)) := by
    rw [rendered_of_sanitized session yields, split]
  refine ⟨_, rendered, ?length, ?transitions, ?verbatim, ?plain, ?joined, ?cut, ?injective⟩
  case length =>
    rw [List.length_intersperse, List.length_map, length_lines]
    omega
  case transitions =>
    intro index inside
    rw [List.getElem?_intersperse_two_mul_add_one]
    rw [List.length_map, length_lines]
    omega
  case verbatim =>
    refine ⟨vocabulary.leaving.toList, vocabulary.entering.toList, ?_⟩
    rw [show transition = _ from vocabulary.transition_eq properties]
    simp
  case plain =>
    rw [evenItems_intersperse]
    exact fun line member => plain_of_mem_escaped_lines member
  case joined =>
    rw [evenItems_intersperse]
    exact recovered
  case cut =>
    rw [evenItems_intersperse]
    exact found
  case injective =>
    intro resolver nullPolicy other content result alike same yieldsContent otherRendered markup
    rw [rendered_of_sanitized alike yieldsContent, same, Outcome.rendered.injEq] at otherRendered
    have contentBack := Rendered.text_of_markup active known properties content
    rw [show Rendered.ofValue session.options properties (.string content) = result from
      otherRendered, markup, found] at contentBack
    rw [← contentBack, recovered]

/-- Empty lines at both ends and in the middle, and a line that looks like a tag and an
entity, in a bold run. -/
theorem edge_lines_recovered :
    let text := "\n</w:t>&amp;\n\n"
    let resolver : Resolver := fun _ _ => .ok (some (.string text))
    let session := (start { linebreaks := true } resolver).after
      (Fragment.boldText.map Step.observe)
    let fragment : Fragment := .placeholder 6 "a" 0
    sanitized? { linebreaks := true } resolver .standard fragment = some (.string text) ∧
      text.toList.count '\n' = 3 ∧
      ∃ vocabulary parts, Dialect.docx.vocabulary? = some vocabulary ∧
        (session.render fragment).2 = .rendered (.segments parts) ∧ parts.length = 7 ∧
        parts[3]? = some (vocabulary.transition "<w:rPr><w:b/></w:rPr>") ∧
        Text.pieces (vocabulary.transition "<w:rPr><w:b/></w:rPr>")
          (Rendered.segments parts).markup = evenItems parts ∧
        "\n".intercalate ((evenItems parts).map Markup.unescape) = text := by
  intro text resolver session fragment
  have yields : sanitized? { linebreaks := true } resolver .standard fragment =
      some (.string text) := by
    have kept : sanitize { linebreaks := true } fragment (.string text) = .ok (.string text) := by
      have clean : Markup.hasForbidden text = false := by decide
      simp [sanitize, clean]
    change (sanitize { linebreaks := true } fragment (.string text)).toOption = _
    rw [kept]
    rfl
  have three : text.toList.count '\n' = 3 := by decide
  have bold : (session.observe fragment).formatting.snapshot = "<w:rPr><w:b/></w:rPr>" := by
    decide
  obtain ⟨parts, rendered, length, transitions, _, _, joined, cut, _⟩ :=
    split_text_recovered session fragment _ text rfl rfl yields (by rw [three]; decide)
  rw [three] at length transitions
  rw [bold] at transitions cut
  exact ⟨yields, three, _, parts, rfl, rendered, length, transitions 1 (by decide), cut, joined⟩

end Session

end Stencil
