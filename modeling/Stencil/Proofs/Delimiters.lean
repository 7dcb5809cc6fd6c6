import Stencil.Proofs.Escaping
import Stencil.Proofs.Outputs
import Stencil.Proofs.Segments

namespace Stencil

/-! Data adds no markup. The characters that begin and end tags and attribute values
are in the rendered part exactly where its own fragments and the transitions between
lines have them, since all text from values is escaped. -/

namespace Markup

def isDelimiter (c : Char) : Bool :=
  c == '<' || c == '>' || c == '"' || c == '\''

def delimiters (text : String) : List Char :=
  text.toList.filter isDelimiter

theorem delimiters_append (first second : String) :
    delimiters (first ++ second) = delimiters first ++ delimiters second := by
  rw [delimiters, String.toList_append, List.filter_append]
  rfl

theorem delimiters_join (texts : List String) :
    delimiters (String.join texts) = texts.flatMap delimiters := by
  rw [delimiters, String.toList_join, List.filter_flatMap]
  rfl

@[simp] theorem delimiters_escape (text : String) : delimiters (escape text) = [] := by
  rw [delimiters, toList_escape, List.filter_eq_nil_iff]
  intro c member
  obtain ⟨opening, closing, quote, apostrophe⟩ := not_delimiter_of_mem_escapeChars member
  simp [isDelimiter, opening, closing, quote, apostrophe]

end Markup

open Markup

/-- What an output has that comes from no value: the text of a fragment that is no
placeholder, or the transitions between the lines of a value. -/
def Output.frame : Output → String
  | .literal text => text
  | .rendered (.segments parts) => String.join (oddItems parts)
  | .claimed | .rendered _ | .failed => ""

def Report.frame (report : Report) : String :=
  String.join (report.outputs.map Output.frame)

theorem delimiters_join_oddItems (parts : List String)
    (plain : ∀ part ∈ evenItems parts, delimiters part = []) :
    delimiters (String.join parts) = delimiters (String.join (oddItems parts)) := by
  induction parts using evenItems.induct with
  | case1 => rfl
  | case2 part =>
      rw [delimiters_join, List.flatMap_singleton, plain part (by simp [evenItems])]
      rfl
  | case3 part other rest ih =>
      have here : delimiters part = [] := plain part (by simp [evenItems])
      have tail := ih fun line member => plain line (by simp [evenItems, member])
      rw [oddItems_cons_cons, String.join_cons, String.join_cons, String.join_cons,
        delimiters_append, delimiters_append, delimiters_append, here, tail, List.nil_append]

variable {options : Options}

theorem delimiters_of_value (markup : options.dialect.isPlainText = false)
    (properties : String) (value : Value) :
    delimiters (Rendered.ofValue options properties value).markup =
      delimiters (Output.rendered (.ofValue options properties value)).frame := by
  have escaped (text : String) : delimiters (Rendered.escaped (escape text)).markup =
      delimiters (Output.rendered (.escaped (escape text))).frame :=
    delimiters_escape text
  unfold Rendered.ofValue
  rw [markup, if_neg Bool.false_ne_true]
  split
  · split
    · refine delimiters_join_oddItems _ ?_
      intro part member
      rw [evenItems_intersperse] at member
      obtain ⟨line, _, rfl⟩ := List.mem_map.mp member
      exact delimiters_escape line
    · exact escaped _
  · exact escaped _

variable {ε : Type} {language : Language ε} {nullPolicy : NullPolicy} {data : Value}
  {fragments : List Fragment} {position : Nat} {output : Output}

theorem delimiters_of_output (markup : options.dialect.isPlainText = false)
    (listed : output ∈ (renderPart language options nullPolicy fragments data).outputs) :
    delimiters output.markup = delimiters output.frame := by
  obtain ⟨position, present⟩ := List.mem_iff_getElem?.mp listed
  obtain ⟨fragment, found, _⟩ := output_at present
  rcases output_kinds present found with ⟨_, rfl⟩ | ⟨_, rfl | rfl | ⟨result, rfl⟩⟩
  · rfl
  · rfl
  · rfl
  · obtain ⟨_, _, value, _, _, _, _, _, rfl⟩ := rendered_at present
    exact delimiters_of_value markup _ value

theorem delimiters_markup (language : Language ε) (nullPolicy : NullPolicy)
    (fragments : List Fragment) (data : Value) (markup : options.dialect.isPlainText = false) :
    delimiters (renderPart language options nullPolicy fragments data).markup =
      delimiters (renderPart language options nullPolicy fragments data).frame := by
  rw [Report.markup, Report.frame, delimiters_join, delimiters_join, List.flatMap_map,
    List.flatMap_map]
  exact List.flatMap_congr fun output listed => delimiters_of_output markup listed

theorem frame_of_unsplit (unsplit : options.splitVocabulary? = none) (properties : String)
    (value : Value) : (Output.rendered (.ofValue options properties value)).frame = "" := by
  unfold Rendered.ofValue
  rw [unsplit]
  split
  · rfl
  · split
    · contradiction
    · rfl

/-- Where values are not split, only the fragments that are no placeholders count. -/
theorem frame_eq_literals (language : Language ε) (nullPolicy : NullPolicy)
    (fragments : List Fragment) (data : Value) (unsplit : options.splitVocabulary? = none) :
    (renderPart language options nullPolicy fragments data).frame =
      String.join (fragments.map fun fragment =>
        if fragment.isPlaceholder then "" else fragment.text) := by
  refine congrArg String.join (List.ext_getElem? fun position => ?_)
  rw [List.getElem?_map, List.getElem?_map]
  cases present : (renderPart language options nullPolicy fragments data).outputs[position]? with
  | none =>
      have absent : fragments[position]? = none := by
        rw [List.getElem?_eq_none_iff] at present ⊢
        rwa [length_outputs] at present
      rw [absent]
      rfl
  | some output =>
      obtain ⟨fragment, found, _⟩ := output_at present
      rw [found, Option.map_some, Option.map_some]
      rcases output_kinds present found with ⟨kind, rfl⟩ | ⟨kind, rfl | rfl | ⟨result, rfl⟩⟩
      · simp [kind, Output.frame]
      · simp [kind, Output.frame]
      · simp [kind, Output.frame]
      · obtain ⟨_, _, value, _, _, _, _, _, rfl⟩ := rendered_at present
        rw [frame_of_unsplit unsplit, kind]
        rfl

/-- Data adds no delimiter of markup to a document. Where no value is split at its line
feeds, the delimiters are the same whatever the data is. -/
theorem data_adds_no_delimiters (language : Language ε) (options : Options)
    (nullPolicy : NullPolicy) (fragments : List Fragment) (data : Value)
    (document : options.dialect ≠ .text) :
    let report := renderPart language options nullPolicy fragments data
    delimiters report.markup = delimiters report.frame ∧
      (options.linebreaksActive = false ∨ options.dialect.vocabulary? = none →
        ∀ (otherPolicy : NullPolicy) (otherData : Value), delimiters report.markup =
          delimiters (renderPart language options otherPolicy fragments otherData).markup) := by
  have markup : options.dialect.isPlainText = false := by
    simpa [Dialect.isPlainText] using document
  refine ⟨delimiters_markup language nullPolicy fragments data markup, ?_⟩
  intro whole otherPolicy otherData
  have unsplit : options.splitVocabulary? = none := by
    rcases whole with inactive | unknown
    · simp [Options.splitVocabulary?, inactive]
    · simp [Options.splitVocabulary?, unknown]
  rw [delimiters_markup language nullPolicy fragments data markup,
    delimiters_markup language otherPolicy fragments otherData markup,
    frame_eq_literals language nullPolicy fragments data unsplit,
    frame_eq_literals language otherPolicy fragments otherData unsplit]

theorem object_adds_no_delimiters :
    let fragments := [Fragment.content 0 "<t a='1'>", .placeholder 1 "." 9, .content 2 "</t>"]
    let data := Value.object [("k", .string "<v>")]
    ({} : Options).dialect ≠ .text ∧ ({} : Options).linebreaksActive = false ∧
      delimiters (renderPart Path.language {} .standard fragments data).markup =
        ['<', '\'', '\'', '>', '<', '>'] ∧
      delimiters (renderPart Path.language {} .standard fragments data).markup =
        delimiters
          (renderPart Path.language {} (fun _ => .string "\"") fragments .null).markup := by
  intro fragments data
  have document : ({} : Options).dialect ≠ .text := by decide
  have inactive : ({} : Options).linebreaksActive = false := rfl
  obtain ⟨kept, independent⟩ :=
    data_adds_no_delimiters Path.language {} .standard fragments data document
  refine ⟨document, inactive, ?_, independent (.inl inactive) _ .null⟩
  rw [kept, frame_eq_literals _ _ _ _ rfl]
  decide

end Stencil
