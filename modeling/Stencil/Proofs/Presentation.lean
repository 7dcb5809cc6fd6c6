import Stencil.Fragment.Json
import Stencil.Options.Json
import Stencil.Proofs.RecordFormats

namespace Stencil

open Json (Document RecordFormat RecordField Codec)
open Json.RecordFormat (suits_required suits_optional)

namespace Fragment

/-- The JSON records of fragments. -/
def format : RecordFormat Fragment where
  names := fieldNames
  required := ["kind", "stream_index"]
  nullable := ["raw_expression", "xml_tag", "owner_module"]
  documents := fieldDocuments
  ofDocument? := ofDocument?
  json := json
  ofJson? := ofJson?
  standard fragment := { kind := fragment.kind, streamIndex := fragment.streamIndex }
  InRange fragment := fragment.streamIndex < 2 ^ 64 ∧ fragment.sourceOffset < 2 ^ 64

/-- The fields of a fragment, each as it is read on its own. -/
def fields : List (RecordField Fragment) :=
  [.required "kind" kind (.choice Kind.ofName? Kind.name),
   .required "stream_index" streamIndex .word,
   .optional "text" text .text "",
   .optional "raw_expression" rawExpression .nullableText none,
   .optional "xml_tag" xmlTag .nullableText none,
   .optional "tag_position" tagPosition (.choice TagPosition.ofName? TagPosition.name) .none,
   .optional "source_offset" sourceOffset .word 0,
   .optional "owner_module" ownerModule .nullableText none]

theorem ofDocument?_eq_some_iff (document : Document) (fragment : Fragment) :
    ofDocument? document = some fragment ↔
      ∃ record, document.record? fieldNames = some record ∧
        ∀ field ∈ fields, field.found? record = some (field.part fragment) := by
  simp only [ofDocument?, Option.bind_eq_bind, Option.bind_eq_some_iff]
  refine exists_congr fun record => and_congr_right fun _ => ?_
  simp only [fields, List.forall_mem_cons, List.not_mem_nil, false_implies, implies_true,
    and_true, RecordField.found?_required, RecordField.found?_optional]
  constructor
  · rintro ⟨kind, hasKind, streamIndex, hasIndex, text, hasText, expression, hasExpression,
      tag, hasTag, position, hasPosition, offset, hasOffset, owner, hasOwner, ⟨⟩⟩
    exact ⟨hasKind, hasIndex, hasText, hasExpression, hasTag, hasPosition, hasOffset, hasOwner⟩
  · rintro ⟨hasKind, hasIndex, hasText, hasExpression, hasTag, hasPosition, hasOffset, hasOwner⟩
    exact ⟨_, hasKind, _, hasIndex, _, hasText, _, hasExpression, _, hasTag, _, hasPosition,
      _, hasOffset, _, hasOwner, rfl⟩

theorem suits : ∀ field ∈ fields, format.Suits field := by
  simp only [fields, List.forall_mem_cons, List.not_mem_nil, false_implies, implies_true, and_true]
  exact
    ⟨suits_required (Codec.lawful_choice Kind.ofName?_name) (fun _ _ => trivial) (by decide)
      (.inr rfl),
    suits_required Codec.lawful_word (fun _ inRange => inRange.1) (by decide) (.inr rfl),
    suits_optional Codec.lawful_text (fun _ _ => trivial) (by decide) (fun _ => rfl) (.inr rfl),
    suits_optional Codec.lawful_nullableText (fun _ _ => trivial) (by decide) (fun _ => rfl)
      (.inl (by decide)),
    suits_optional Codec.lawful_nullableText (fun _ _ => trivial) (by decide) (fun _ => rfl)
      (.inl (by decide)),
    suits_optional (Codec.lawful_choice TagPosition.ofName?_name) (fun _ _ => trivial) (by decide)
      (fun _ => rfl) (.inr rfl),
    suits_optional Codec.lawful_word (fun _ inRange => inRange.2) (by decide) (fun _ => rfl)
      (.inr rfl),
    suits_optional Codec.lawful_nullableText (fun _ _ => trivial) (by decide) (fun _ => rfl)
      (.inl (by decide))⟩

theorem format_consistsOf : format.ConsistsOf fields where
  names_eq := rfl
  nodup := by decide
  required_subset := by decide
  suits := suits
  documents_eq _ := rfl
  ofDocument?_eq_some_iff := ofDocument?_eq_some_iff
  json_eq _ := rfl
  ofJson?_eq _ := rfl

end Fragment

namespace Options

/-- The JSON records of options. -/
def format : RecordFormat Options where
  names := fieldNames
  required := []
  nullable := ["content_type"]
  documents := fieldDocuments
  ofDocument? := ofDocument?
  json := json
  ofJson? := ofJson?
  standard _ := {}
  InRange _ := True

/-- The fields of options, each as it is read on its own. -/
def fields : List (RecordField Options) :=
  [.optional "dialect" dialect (.choice Dialect.ofName? Dialect.name) .docx,
   .optional "content_type" contentType .nullableText none,
   .optional "linebreaks" linebreaks .bool false,
   .optional "strip_invalid_xml_chars" stripForbidden .bool false,
   .optional "strict_dialects" strictDialects (.list (.choice Dialect.ofName? Dialect.name))
     [.docx, .pptx, .xlsx],
   .optional "linebreak_disabled_content_types" linebreakDisabledContentTypes (.list .text)
     ContentType.metadata]

theorem ofDocument?_eq_some_iff (document : Document) (options : Options) :
    ofDocument? document = some options ↔
      ∃ record, document.record? fieldNames = some record ∧
        ∀ field ∈ fields, field.found? record = some (field.part options) := by
  rw [ofDocument?, Option.bind_eq_some_iff]
  refine exists_congr fun record => and_congr_right fun _ => ?_
  simp only [ofRecord?, Option.bind_eq_bind, Option.bind_eq_some_iff]
  simp only [fields, List.forall_mem_cons, List.not_mem_nil, false_implies, implies_true,
    and_true, RecordField.found?_optional]
  constructor
  · rintro ⟨dialect, hasDialect, contentType, hasType, linebreaks, hasBreaks, strip, hasStrip,
      strict, hasStrict, disabled, hasDisabled, ⟨⟩⟩
    exact ⟨hasDialect, hasType, hasBreaks, hasStrip, hasStrict, hasDisabled⟩
  · rintro ⟨hasDialect, hasType, hasBreaks, hasStrip, hasStrict, hasDisabled⟩
    exact ⟨_, hasDialect, _, hasType, _, hasBreaks, _, hasStrip, _, hasStrict, _, hasDisabled, rfl⟩

theorem suits : ∀ field ∈ fields, format.Suits field := by
  have dialect := Codec.lawful_choice Dialect.ofName?_name
  simp only [fields, List.forall_mem_cons, List.not_mem_nil, false_implies, implies_true, and_true]
  exact
    ⟨suits_optional dialect (fun _ _ => trivial) (by decide) (fun _ => rfl) (.inr rfl),
    suits_optional Codec.lawful_nullableText (fun _ _ => trivial) (by decide) (fun _ => rfl)
      (.inl (by decide)),
    suits_optional Codec.lawful_bool (fun _ _ => trivial) (by decide) (fun _ => rfl) (.inr rfl),
    suits_optional Codec.lawful_bool (fun _ _ => trivial) (by decide) (fun _ => rfl) (.inr rfl),
    suits_optional (Codec.lawful_list dialect) (fun _ _ _ _ => trivial) (by decide)
      (fun _ => rfl) (.inr rfl),
    suits_optional (Codec.lawful_list Codec.lawful_text) (fun _ _ _ _ => trivial) (by decide)
      (fun _ => rfl) (.inr rfl)⟩

theorem format_consistsOf : format.ConsistsOf fields where
  names_eq := rfl
  nodup := by decide
  required_subset := by decide
  suits := suits
  documents_eq _ := rfl
  ofDocument?_eq_some_iff := ofDocument?_eq_some_iff
  json_eq _ := rfl
  ofJson?_eq _ := rfl

end Options

/-- Fragments and options are read as they were written, as an object or as an array, in
whatever order the members stand, with members that nobody knows and without those that have
the default of their field. What is required may not be missing, and what is not nullable
may not be null. -/
theorem formats_lawful : Fragment.format.Lawful ∧ Options.format.Lawful :=
  ⟨Fragment.format_consistsOf.lawful, Options.format_consistsOf.lawful⟩

/-- The last stream index with a control character that has no short escape, and a member of
options behind one that nobody knows. -/
theorem last_fragment_and_sparse_options :
    Fragment.ofJson? (Fragment.content (2 ^ 64 - 1) "\x01").json =
        some (Fragment.content (2 ^ 64 - 1) "\x01") ∧
      Options.ofDocument? (.object [(Json.pieces "seen", .null),
        (Json.pieces "linebreaks", .bool true)]) = some { linebreaks := true } := by
  obtain ⟨fragments, options⟩ := formats_lawful
  have inRange : 2 ^ 64 - 1 < 2 ^ 64 ∧ 0 < 2 ^ 64 := by decide
  have last := fragments.ofJson?_json (Fragment.content (2 ^ 64 - 1) "\x01") inRange
  have alone : Options.format.ofDocument? (.object [(Json.pieces "linebreaks", .bool true)]) =
      some { linebreaks := true } := by
    decide +kernel
  have unknown : ∀ member ∈ [(Json.pieces "seen", Json.Document.null)],
      ∃ name, Json.text? member.1 = some name ∧ name ∉ Options.format.names := by
    intro member inside
    obtain rfl := List.mem_singleton.mp inside
    exact ⟨"seen", Json.text?_pieces "seen", by decide⟩
  have rearranged := options.rearranged _ _ _ _ alone unknown (.swap _ _ [])
  simp only [Fragment.format, Options.format] at last rearranged
  exact ⟨last, rearranged⟩

end Stencil
