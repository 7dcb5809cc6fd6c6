import Stencil.Proofs.RegularPart
import Stencil.Proofs.Outputs
import Stencil.Proofs.Segments
import Stencil.Proofs.Escaping

namespace Stencil

namespace Outline

variable {outline middle next : Outline} {first second text : String}

def Leads (outline : Outline) (markup : String) (next : Outline) : Prop :=
  ∃ tokens, Markup.read? markup = some tokens ∧ outline.after? tokens = some next

theorem Leads.empty (outline : Outline) : outline.Leads "" outline :=
  ⟨[], rfl, rfl⟩

theorem Leads.append (before : outline.Leads first middle) (after : middle.Leads second next) :
    outline.Leads (first ++ second) next := by
  obtain ⟨tokens, read, reached⟩ := before
  obtain ⟨later, laterRead, laterReached⟩ := after
  refine ⟨tokens ++ later, Markup.read?_append read laterRead, ?_⟩
  rw [after?_append, reached, Option.bind_some, laterReached]

theorem leads_of_names {tokens : List Fragment} {names : List (Option String)}
    (read : Markup.read? text = some tokens)
    (after : namesAfter? outline.names tokens = some names) :
    ∃ next, outline.Leads text next ∧ next.names = names := by
  rw [← names_after?, Option.map_eq_some_iff] at after
  obtain ⟨next, reached, named⟩ := after
  exact ⟨next, ⟨tokens, read, reached⟩, named⟩

theorem leads_plain (outline : Outline) (plain : Markup.Plain text) :
    ∃ next, outline.Leads text next ∧ next.names = outline.names :=
  leads_of_names (Markup.read?_of_plain plain) (namesAfter?_plain _)

end Outline

namespace RunVocabulary

/-- The innermost open element is a text directly in a run that has these properties. -/
def StandsIn (vocabulary : RunVocabulary) (properties : String) (outline : Outline) : Prop :=
  ∃ text run outer, outline.opened = text :: run :: outer ∧
    text.first.hasTag vocabulary.textTag = true ∧ run.first.hasTag vocabulary.runTag = true ∧
    run.childText vocabulary.runPropertiesTag = properties

theorem StandsIn.names {vocabulary : RunVocabulary} {properties : String} {outline : Outline}
    (stands : vocabulary.StandsIn properties outline) :
    ∃ outer, outline.names = some vocabulary.textTag :: some vocabulary.runTag :: outer := by
  obtain ⟨text, run, outer, opened, isText, isRun, _⟩ := stands
  rw [Fragment.hasTag_iff] at isText isRun
  exact ⟨_, by rw [Outline.names, Outline.path, opened, List.map_cons, List.map_cons,
    List.map_cons, List.map_cons, isText, isRun]⟩

def leaving (vocabulary : RunVocabulary) : String :=
  "</" ++ vocabulary.textTag ++ "></" ++ vocabulary.runTag ++ ">" ++ vocabulary.breakMarkup ++
    "<" ++ vocabulary.runTag ++ ">"

def entering (vocabulary : RunVocabulary) : String :=
  "<" ++ vocabulary.textTag ++
    (if vocabulary.preserveSpace then " xml:space=\"preserve\"" else "") ++ ">"

theorem transition_eq (vocabulary : RunVocabulary) (properties : String) :
    vocabulary.transition properties =
      vocabulary.leaving ++ (properties ++ vocabulary.entering) := by
  rw [← String.toList_inj]
  unfold transition leaving entering
  simp only [String.toList_append, List.append_assoc]

variable {dialect : Dialect} {vocabulary : RunVocabulary}

theorem read?_leaving (known : dialect.vocabulary? = some vocabulary) :
    ∃ ended start, Markup.read? vocabulary.leaving = some (ended ++ [start]) ∧
      (∀ names, namesAfter? (some vocabulary.textTag :: some vocabulary.runTag :: names) ended =
        some names) ∧
      start.opens = true ∧ start.hasTag vocabulary.runTag = true := by
  cases dialect with
  | docx =>
      cases known
      exact ⟨[.tag 0 "w:t" .end "</w:t>", .tag 0 "w:r" .end "</w:r>", .tag 0 "w:r" .start "<w:r>",
        .tag 0 "w:br" .selfClosing "<w:br/>", .tag 0 "w:r" .end "</w:r>"],
        .tag 0 "w:r" .start "<w:r>", by decide, fun names => rfl, rfl, rfl⟩
  | pptx =>
      cases known
      exact ⟨[.tag 0 "a:t" .end "</a:t>", .tag 0 "a:r" .end "</a:r>",
        .tag 0 "a:br" .selfClosing "<a:br/>"], .tag 0 "a:r" .start "<a:r>", by decide,
        fun names => rfl, rfl, rfl⟩
  | xlsx | text => cases known

theorem read?_entering (known : dialect.vocabulary? = some vocabulary) :
    ∃ start, Markup.read? vocabulary.entering = some [start] ∧ start.opens = true ∧
      start.hasTag vocabulary.textTag = true := by
  cases dialect with
  | docx =>
      cases known
      exact ⟨.tag 0 "w:t" .start "<w:t xml:space=\"preserve\">", by decide, rfl, rfl⟩
  | pptx =>
      cases known
      exact ⟨.tag 0 "a:t" .start "<a:t>", by decide, rfl, rfl⟩
  | xlsx | text => cases known

def ReadsProperties (vocabulary : RunVocabulary) (properties : String) : Prop :=
  ∃ tokens nodes, Markup.read? properties = some tokens ∧ outline? tokens = some ⟨nodes, []⟩ ∧
    String.join ((nodes.filter (TreeNode.isElement vocabulary.runPropertiesTag)).map
      TreeNode.text) = properties

variable {properties : String} {outline : Outline} {outer : List (Option String)}

theorem leaving_leads (known : dialect.vocabulary? = some vocabulary)
    (standing : outline.names = some vocabulary.textTag :: some vocabulary.runTag :: outer) :
    ∃ (next : Outline) (start : Fragment), outline.Leads vocabulary.leaving
        { next with opened := ⟨start, []⟩ :: next.opened } ∧
      next.names = outer ∧ start.hasTag vocabulary.runTag = true := by
  obtain ⟨ended, start, read, closed, opens, isRun⟩ := read?_leaving known
  have left : (outline.after? ended).map Outline.names = some outer := by
    rw [Outline.names_after?, standing, closed]
  obtain ⟨next, reached, names⟩ := Option.map_eq_some_iff.mp left
  refine ⟨next, start, ⟨_, read, ?_⟩, names, isRun⟩
  rw [Outline.after?_append, reached, Option.bind_some, Outline.after?_singleton,
    Outline.next?_of_opens opens]

theorem properties_lead (valid : vocabulary.ReadsProperties properties) (outline : Outline)
    (start : Fragment) :
    ∃ nodes, Outline.Leads { outline with opened := ⟨start, []⟩ :: outline.opened } properties
        { outline with opened := ⟨start, nodes⟩ :: outline.opened } ∧
      OpenElement.childText vocabulary.runPropertiesTag ⟨start, nodes⟩ = properties := by
  obtain ⟨tokens, nodes, read, reached, same⟩ := valid
  obtain ⟨rfl, balanced⟩ := Outline.nodes_of_outline reached
  refine ⟨nodes, ⟨_, read, ?_⟩, same⟩
  rw [Outline.after?_children balanced, List.nil_append]

/-- A transition leaves a text and a run and enters others, with the properties. -/
theorem transition_leads (known : dialect.vocabulary? = some vocabulary)
    (valid : vocabulary.ReadsProperties properties)
    (standing : outline.names = some vocabulary.textTag :: some vocabulary.runTag :: outer) :
    ∃ next, outline.Leads (vocabulary.transition properties) next ∧
      next.names = outline.names ∧ vocabulary.StandsIn properties next := by
  obtain ⟨left, start, leaving, names, isRun⟩ := leaving_leads known standing
  obtain ⟨nodes, filling, same⟩ := properties_lead valid left start
  obtain ⟨textStart, read, opens, isText⟩ := read?_entering known
  let run : Outline := { left with opened := ⟨start, nodes⟩ :: left.opened }
  let next : Outline := { run with opened := ⟨textStart, []⟩ :: run.opened }
  have entering : run.Leads vocabulary.entering next := by
    refine ⟨_, read, ?_⟩
    rw [Outline.after?_singleton, Outline.next?_of_opens opens]
  refine ⟨next, ?_, ?_, _, _, _, rfl, isText, isRun, same⟩
  · rw [transition_eq]
    exact leaving.append (filling.append entering)
  · rw [Fragment.hasTag_iff] at isText isRun
    simp only [Outline.names, Outline.path] at names
    rw [standing]
    simp only [next, run, Outline.names, Outline.path, List.map_cons, isText, isRun, names]

theorem lines_lead (known : dialect.vocabulary? = some vocabulary)
    (valid : vocabulary.ReadsProperties properties) {texts : List String}
    (plain : ∀ text ∈ texts, Markup.Plain text)
    (standing : outline.names = some vocabulary.textTag :: some vocabulary.runTag :: outer) :
    (∃ next,
      outline.Leads (String.join (texts.intersperse (vocabulary.transition properties))) next ∧
        next.names = outline.names) ∧
    ∀ index part,
      (texts.intersperse (vocabulary.transition properties))[2 * index + 1]? = some part →
      part = vocabulary.transition properties ∧ ∃ next,
        outline.Leads (String.join ((texts.intersperse (vocabulary.transition properties)).take
          (2 * index + 2))) next ∧ vocabulary.StandsIn properties next := by
  induction texts generalizing outline with
  | nil => exact ⟨⟨outline, by simpa using Outline.Leads.empty outline, rfl⟩, by simp⟩
  | cons text rest ih =>
      obtain ⟨middle, lead, names⟩ := outline.leads_plain (plain text (by simp))
      cases rest with
      | nil => exact ⟨⟨middle, by simpa using lead, names⟩, by simp⟩
      | cons later rest =>
          rw [standing] at names
          obtain ⟨entered, crossed, same, stands⟩ := transition_leads known valid names
          rw [names] at same
          obtain ⟨⟨next, whole, last⟩, within⟩ :=
            ih (fun other member => plain other (by simp [member])) same
          rw [List.intersperse_cons_cons]
          refine ⟨⟨next, ?_, by rw [last, same, standing]⟩, ?_⟩
          · simpa only [String.join_cons] using lead.append (crossed.append whole)
          · intro index part found
            cases index with
            | zero =>
                simp only [Nat.mul_zero, Nat.zero_add, List.getElem?_cons_succ,
                  List.getElem?_cons_zero, Option.some.injEq] at found
                refine ⟨found.symm, entered, ?_, stands⟩
                simpa using lead.append crossed
            | succ index =>
                have shift : 2 * (index + 1) + 1 = 2 * index + 1 + 1 + 1 := by omega
                rw [shift, List.getElem?_cons_succ, List.getElem?_cons_succ] at found
                obtain ⟨same, next, inner, stands⟩ := within index part found
                refine ⟨same, next, ?_, stands⟩
                have shift : 2 * (index + 1) + 2 = 2 * index + 2 + 1 + 1 := by omega
                rw [shift, List.take_succ_cons, List.take_succ_cons]
                simpa only [String.join_cons] using lead.append (crossed.append inner)

end RunVocabulary

theorem Markup.plain_escape (text : String) : Markup.Plain (Markup.escape text) := by
  intro c member
  rw [Markup.toList_escape] at member
  obtain ⟨noOpening, noClosing, _⟩ := Markup.not_delimiter_of_mem_escapeChars member
  exact ⟨noOpening, noClosing⟩

section

variable {options : Options} {vocabulary : RunVocabulary} {properties : String}
  {outline : Outline} {outer : List (Option String)} {value : Value}

theorem Rendered.ofValue_cases (known : options.dialect.vocabulary? = some vocabulary)
    (active : options.linebreaksActive = true) (properties : String) (value : Value) :
    (∃ text, ofValue options properties value = .escaped (Markup.escape text)) ∨
      ∃ text, ofValue options properties value =
        .ofLines (vocabulary.transition properties) text := by
  have markup : options.dialect.isPlainText = false := Dialect.not_isPlainText known
  have split : options.splitVocabulary? = some vocabulary := by
    simp [Options.splitVocabulary?, active, known]
  unfold ofValue
  rw [markup, split]
  simp only [Bool.false_eq_true, if_false]
  split
  · rename_i text chosen same
    cases same
    split
    · exact .inr ⟨text, rfl⟩
    · exact .inl ⟨_, rfl⟩
  · exact .inl ⟨_, rfl⟩

theorem Rendered.plain_lines {text line : String}
    (member : line ∈ (lines text).map Markup.escape) : Markup.Plain line := by
  obtain ⟨source, _, rfl⟩ := List.mem_map.mp member
  exact Markup.plain_escape source

/-- What a value becomes inside of the text of a run leaves that text open, or one in
another run with the same properties. -/
theorem Rendered.leads_of_value (known : options.dialect.vocabulary? = some vocabulary)
    (active : options.linebreaksActive = true) (valid : vocabulary.ReadsProperties properties)
    (standing : outline.names = some vocabulary.textTag :: some vocabulary.runTag :: outer)
    (value : Value) :
    ∃ next, outline.Leads (ofValue options properties value).markup next ∧
      next.names = outline.names := by
  rcases ofValue_cases known active properties value with ⟨text, escaped⟩ | ⟨text, split⟩
  · rw [escaped]
    exact outline.leads_plain (Markup.plain_escape text)
  · rw [split]
    exact (RunVocabulary.lines_lead known valid (fun _ => plain_lines) standing).1

theorem Rendered.leads_of_transition (known : options.dialect.vocabulary? = some vocabulary)
    (active : options.linebreaksActive = true) (valid : vocabulary.ReadsProperties properties)
    (standing : outline.names = some vocabulary.textTag :: some vocabulary.runTag :: outer)
    {parts : List String} (split : ofValue options properties value = .segments parts)
    {index : Nat} {part : String} (found : parts[2 * index + 1]? = some part) :
    part = vocabulary.transition properties ∧ ∃ next,
      outline.Leads (String.join (parts.take (2 * index + 2))) next ∧
        vocabulary.StandsIn properties next := by
  rcases ofValue_cases known active properties value with ⟨text, escaped⟩ | ⟨text, lines⟩
  · rw [escaped] at split
    contradiction
  · rw [lines, ofLines, segments.injEq] at split
    subst split
    exact (RunVocabulary.lines_lead known valid (fun _ => plain_lines) standing).2 index part found

end

end Stencil
