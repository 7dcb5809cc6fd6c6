import Stencil.Proofs.SplitRuns

namespace Stencil

section

variable {dialect : Dialect} {vocabulary : RunVocabulary} {outline next : Outline}
  {text run : OpenElement} {outer : List OpenElement} {seen fragments : List Fragment}
  {fragment : Fragment}

theorem RunVocabulary.reads_of_along
    (along : outline.Along vocabulary.Admits fragments)
    (reached : outline.after? fragments = some next) :
    ∀ fragment ∈ fragments, fragment.Reads := by
  induction fragments generalizing outline with
  | nil => simp
  | cons first rest ih =>
      simp only [Outline.after?, Option.bind_eq_some_iff] at reached
      obtain ⟨middle, step, reached⟩ := reached
      intro fragment member
      rcases List.mem_cons.mp member with rfl | member
      · exact along.1.reads
      · exact ih (along.2 middle step) reached fragment member

theorem RunVocabulary.readsProperties_childText
    (tagged : ∀ child ∈ run.children, child.Tagged)
    (calm : ∀ child ∈ run.children, vocabulary.Calm child)
    (single : (run.children.filter (TreeNode.isElement vocabulary.runPropertiesTag)).length ≤ 1)
    (reads : ∀ child ∈ run.children, ∀ fragment ∈ child.fragments, fragment.Reads) :
    vocabulary.ReadsProperties (run.childText vocabulary.runPropertiesTag) := by
  unfold OpenElement.childText
  cases properties : run.children.filter (TreeNode.isElement vocabulary.runPropertiesTag) with
  | nil => exact ⟨[], [], rfl, rfl, rfl⟩
  | cons node rest =>
      have none : rest = [] := by
        rw [properties] at single
        exact List.length_eq_zero_iff.mp (by simpa using single)
      subst none
      obtain ⟨member, isElement⟩ := List.mem_filter.mp (properties ▸ List.mem_singleton_self node)
      have written := reads node member
      have others := TreeNode.no_placeholder (tagged node member) isElement written
        ((calm node member).written isElement)
      obtain ⟨tokens, same, read, reached, isElement, text⟩ :=
        TreeNode.read_element (tagged node member) isElement
          (fun fragment within => ⟨written fragment within, others fragment within⟩)
      refine ⟨tokens, [same], ?_, reached, ?_⟩
      · simpa using read
      · simp [isElement, text]

/-- A placeholder that is filled stands in a run that has the formatting gathered. -/
theorem RunVocabulary.stands_of_placeholder (known : dialect.vocabulary? = some vocabulary)
    (along : Outline.empty.Along vocabulary.Admits (seen ++ [fragment]))
    (reached : outline? seen = some outline) (placeholder : fragment.isPlaceholder = true)
    (unclaimed : fragment.isClaimed = false) :
    vocabulary.StandsIn (RunFormatting.after dialect (seen ++ [fragment])).snapshot outline ∧
      vocabulary.ReadsProperties (RunFormatting.after dialect (seen ++ [fragment])).snapshot := by
  have admitted := ((Outline.along_append.mp along).2 outline reached).1
  have unnamed := admitted.reads.of_placeholder placeholder
  obtain ⟨text, run, outer, opened, isText, isRun⟩ :=
    Outline.opened_of_names (admitted.inText placeholder unclaimed)
  have nextReached : outline? (seen ++ [fragment]) = some (outline.add (.single fragment)) := by
    rw [Outline.outline?_append, reached, Option.bind_some, Outline.after?_singleton,
      Outline.next?_of_unnamed unnamed]
  have nextOpened := Outline.opened_add (.single fragment) opened
  obtain ⟨distinct, notRun, notProperties⟩ := Dialect.tags_distinct known
  have plain : ¬ vocabulary.Marks text.first := by
    rw [Fragment.hasTag_iff] at isText
    simp [RunVocabulary.Marks, Fragment.hasTag, isText, notRun, notProperties]
  obtain ⟨region, settled⟩ := settled_of_along along nextReached
  rw [nextOpened] at settled
  obtain ⟨_, calm, single, _⟩ := settled.of_text plain isRun distinct
  have gathersOwn := gathersOwn_of_settled distinct nextReached nextOpened settled plain isRun
  rw [snapshot_of_gathered known
    ((gathered_of_outline known nextReached nextOpened single).1 gathersOwn)]
  refine ⟨⟨text, run, outer, opened, isText, isRun, rfl⟩, ?_⟩
  have sound := Outline.sound_of_outline reached
  have member : run ∈ outline.opened := by simp [opened]
  refine readsProperties_childText (sound.children run member) calm single ?_
  intro child within other inside
  refine reads_of_along along nextReached other (List.mem_append_left _ ?_)
  rw [← fragments_outline reached]
  exact Outline.mem_fragments_of_child member within inside

end

section

variable {ε : Type} {language : Language ε} {options : Options} {nullPolicy : NullPolicy}
  {data : Value} {vocabulary : RunVocabulary} {fragments : List Fragment} {fragment : Fragment}
  {position : Nat} {result : Rendered} {outline next : Outline}

theorem rendered_with_snapshot (active : options.linebreaksActive = true)
    (found : fragments[position]? = some fragment)
    (present : (renderPart language options nullPolicy fragments data).outputs[position]? =
      some (.rendered result)) :
    fragment.isPlaceholder = true ∧ fragment.isClaimed = false ∧ ∃ value,
      result = .ofValue options
        (RunFormatting.after options.dialect (fragments.take position ++ [fragment])).snapshot
        value := by
  obtain ⟨other, _, value, same, placeholder, unclaimed, _, _, made⟩ := rendered_at present
  rw [found, Option.some.injEq] at same
  subst same
  refine ⟨placeholder, unclaimed, value, ?_⟩
  rw [made, OnePass.Memory.observe, if_pos active, OnePass.formatting_after active,
    RunFormatting.after, List.foldl_append]
  rfl

variable (known : options.dialect.vocabulary? = some vocabulary)
  (active : options.linebreaksActive = true)

include known active

theorem output_leads {step : Outline} {output : Output}
    (along : Outline.empty.Along vocabulary.Admits (fragments.take position ++ [fragment]))
    (reached : outline? (fragments.take position) = some outline)
    (found : fragments[position]? = some fragment)
    (present : (renderPart language options nullPolicy fragments data).outputs[position]? =
      some output)
    (stepped : outline.next? fragment = some step) (same : next.names = outline.names) :
    ∃ final, next.Leads output.markup final ∧ final.names = step.names := by
  have admitted := ((Outline.along_append.mp along).2 outline reached).1
  have names : nextNames? next.names fragment = some step.names := by
    rw [same, ← Outline.names_next?, stepped, Option.map_some]
  rcases output_cases present found with ⟨other, rfl⟩ | ⟨placeholder, output⟩
  · obtain ⟨tokens, read, after⟩ := admitted.reads.tokens other
    exact Outline.leads_of_names read (by rw [after, names])
  · have unnamed := admitted.reads.of_placeholder placeholder
    simp only [nextNames?, Fragment.opens, Fragment.closes, unnamed, Option.isSome_none,
      Bool.false_and, Bool.false_eq_true, if_false, Option.some.injEq] at names
    rw [← names]
    rcases output with empty | ⟨result, rfl⟩
    · exact ⟨next, empty ▸ Outline.Leads.empty next, rfl⟩
    · obtain ⟨_, unclaimed, value, rfl⟩ := rendered_with_snapshot active found present
      obtain ⟨stands, valid⟩ :=
        RunVocabulary.stands_of_placeholder known along reached placeholder unclaimed
      obtain ⟨outer, names⟩ := stands.names
      exact Rendered.leads_of_value known active valid (same.trans names) value

/-- The outputs up to any point lead to what is open there. -/
theorem outputs_lead (language : Language ε) (nullPolicy : NullPolicy) (data : Value)
    (regular : vocabulary.Regular fragments) {count : Nat} (within : count ≤ fragments.length) :
    ∃ outline next, outline? (fragments.take count) = some outline ∧
      Outline.empty.Leads
        (String.join (((renderPart language options nullPolicy fragments data).outputs.take
          count).map Output.markup)) next ∧
      next.names = outline.names := by
  induction count with
  | zero => exact ⟨.empty, .empty, rfl, .empty _, rfl⟩
  | succ count ih =>
      obtain ⟨outline, next, reached, lead, same⟩ := ih (by omega)
      have found : fragments[count]? = some fragments[count] := List.getElem?_eq_getElem within
      have inside := within
      rw [← length_outputs language options nullPolicy fragments data] at inside
      have present := List.getElem?_eq_getElem inside
      have split : fragments.take (count + 1) = fragments.take count ++ [fragments[count]] := by
        rw [List.take_add_one, found]
        rfl
      obtain ⟨along, step, stepReached⟩ := regular.upTo (count + 1)
      rw [split] at along stepReached
      have stepped : outline.next? fragments[count] = some step := by
        rwa [Outline.outline?_append, reached, Option.bind_some, Outline.after?_singleton]
          at stepReached
      obtain ⟨final, crossed, same⟩ :=
        output_leads known active along reached found present stepped same
      refine ⟨step, final, by rw [split, stepReached], ?_, same⟩
      rw [List.take_add_one, present, List.map_append]
      simpa [String.join_append] using lead.append crossed

end

/-- The markup of a regular part nests, whatever its placeholders become. Each
transition leaves a text open in a run with the properties of the run that the
placeholder stands in. -/
theorem renderPart_nested {ε : Type} (language : Language ε) (options : Options)
    (nullPolicy : NullPolicy) (fragments : List Fragment) (data : Value)
    {vocabulary : RunVocabulary} (known : options.dialect.vocabulary? = some vocabulary)
    (active : options.linebreaksActive = true) (regular : vocabulary.Regular fragments) :
    (∃ tokens, Markup.read? (renderPart language options nullPolicy fragments data).markup =
        some tokens ∧ Nested tokens) ∧
    ∀ (position : Nat) (parts : List String),
      (renderPart language options nullPolicy fragments data).outputs[position]? =
          some (.rendered (.segments parts)) →
        ∃ properties outline, outline? (fragments.take position) = some outline ∧
          vocabulary.StandsIn properties outline ∧
          ∀ index part, parts[2 * index + 1]? = some part →
            part = vocabulary.transition properties ∧ ∃ next,
              Outline.empty.Leads
                (String.join (((renderPart language options nullPolicy fragments
                  data).outputs.take position).map Output.markup) ++
                  String.join (parts.take (2 * index + 2))) next ∧
              vocabulary.StandsIn properties next := by
  constructor
  · have whole : fragments.length ≤ fragments.length := Nat.le_refl _
    obtain ⟨outline, next, reached, ⟨tokens, read, lead⟩, same⟩ :=
      outputs_lead known active language nullPolicy data regular whole
    rw [← length_outputs language options nullPolicy fragments data, List.take_length] at read
    obtain ⟨nodes, nested⟩ := regular.nested
    rw [List.take_length, nested, Option.some.injEq] at reached
    refine ⟨tokens, read, ?_⟩
    rw [nested_iff_names, ← Outline.names_empty, ← Outline.names_after?, lead, Option.map_some,
      same, ← reached]
    rfl
  · intro position parts present
    have within : position < fragments.length := by
      rw [← length_outputs language options nullPolicy fragments data]
      exact (List.getElem?_eq_some_iff.mp present).1
    have found : fragments[position]? = some fragments[position] := List.getElem?_eq_getElem within
    obtain ⟨outline, next, reached, lead, same⟩ :=
      outputs_lead known active language nullPolicy data regular (Nat.le_of_lt within)
    obtain ⟨placeholder, unclaimed, value, split⟩ := rendered_with_snapshot active found present
    obtain ⟨along, _⟩ := regular.upTo (position + 1)
    rw [List.take_add_one, found] at along
    obtain ⟨stands, valid⟩ :=
      RunVocabulary.stands_of_placeholder known along reached placeholder unclaimed
    obtain ⟨outer, names⟩ := stands.names
    refine ⟨_, outline, reached, stands, ?_⟩
    intro index part listed
    obtain ⟨transition, final, crossed, stands⟩ :=
      Rendered.leads_of_transition known active valid (same.trans names) split.symm listed
    exact ⟨transition, final, lead.append crossed, stands⟩

/-- The value of a placeholder in bold text is split into two lines. -/
theorem two_lines_of_bold_run :
    let bold := "<w:rPr><w:b/></w:rPr>"
    let transition :=
      "</w:t></w:r><w:r><w:br/></w:r><w:r>" ++ bold ++ "<w:t xml:space=\"preserve\">"
    let report := renderPart Path.language { linebreaks := true } .standard
      (Fragment.boldText ++ [.placeholder 6 "." 0] ++ Fragment.textEnd) (.string "a\nb")
    let before := String.join ((report.outputs.take 6).map Output.markup)
    (∃ tokens, Markup.read? report.markup = some tokens ∧ Nested tokens) ∧
    report.outputs[6]? = some (.rendered (.segments ["a", transition, "b"])) ∧
    ∃ vocabulary outline next, Dialect.docx.vocabulary? = some vocabulary ∧
      outline? Fragment.boldText = some outline ∧ vocabulary.StandsIn bold outline ∧
      transition = vocabulary.transition bold ∧
      Outline.empty.Leads (before ++ ("a" ++ transition)) next ∧
      vocabulary.StandsIn bold next := by
  intro bold transition report before
  obtain ⟨nested, split⟩ := renderPart_nested Path.language { linebreaks := true } .standard
    (Fragment.boldText ++ [.placeholder 6 "." 0] ++ Fragment.textEnd) (.string "a\nb")
    (rfl : Dialect.docx.vocabulary? = some _) (by decide) ⟨by decide, by decide⟩
  have present : report.outputs[6]? = some (.rendered (.segments ["a", transition, "b"])) := by
    rw [renderPart_outputs]
    rfl
  obtain ⟨properties, outline, reached, stands, transitions⟩ := split 6 _ present
  obtain ⟨same, next, leads, later⟩ := transitions 0 _ rfl
  cases reached
  obtain ⟨_, _, _, opened, _, _, isBold⟩ := stands
  cases opened
  have known : properties = bold := isBold.symm.trans (by decide)
  subst known
  exact ⟨nested, present, _, _, next, rfl, rfl, ⟨_, _, _, rfl, rfl, rfl, isBold⟩, same, leads,
    later⟩

end Stencil
