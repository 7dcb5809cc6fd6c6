import Stencil.Proofs.OpenNames
import Stencil.Proofs.RunProperties

namespace Stencil

/-! Parts whose runs do not nest and hold their properties as a first child. At every
point of such a part it is known what may still follow in the elements that are open. -/

namespace RunVocabulary

structure Admits (vocabulary : RunVocabulary) (outline : Outline) (fragment : Fragment) :
    Prop where
  reads : fragment.Reads
  /-- Neither runs nor run properties hold a run. -/
  run : fragment.begins vocabulary.runTag → ∀ first ∈ outline.path, ¬ vocabulary.Marks first
  /-- Run properties do not nest, and a run that holds some is their parent. -/
  properties : fragment.begins vocabulary.runPropertiesTag →
    ∀ first ∈ outline.path, first.hasTag vocabulary.runPropertiesTag = false ∧
      (first.hasTag vocabulary.runTag = true → outline.path.head? = some first)
  propertiesFirst : vocabulary.PropertiesFirst outline fragment
  outside : fragment.isPlaceholder = true →
    ∀ first ∈ outline.path, first.hasTag vocabulary.runPropertiesTag = false
  inText : fragment.isPlaceholder = true → fragment.isClaimed = false →
    outline.names.take 2 = [some vocabulary.textTag, some vocabulary.runTag]

instance (vocabulary : RunVocabulary) (outline : Outline) (fragment : Fragment) :
    Decidable (vocabulary.Admits outline fragment) :=
  decidable_of_iff
    (fragment.Reads ∧
      (fragment.begins vocabulary.runTag → ∀ first ∈ outline.path, ¬ vocabulary.Marks first) ∧
      (fragment.begins vocabulary.runPropertiesTag →
        ∀ first ∈ outline.path, first.hasTag vocabulary.runPropertiesTag = false ∧
          (first.hasTag vocabulary.runTag = true → outline.path.head? = some first)) ∧
      vocabulary.PropertiesFirst outline fragment ∧
      (fragment.isPlaceholder = true →
        ∀ first ∈ outline.path, first.hasTag vocabulary.runPropertiesTag = false) ∧
      (fragment.isPlaceholder = true → fragment.isClaimed = false →
        outline.names.take 2 = [some vocabulary.textTag, some vocabulary.runTag]))
    ⟨fun ⟨reads, run, properties, propertiesFirst, outside, inText⟩ =>
        ⟨reads, run, properties, propertiesFirst, outside, inText⟩,
      fun ⟨reads, run, properties, propertiesFirst, outside, inText⟩ =>
        ⟨reads, run, properties, propertiesFirst, outside, inText⟩⟩

/-- The tags nest, and each fragment stands where it may. -/
structure Regular (vocabulary : RunVocabulary) (fragments : List Fragment) : Prop where
  nested : Nested fragments
  along : Outline.empty.Along vocabulary.Admits fragments

theorem Regular.upTo {vocabulary : RunVocabulary} {fragments : List Fragment}
    (regular : vocabulary.Regular fragments) (count : Nat) :
    Outline.empty.Along vocabulary.Admits (fragments.take count) ∧
      ∃ outline, outline? (fragments.take count) = some outline := by
  obtain ⟨nested, along⟩ := regular
  rw [← List.take_append_drop count fragments] at nested along
  exact ⟨(Outline.along_append.mp along).1, nested.outline_of_prefix⟩

def Bare (vocabulary : RunVocabulary) (fragment : Fragment) : Prop :=
  ¬ vocabulary.Marks fragment ∧ fragment.isPlaceholder = false

/-- Run properties that hold no tags of runs or of run properties, or another node in
which neither begins. -/
def Undisturbed (vocabulary : RunVocabulary) (node : TreeNode) : Prop :=
  if node.isElement vocabulary.runPropertiesTag then
    ∀ fragment ∈ node.inner, ¬ vocabulary.Marks fragment
  else ∀ fragment ∈ node.fragments, ¬ vocabulary.Disturbs fragment

structure Calm (vocabulary : RunVocabulary) (node : TreeNode) : Prop where
  undisturbed : vocabulary.Undisturbed node
  written : node.isElement vocabulary.runPropertiesTag = true →
    ∀ fragment ∈ node.inner, fragment.isPlaceholder = false

/-- What the innermost open elements stand in. -/
inductive Region where
  | outside
  | run
  | properties

/-- The open elements of a regular part, the innermost first, with what is finished in
them. -/
inductive Settled (vocabulary : RunVocabulary) : Region → List OpenElement → Prop where
  | empty : Settled vocabulary .outside []
  | other {element : OpenElement} {outer : List OpenElement} :
      Settled vocabulary .outside outer → ¬ vocabulary.Marks element.first →
      Settled vocabulary .outside (element :: outer)
  | run {run : OpenElement} {outer : List OpenElement} :
      Settled vocabulary .outside outer → run.first.hasTag vocabulary.runTag = true →
      (∀ child ∈ run.children, vocabulary.Calm child) →
      (run.children.filter (TreeNode.isElement vocabulary.runPropertiesTag)).length ≤ 1 →
      Settled vocabulary .run (run :: outer)
  | inRun {element : OpenElement} {outer : List OpenElement} :
      Settled vocabulary .run outer → ¬ vocabulary.Marks element.first →
      (∀ child ∈ element.children, ∀ fragment ∈ child.fragments, ¬ vocabulary.Disturbs fragment) →
      Settled vocabulary .run (element :: outer)
  | properties {element : OpenElement} {outer : List OpenElement} :
      Settled vocabulary .outside outer →
      element.first.hasTag vocabulary.runPropertiesTag = true →
      (∀ child ∈ element.children, ∀ fragment ∈ child.fragments, vocabulary.Bare fragment) →
      Settled vocabulary .properties (element :: outer)
  | runProperties {element run : OpenElement} {outer : List OpenElement} :
      Settled vocabulary .run (run :: outer) → run.first.hasTag vocabulary.runTag = true →
      run.children.filter (TreeNode.isElement vocabulary.runPropertiesTag) = [] →
      element.first.hasTag vocabulary.runPropertiesTag = true →
      (∀ child ∈ element.children, ∀ fragment ∈ child.fragments, vocabulary.Bare fragment) →
      Settled vocabulary .properties (element :: run :: outer)
  | inProperties {element : OpenElement} {outer : List OpenElement} :
      Settled vocabulary .properties outer → vocabulary.Bare element.first →
      (∀ child ∈ element.children, ∀ fragment ∈ child.fragments, vocabulary.Bare fragment) →
      Settled vocabulary .properties (element :: outer)

variable {vocabulary : RunVocabulary} {region : Region} {outline next : Outline}
  {run element : OpenElement} {opened outer : List OpenElement} {node : TreeNode}
  {fragment : Fragment} {fragments : List Fragment}

theorem Settled.marked (settled : Settled vocabulary region opened) :
    match region with
    | .outside => ∀ element ∈ opened, ¬ vocabulary.Marks element.first
    | .run => ∃ element ∈ opened, element.first.hasTag vocabulary.runTag = true
    | .properties =>
        ∃ element ∈ opened, element.first.hasTag vocabulary.runPropertiesTag = true := by
  induction settled with
  | empty => simp
  | other _ unmarked ih =>
      intro element member
      rcases List.mem_cons.mp member with rfl | member
      · exact unmarked
      · exact ih element member
  | run _ isRun => exact ⟨_, by simp, isRun⟩
  | inRun _ _ _ ih =>
      obtain ⟨run, member, isRun⟩ := ih
      exact ⟨run, by simp [member], isRun⟩
  | properties _ properties => exact ⟨_, by simp, properties⟩
  | runProperties _ _ _ properties => exact ⟨_, by simp, properties⟩
  | inProperties _ _ _ ih =>
      obtain ⟨element, member, properties⟩ := ih
      exact ⟨element, by simp [member], properties⟩

theorem Settled.add (settled : Settled vocabulary region outline.opened)
    (inRun : region = .run → node.isElement vocabulary.runPropertiesTag = false ∧
      ∀ fragment ∈ node.fragments, ¬ vocabulary.Disturbs fragment)
    (inProperties : region = .properties → ∀ fragment ∈ node.fragments, vocabulary.Bare fragment) :
    Settled vocabulary region (outline.add node).opened := by
  obtain ⟨finished, opened⟩ := outline
  have append {property : TreeNode → Prop} {children : List TreeNode}
      (before : ∀ child ∈ children, property child) (here : property node) :
      ∀ child ∈ children ++ [node], property child := by
    intro child member
    rcases List.mem_append.mp member with member | member
    · exact before child member
    · rw [List.mem_singleton.mp member]
      exact here
  cases settled with
  | empty => exact .empty
  | other outer unmarked => exact .other outer unmarked
  | run outer isRun calm single =>
      obtain ⟨other, quiet⟩ := inRun rfl
      refine .run outer isRun (append calm ?_) ?_
      · refine ⟨?_, by simp [other]⟩
        rw [Undisturbed, if_neg (by simp [other])]
        exact quiet
      · simpa [other] using single
  | inRun outer unmarked quiet => exact .inRun outer unmarked (append quiet (inRun rfl).2)
  | properties outer properties bare =>
      exact .properties outer properties (append bare (inProperties rfl))
  | runProperties outer isRun none properties bare =>
      exact .runProperties outer isRun none properties (append bare (inProperties rfl))
  | inProperties outer here bare =>
      exact .inProperties outer here (append bare (inProperties rfl))

theorem Settled.addProperties (settled : Settled vocabulary .run (run :: outer))
    (isRun : run.first.hasTag vocabulary.runTag = true)
    (none : run.children.filter (TreeNode.isElement vocabulary.runPropertiesTag) = [])
    (properties : node.isElement vocabulary.runPropertiesTag = true)
    (bare : ∀ fragment ∈ node.inner, vocabulary.Bare fragment) :
    Settled vocabulary .run ({ run with children := run.children ++ [node] } :: outer) := by
  cases settled with
  | inRun _ unmarked => exact absurd (.inl isRun) unmarked
  | run outer isRun calm single =>
      refine .run outer isRun ?_ ?_
      · intro child member
        rcases List.mem_append.mp member with member | member
        · exact calm child member
        · rw [List.mem_singleton.mp member]
          refine ⟨?_, fun _ fragment within => (bare fragment within).2⟩
          rw [Undisturbed, if_pos properties]
          exact fun fragment within => (bare fragment within).1
      · simp [none, properties]

/-- Where properties begin inside of a run, it is their parent and has none yet. -/
theorem Settled.parent (settled : Settled vocabulary .run outline.opened)
    (admitted : vocabulary.Admits outline fragment)
    (begins : fragment.begins vocabulary.runPropertiesTag) :
    ∃ run outer, outline.opened = run :: outer ∧ run.first.hasTag vocabulary.runTag = true ∧
      run.children.filter (TreeNode.isElement vocabulary.runPropertiesTag) = [] := by
  obtain ⟨marked, member, isRun⟩ := settled.marked
  have innermost :=
    (admitted.properties begins marked.first (List.mem_map_of_mem member)).2 isRun
  cases opened : outline.opened with
  | nil => simp [opened] at member
  | cons run outer =>
      simp only [Outline.path, opened, List.map_cons, List.head?_cons, Option.some.injEq]
        at innermost
      rw [← innermost] at isRun
      refine ⟨run, outer, rfl, isRun, ?_⟩
      have first := admitted.propertiesFirst begins run (by simp [opened]) isRun
      rw [List.filter_eq_nil_iff]
      intro child within
      simp [(first child within).1]

theorem Settled.opening (settled : Settled vocabulary region outline.opened)
    (admitted : vocabulary.Admits outline fragment) (start : fragment.opens = true) :
    ∃ region, Settled vocabulary region (⟨fragment, []⟩ :: outline.opened) := by
  have marked := settled.marked
  simp only [Fragment.opens, Bool.and_eq_true, beq_iff_eq, Option.isSome_iff_exists] at start
  obtain ⟨⟨name, named⟩, position⟩ := start
  have path {element : OpenElement} (member : element ∈ outline.opened) :
      element.first ∈ outline.path := List.mem_map_of_mem member
  cases isRun : fragment.hasTag vocabulary.runTag with
  | true =>
      have unmarked := admitted.run ⟨isRun, .inl position⟩
      cases region with
      | outside => exact ⟨.run, .run settled isRun (by simp) (by simp)⟩
      | run =>
          obtain ⟨run, member, isRun⟩ := marked
          exact absurd (.inl isRun) (unmarked run.first (path member))
      | properties =>
          obtain ⟨element, member, properties⟩ := marked
          exact absurd (.inr properties) (unmarked element.first (path member))
  | false =>
      cases properties : fragment.hasTag vocabulary.runPropertiesTag with
      | true =>
          have alone := admitted.properties ⟨properties, .inl position⟩
          cases region with
          | outside => exact ⟨.properties, .properties settled properties (by simp)⟩
          | run =>
              obtain ⟨run, outer, opened, isRun, none⟩ :=
                settled.parent admitted ⟨properties, .inl position⟩
              rw [opened] at settled ⊢
              exact ⟨.properties, .runProperties settled isRun none properties (by simp)⟩
          | properties =>
              obtain ⟨element, member, properties⟩ := marked
              rw [(alone element.first (path member)).1] at properties
              contradiction
      | false =>
          have unmarked : ¬ vocabulary.Marks fragment := by simp [Marks, isRun, properties]
          cases region with
          | outside => exact ⟨.outside, .other settled unmarked⟩
          | run => exact ⟨.run, .inRun settled unmarked (by simp)⟩
          | properties =>
              have bare := (admitted.reads.of_tag named).1
              exact ⟨.properties, .inProperties settled ⟨unmarked, bare⟩ (by simp)⟩

theorem Settled.closing {finished : List TreeNode}
    (settled : Settled vocabulary region (element :: outer)) (reads : fragment.Reads)
    (closing : fragment.closes = true) (same : element.first.xmlTag = fragment.xmlTag) :
    ∃ region, Settled vocabulary region
      (Outline.add (.element element.first element.children fragment)
        ⟨finished, outer⟩).opened := by
  have alike (tag : String) : fragment.hasTag tag = element.first.hasTag tag := by
    simp [Fragment.hasTag, same]
  have last (unmarked : ¬ vocabulary.Marks element.first) : ¬ vocabulary.Marks fragment := by
    simpa [Marks, alike] using unmarked
  have within {property : Fragment → Prop} (first : property element.first)
      (children : ∀ child ∈ element.children, ∀ fragment ∈ child.fragments, property fragment)
      (last : property fragment) :
      ∀ other ∈ (TreeNode.element element.first element.children fragment).fragments,
        property other := by
    intro other member
    rcases TreeNode.mem_element.mp member with rfl | member | rfl
    · exact first
    · obtain ⟨child, inside, member⟩ := List.mem_flatMap.mp member
      exact children child inside other member
    · exact last
  cases settled with
  | other outer _ => exact ⟨.outside, outer.add (by simp) (by simp)⟩
  | run outer _ _ _ => exact ⟨.outside, outer.add (by simp) (by simp)⟩
  | properties outer _ _ => exact ⟨.outside, outer.add (by simp) (by simp)⟩
  | inRun outer unmarked quiet =>
      refine ⟨.run, outer.add (fun _ => ⟨?_, ?_⟩) (by simp)⟩
      · simp only [Marks, not_or, Bool.not_eq_true] at unmarked
        exact unmarked.2
      · exact within (fun disturbs => unmarked disturbs.marks) quiet
          (fun disturbs => last unmarked disturbs.marks)
  | runProperties outer isRun none properties bare =>
      refine ⟨.run, outer.addProperties isRun none properties ?_⟩
      intro other member
      obtain ⟨child, inside, member⟩ := List.mem_flatMap.mp member
      exact bare child inside other member
  | inProperties outer here bare =>
      refine ⟨.properties, outer.add (by simp) (fun _ => within here bare ⟨last here.1, ?_⟩)⟩
      simp only [Fragment.closes, Bool.and_eq_true, Option.isSome_iff_exists] at closing
      obtain ⟨⟨name, named⟩, _⟩ := closing
      exact (reads.of_tag named).1

theorem Settled.standing (settled : Settled vocabulary region outline.opened)
    (admitted : vocabulary.Admits outline fragment) (noStart : fragment.opens = false)
    (noEnd : fragment.closes = false) :
    ∃ region, Settled vocabulary region (outline.add (.single fragment)).opened := by
  have whole {tag : String} (named : fragment.hasTag tag = true) :
      fragment.tagPosition = .selfClosing := admitted.reads.selfClosing named noStart noEnd
  have path {element : OpenElement} (member : element ∈ outline.opened) :
      element.first ∈ outline.path := List.mem_map_of_mem member
  cases region with
  | outside => exact ⟨.outside, settled.add (by simp) (by simp)⟩
  | properties =>
      obtain ⟨element, member, properties⟩ := settled.marked
      refine ⟨.properties, settled.add (by simp) (fun _ => ?_)⟩
      have unmarked : ¬ vocabulary.Marks fragment := by
        rintro (isRun | named)
        · exact admitted.run ⟨isRun, .inr (whole isRun)⟩ element.first (path member)
            (.inr properties)
        · have begins : fragment.begins vocabulary.runPropertiesTag := ⟨named, .inr (whole named)⟩
          rw [(admitted.properties begins element.first (path member)).1] at properties
          contradiction
      have noPlaceholder : fragment.isPlaceholder = false := by
        cases kind : fragment.isPlaceholder with
        | false => rfl
        | true =>
            rw [admitted.outside kind element.first (path member)] at properties
            contradiction
      simpa using ⟨unmarked, noPlaceholder⟩
  | run =>
      cases properties : fragment.hasTag vocabulary.runPropertiesTag with
      | true =>
          have begins : fragment.begins vocabulary.runPropertiesTag :=
            ⟨properties, .inr (whole properties)⟩
          obtain ⟨run, outer, opened, isRun, none⟩ := settled.parent admitted begins
          obtain ⟨finished, elements⟩ := outline
          subst opened
          have isElement :
              TreeNode.isElement vocabulary.runPropertiesTag (.single fragment) = true := by
            simp [TreeNode.isElement, properties, whole properties]
          exact ⟨.run, settled.addProperties isRun none isElement (by simp [TreeNode.inner])⟩
      | false =>
          have quiet : ¬ vocabulary.Disturbs fragment := by
            rintro (⟨isRun, start⟩ | ⟨named, _⟩)
            · rw [whole isRun] at start
              contradiction
            · rw [named] at properties
              contradiction
          have other :
              TreeNode.isElement vocabulary.runPropertiesTag (.single fragment) = false := by
            simp [TreeNode.isElement, properties]
          exact ⟨.run, settled.add (fun _ => ⟨other, by simpa using quiet⟩) (by simp)⟩

theorem Settled.step (settled : Settled vocabulary region outline.opened)
    (admitted : vocabulary.Admits outline fragment) (step : outline.next? fragment = some next) :
    ∃ region, Settled vocabulary region next.opened := by
  rcases Outline.next?_cases step with
    ⟨start, rfl⟩ | ⟨closing, element, outer, elements, same, rfl⟩ | ⟨noStart, noEnd, rfl⟩
  · exact settled.opening admitted start
  · rw [elements] at settled
    exact settled.closing admitted.reads closing same
  · exact settled.standing admitted noStart noEnd

theorem Settled.after (settled : Settled vocabulary region outline.opened)
    (along : outline.Along vocabulary.Admits fragments)
    (reached : outline.after? fragments = some next) :
    ∃ region, Settled vocabulary region next.opened := by
  induction fragments generalizing outline region with
  | nil =>
      cases reached
      exact ⟨region, settled⟩
  | cons fragment rest ih =>
      simp only [Outline.after?, Option.bind_eq_some_iff] at reached
      obtain ⟨middle, step, reached⟩ := reached
      obtain ⟨admitted, later⟩ := along
      obtain ⟨inner, settled⟩ := settled.step admitted step
      exact ih settled (later middle step) reached

theorem settled_of_along {seen : List Fragment}
    (along : Outline.empty.Along vocabulary.Admits seen) (reached : outline? seen = some outline) :
    ∃ region, Settled vocabulary region outline.opened :=
  Settled.after .empty along reached

/-- Properties that are left open stand around what follows. -/
theorem open_of_leavesOpen {seen : List Fragment} (reached : outline? seen = some outline)
    (unsettled : vocabulary.leavesOpen seen = true) :
    ∃ first ∈ outline.path, first.hasTag vocabulary.runPropertiesTag = true := by
  induction seen using List.reverseRecOn generalizing outline with
  | nil => contradiction
  | append_singleton init last ih =>
      rw [Outline.outline?_append, Option.bind_eq_some_iff] at reached
      obtain ⟨before, reached, step⟩ := reached
      rw [Outline.after?_singleton] at step
      rw [leavesOpen_concat] at unsettled
      cases bound : vocabulary.bounds last with
      | true =>
          rw [bound, if_pos rfl, beq_iff_eq] at unsettled
          simp only [bounds, Bool.and_eq_true] at bound
          have named := Fragment.hasTag_iff.mp bound.1
          rcases Outline.path_next step with ⟨_, path⟩ | ⟨closing, _⟩ | ⟨noStart, _⟩
          · exact ⟨last, by simp [path], bound.1⟩
          · simp [Fragment.closes, unsettled] at closing
          · simp [Fragment.opens, named, unsettled] at noStart
      | false =>
          rw [bound, if_neg Bool.false_ne_true] at unsettled
          obtain ⟨other, member, properties⟩ := ih reached unsettled
          rcases Outline.path_next step with
            ⟨_, path⟩ | ⟨closing, first, path, same⟩ | ⟨_, _, path⟩
          · exact ⟨other, by simp [path, member], properties⟩
          · rw [path] at member
            rcases List.mem_cons.mp member with rfl | member
            · -- The properties cannot be what is closed, since the fragment would end them.
              simp only [Fragment.closes, Bool.and_eq_true, beq_iff_eq] at closing
              rw [Fragment.hasTag_iff, same, ← Fragment.hasTag_iff] at properties
              simp [bounds, properties, closing.2] at bound
            · exact ⟨other, member, properties⟩
          · exact ⟨other, path ▸ member, properties⟩

theorem gathersOwn_of_undisturbed (distinct : vocabulary.runTag ≠ vocabulary.runPropertiesTag)
    {before behind : List Fragment} {children : List TreeNode}
    (silent : vocabulary.gathered before = []) (settled : vocabulary.leavesOpen before = false)
    (undisturbed : ∀ child ∈ children, vocabulary.Undisturbed child)
    (single : (children.filter (TreeNode.isElement vocabulary.runPropertiesTag)).length ≤ 1)
    (quiet : ∀ fragment ∈ behind, ¬ vocabulary.Disturbs fragment) :
    vocabulary.GathersOwn before behind children := by
  induction children generalizing before with
  | nil =>
      rw [GathersOwn, ← gathered_eq_nil_iff distinct, (gathered_of_quiet distinct settled quiet).1]
      exact silent
  | cons child rest ih =>
      have here := undisturbed child (by simp)
      have later := fun other member => undisturbed other (List.mem_cons_of_mem child member)
      rw [Undisturbed] at here
      rw [GathersOwn]
      cases properties : child.isElement vocabulary.runPropertiesTag with
      | false =>
          rw [if_neg (by simp [properties])] at here ⊢
          rw [List.filter_cons_of_neg (by simp [properties])] at single
          obtain ⟨same, closed⟩ := gathered_of_quiet distinct settled here
          exact ih (same.trans silent) closed later single
      | true =>
          rw [if_pos properties] at here
          rw [if_pos rfl]
          rw [List.filter_cons_of_pos properties] at single
          have last : rest.filter (TreeNode.isElement vocabulary.runPropertiesTag) = [] :=
            List.length_eq_zero_iff.mp (by simpa using single)
          refine ⟨?_, ?_⟩
          · cases child with
            | single fragment => exact (gathered_eq_nil_iff distinct before).mp silent
            | element first children last =>
                have passed : (children.flatMap TreeNode.fragments).dropWhile
                    (fun fragment => !decide (vocabulary.Marks fragment)) = [] := by
                  simpa [TreeNode.inner] using here
                rw [GathersNode, Whole, passed]
                simp
          · intro fragment member
            rcases List.mem_append.mp member with member | member
            · obtain ⟨other, within, member⟩ := List.mem_flatMap.mp member
              have noProperties := List.filter_eq_nil_iff.mp last other within
              have calm := later other within
              rw [Undisturbed, if_neg noProperties] at calm
              exact calm fragment member
            · exact quiet fragment member

theorem Settled.of_text {text : OpenElement}
    (settled : Settled vocabulary region (text :: run :: outer))
    (plain : ¬ vocabulary.Marks text.first) (isRun : run.first.hasTag vocabulary.runTag = true)
    (distinct : vocabulary.runTag ≠ vocabulary.runPropertiesTag) :
    (∀ element ∈ outer, element.first.hasTag vocabulary.runPropertiesTag = false) ∧
      (∀ child ∈ run.children, vocabulary.Calm child) ∧
      (run.children.filter (TreeNode.isElement vocabulary.runPropertiesTag)).length ≤ 1 ∧
      ∀ child ∈ text.children, ∀ fragment ∈ child.fragments, ¬ vocabulary.Disturbs fragment := by
  have noProperties : run.first.hasTag vocabulary.runPropertiesTag = false := by
    rw [Fragment.hasTag_iff] at isRun
    simpa [Fragment.hasTag, isRun] using distinct
  cases settled with
  | other inner _ => exact absurd (.inl isRun) (inner.marked run (by simp))
  | run _ isRun _ _ => exact absurd (.inl isRun) plain
  | properties _ properties _ => exact absurd (.inr properties) plain
  | runProperties _ _ _ properties _ => exact absurd (.inr properties) plain
  | inProperties inner _ _ =>
      cases inner with
      | properties _ properties _ => simp [noProperties] at properties
      | runProperties _ _ _ properties _ => simp [noProperties] at properties
      | inProperties _ bare _ => exact absurd (.inl isRun) bare.1
  | inRun inner _ quiet =>
      cases inner with
      | inRun _ unmarked _ => exact absurd (.inl isRun) unmarked
      | run outside _ calm single =>
          refine ⟨?_, calm, single, quiet⟩
          intro element member
          have unmarked := outside.marked element member
          simp only [Marks, not_or, Bool.not_eq_true] at unmarked
          exact unmarked.2

/-- Inside of a text of a regular part the run gathers its own properties. -/
theorem gathersOwn_of_settled {text : OpenElement} {seen : List Fragment}
    (distinct : vocabulary.runTag ≠ vocabulary.runPropertiesTag)
    (reached : outline? seen = some outline) (opened : outline.opened = text :: run :: outer)
    (settled : Settled vocabulary region (text :: run :: outer))
    (plain : ¬ vocabulary.Marks text.first) (isRun : run.first.hasTag vocabulary.runTag = true) :
    vocabulary.GathersOwn (Outline.fragments ⟨outline.finished, outer⟩ ++ [run.first])
      text.fragments run.children := by
  have sound := Outline.sound_of_outline reached
  obtain ⟨finished, elements⟩ := outline
  subst opened
  obtain ⟨outside, calm, single, quiet⟩ := settled.of_text plain isRun distinct
  have before := sound.withoutInnermost.withoutInnermost.outline?_fragments
  have starts : vocabulary.startsRun run.first = true := by
    have start := sound.opens run (by simp)
    simp only [Fragment.opens, Bool.and_eq_true] at start
    simp [startsRun, isRun, start.2]
  have closed : vocabulary.leavesOpen (Outline.fragments ⟨finished, outer⟩) = false := by
    by_contra unsettled
    obtain ⟨first, member, properties⟩ :=
      open_of_leavesOpen before (by simpa using unsettled)
    obtain ⟨element, within, rfl⟩ := List.mem_map.mp member
    rw [outside element within] at properties
    contradiction
  refine gathersOwn_of_undisturbed distinct (gathered_of_run starts) ?_
    (fun child member => (calm child member).undisturbed) single ?_
  · rw [leavesOpen_concat, unbounded_of_run distinct starts]
    exact closed
  · intro fragment member
    rcases List.mem_cons.mp member with rfl | member
    · exact fun disturbs => plain disturbs.marks
    · obtain ⟨child, within, member⟩ := List.mem_flatMap.mp member
      exact quiet child within fragment member

end RunVocabulary

end Stencil
