import Stencil.Proofs.RunStarts

namespace Stencil

theorem TreeNode.fragments_ne_nil (node : TreeNode) : node.fragments ≠ [] := by
  cases node <;> simp

namespace RunVocabulary

/-- Run properties that begin directly in a run are its first, and no text stands
before them. -/
def PropertiesFirst (vocabulary : RunVocabulary) (outline : Outline) (fragment : Fragment) :
    Prop :=
  fragment.begins vocabulary.runPropertiesTag →
    ∀ run ∈ outline.opened.head?, run.first.hasTag vocabulary.runTag = true →
      ∀ child ∈ run.children, child.isElement vocabulary.runPropertiesTag = false ∧
        child.isElement vocabulary.textTag = false

instance (vocabulary : RunVocabulary) (outline : Outline) (fragment : Fragment) :
    Decidable (vocabulary.PropertiesFirst outline fragment) :=
  inferInstanceAs (Decidable (_ → _))

variable (vocabulary : RunVocabulary)

/-- A tag that ends run properties or is all of them. -/
def finishes (fragment : Fragment) : Bool :=
  vocabulary.bounds fragment && !vocabulary.startsProperties fragment

/-- After these fragments nothing is gathered. Behind the last start of a run no properties
begin or end, and if some are open there, only tags follow that are passed over. -/
def Silent (fragments : List Fragment) : Prop :=
  ∀ fragment ∈ fragments.rtakeWhile fun fragment => !vocabulary.startsRun fragment,
    vocabulary.bounds fragment = false ∧
      (vocabulary.leavesOpen fragments = true → vocabulary.Marks fragment)

/-- Behind the start of properties each of these fragments is gathered. Once one has a tag of
runs or of properties, it and all that follow finish properties, since nothing else is gathered
where none are open. -/
def Whole (fragments : List Fragment) : Prop :=
  ∀ fragment ∈ fragments.dropWhile fun fragment => !decide (vocabulary.Marks fragment),
    vocabulary.finishes fragment = true

/-- Properties that follow these fragments are gathered, all of them and nothing else. Their
start discards what is before it, which properties in a single tag do not. -/
def GathersNode (before : List Fragment) : TreeNode → Prop
  | .single _ => vocabulary.Silent before
  | .element _ children _ => vocabulary.Whole (children.flatMap TreeNode.fragments)

/-- Of a run with these children, which starts before them and goes on behind them, its own
properties are gathered and nothing else. -/
def GathersOwn (before behind : List Fragment) : List TreeNode → Prop
  | [] => vocabulary.Silent (before ++ behind)
  | child :: rest =>
      if child.isElement vocabulary.runPropertiesTag then
        vocabulary.GathersNode before child ∧
          ∀ fragment ∈ rest.flatMap TreeNode.fragments ++ behind, ¬ vocabulary.Disturbs fragment
      else GathersOwn (before ++ child.fragments) behind rest

instance decidableSilent (fragments : List Fragment) : Decidable (vocabulary.Silent fragments) :=
  inferInstanceAs (Decidable (∀ fragment ∈ fragments.rtakeWhile _, _))

instance decidableWhole (fragments : List Fragment) : Decidable (vocabulary.Whole fragments) :=
  inferInstanceAs (Decidable (∀ fragment ∈ fragments.dropWhile _, _))

instance decidableGathersNode (before : List Fragment) :
    (node : TreeNode) → Decidable (vocabulary.GathersNode before node)
  | .single _ => vocabulary.decidableSilent before
  | .element _ children _ => vocabulary.decidableWhole (children.flatMap TreeNode.fragments)

instance decidableGathersOwn (before behind : List Fragment) :
    (children : List TreeNode) → Decidable (vocabulary.GathersOwn before behind children)
  | [] => vocabulary.decidableSilent (before ++ behind)
  | child :: rest =>
      have := vocabulary.decidableGathersNode before child
      have := decidableGathersOwn (before ++ child.fragments) behind rest
      inferInstanceAs (Decidable (if child.isElement vocabulary.runPropertiesTag then
        vocabulary.GathersNode before child ∧
          ∀ fragment ∈ rest.flatMap TreeNode.fragments ++ behind, ¬ vocabulary.Disturbs fragment
        else vocabulary.GathersOwn (before ++ child.fragments) behind rest))

variable {vocabulary} {before after own : List Fragment} {fragment : Fragment} {node : TreeNode}

theorem disturbs_iff :
    vocabulary.Disturbs fragment ↔
      vocabulary.startsRun fragment = true ∨ vocabulary.bounds fragment = true := by
  simp [Disturbs, startsRun, bounds]

theorem marks_of_bounds (bound : vocabulary.bounds fragment = true) :
    vocabulary.Marks fragment := by
  simp only [bounds, Bool.and_eq_true] at bound
  exact .inr bound.1

theorem not_start_of_finishes (finishes : vocabulary.finishes fragment = true) :
    vocabulary.bounds fragment = true ∧ (fragment.tagPosition == .start) = false := by
  simp only [RunVocabulary.finishes, Bool.and_eq_true, Bool.not_eq_true'] at finishes
  obtain ⟨bound, noStart⟩ := finishes
  refine ⟨bound, ?_⟩
  simp only [bounds, Bool.and_eq_true] at bound
  simpa [startsProperties, bound.1] using noStart

theorem unbounded_of_run (distinct : vocabulary.runTag ≠ vocabulary.runPropertiesTag)
    (run : vocabulary.startsRun fragment = true) : vocabulary.bounds fragment = false := by
  simp only [startsRun, Bool.and_eq_true, Fragment.hasTag_iff] at run
  simp [bounds, Fragment.hasTag, run, distinct]

theorem marks_of_restarts (distinct : vocabulary.runTag ≠ vocabulary.runPropertiesTag)
    (restarts : vocabulary.restarts fragment = true) :
    vocabulary.Marks fragment ∧ vocabulary.finishes fragment = false := by
  rcases Bool.or_eq_true_iff.mp restarts with run | properties
  · rw [finishes, unbounded_of_run distinct run]
    simp only [startsRun, Bool.and_eq_true] at run
    exact ⟨.inl run.1, rfl⟩
  · rw [finishes, properties]
    exact ⟨marks_of_bounds (bounds_of_startsProperties properties), by simp⟩

theorem gathered_concat (distinct : vocabulary.runTag ≠ vocabulary.runPropertiesTag)
    (init : List Fragment) (last : Fragment) :
    vocabulary.gathered (init ++ [last]) =
      (if vocabulary.restarts last then [] else vocabulary.gathered init) ++
        if vocabulary.bounds last ||
          (!decide (vocabulary.Marks last) && vocabulary.leavesOpen init) then [last] else [] := by
  cases run : vocabulary.startsRun last with
  | true =>
      have restarted : vocabulary.restarts last = true := by simp [restarts, run]
      have marks := (marks_of_restarts distinct restarted).1
      simp [gathered_of_run run, restarted, marks, unbounded_of_run distinct run]
  | false =>
      cases properties : vocabulary.startsProperties last with
      | true =>
          have bound := bounds_of_startsProperties properties
          simp [gathered_of_properties run properties, restarts, properties, bound]
      | false =>
          rw [gathered_of_other run properties, isGathered, List.take_length]
          simp [restarts, run, properties]

section

variable (distinct : vocabulary.runTag ≠ vocabulary.runPropertiesTag)

include distinct

theorem gathered_eq_nil_iff (fragments : List Fragment) :
    vocabulary.gathered fragments = [] ↔ vocabulary.Silent fragments := by
  induction fragments using List.reverseRecOn with
  | nil => simp [gathered, Silent]
  | append_singleton init last ih =>
      cases run : vocabulary.startsRun last with
      | true => simp [gathered_of_run run, Silent, run]
      | false =>
          have since : (init ++ [last]).rtakeWhile (fun fragment =>
              !vocabulary.startsRun fragment) =
              init.rtakeWhile (fun fragment => !vocabulary.startsRun fragment) ++ [last] := by
            simp [run]
          rw [gathered_concat distinct, Silent, since, leavesOpen_concat, List.forall_mem_append]
          cases bound : vocabulary.bounds last with
          | true => simp [bound]
          | false =>
              have noRestart : vocabulary.restarts last = false := by
                simpa [restarts, run] using noProperties_of_unbounded bound
              by_cases marks : vocabulary.Marks last <;>
                cases inside : vocabulary.leavesOpen init <;>
                simp_all [Silent]

theorem gathered_append (before after : List Fragment) :
    ∃ kept, kept.Sublist after ∧
      vocabulary.gathered (before ++ after) =
        (if after.any vocabulary.restarts then [] else vocabulary.gathered before) ++ kept ∧
      (after.any vocabulary.restarts = false →
        ∀ fragment ∈ after, vocabulary.bounds fragment = true → fragment ∈ kept) := by
  induction after using List.reverseRecOn with
  | nil => exact ⟨[], by simp, by simp, by simp⟩
  | append_singleton init last ih =>
      obtain ⟨kept, within, same, bounded⟩ := ih
      obtain ⟨added, single, concat, bound⟩ : ∃ added, added.Sublist [last] ∧
          vocabulary.gathered (before ++ init ++ [last]) =
            (if vocabulary.restarts last then [] else vocabulary.gathered (before ++ init)) ++
              added ∧
          (vocabulary.bounds last = true → added = [last]) := by
        refine ⟨_, ?_, gathered_concat distinct (before ++ init) last, fun bound => by simp [bound]⟩
        split <;> simp
      rw [← List.append_assoc, concat, same, List.any_append]
      cases restarts : vocabulary.restarts last with
      | true => exact ⟨added, single.trans (by simp), by simp [restarts], by simp [restarts]⟩
      | false =>
          refine ⟨kept ++ added, within.append single, by simp [restarts], ?_⟩
          intro calm fragment member bounds
          rcases List.mem_append.mp member with member | member
          · simp only [List.any_cons, restarts, List.any_nil, Bool.or_false] at calm
            exact List.mem_append_left _ (bounded calm fragment member bounds)
          · rw [List.mem_singleton.mp member] at bounds ⊢
            simp [bound bounds]

/-- Where no properties are open, nothing changes until a run starts or properties begin. -/
theorem gathered_of_quiet (settled : vocabulary.leavesOpen before = false)
    (quiet : ∀ fragment ∈ after, ¬ vocabulary.Disturbs fragment) :
    vocabulary.gathered (before ++ after) = vocabulary.gathered before ∧
      vocabulary.leavesOpen (before ++ after) = false := by
  induction after using List.reverseRecOn with
  | nil => simpa using settled
  | append_singleton init last ih =>
      obtain ⟨same, closed⟩ := ih fun fragment member => quiet fragment (by simp [member])
      have passed := quiet last (by simp)
      simp only [disturbs_iff, not_or, Bool.not_eq_true] at passed
      have noRestart : vocabulary.restarts last = false := by
        simp [restarts, passed.1, noProperties_of_unbounded passed.2]
      rw [← List.append_assoc, gathered_concat distinct, leavesOpen_concat]
      simp [noRestart, passed.2, closed, same]

/-- What has been gathered is lost for good at a restart, and a tag that finishes properties
is gathered with it. -/
theorem quiet_of_gathered (apart : (before ++ after).Nodup) (nonempty : own ≠ [])
    (earlier : own ⊆ before) (same : vocabulary.gathered (before ++ after) = own) :
    ∀ fragment ∈ after, ¬ vocabulary.Disturbs fragment := by
  obtain ⟨kept, within, gathers, bounded⟩ := gathered_append distinct before after
  rw [same] at gathers
  have noneKept : kept = [] := by
    refine List.eq_nil_iff_forall_not_mem.mpr fun fragment member => ?_
    have inOwn : fragment ∈ own := gathers ▸ List.mem_append_right _ member
    exact List.disjoint_of_nodup_append apart (earlier inOwn) (within.subset member)
  have calm : after.any vocabulary.restarts = false := by
    by_contra restarted
    rw [if_pos (by simpa using restarted), noneKept] at gathers
    exact nonempty gathers
  intro fragment member disturbs
  rcases disturbs_iff.mp disturbs with run | bound
  · rw [List.any_eq_false] at calm
    exact calm fragment member (by simp [restarts, run])
  · have kept := bounded calm fragment member bound
    simp [noneKept] at kept

theorem gathered_concat_iff (nonempty : vocabulary.gathered before ≠ []) :
    vocabulary.gathered (before ++ [fragment]) = vocabulary.gathered before ++ [fragment] ↔
      vocabulary.finishes fragment = true ∨
        (¬ vocabulary.Marks fragment ∧ vocabulary.leavesOpen before = true) := by
  rw [gathered_concat distinct]
  cases restarts : vocabulary.restarts fragment with
  | true =>
      have shorter : ∀ condition : Bool,
          (if condition then [fragment] else []) ≠ vocabulary.gathered before ++ [fragment] := by
        obtain ⟨first, rest, gathers⟩ := List.exists_cons_of_ne_nil nonempty
        intro condition
        rw [gathers]
        cases condition <;> simp
      obtain ⟨marks, unfinished⟩ := marks_of_restarts distinct restarts
      simp only [if_true, List.nil_append, shorter, unfinished, marks]
      simp
  | false =>
      simp only [RunVocabulary.restarts, Bool.or_eq_false_iff] at restarts
      cases bound : vocabulary.bounds fragment <;> simp [finishes, restarts.2, bound]

theorem gathered_cons_iff :
    vocabulary.gathered (before ++ fragment :: after) =
        vocabulary.gathered before ++ fragment :: after ↔
      vocabulary.gathered (before ++ [fragment]) = vocabulary.gathered before ++ [fragment] ∧
        vocabulary.gathered (before ++ [fragment] ++ after) =
          vocabulary.gathered (before ++ [fragment]) ++ after := by
  rw [List.append_cons before, List.append_cons (vocabulary.gathered before)]
  constructor
  · intro whole
    obtain ⟨kept, within, gathers, _⟩ := gathered_append distinct (before ++ [fragment]) after
    have shorter : (vocabulary.gathered (before ++ [fragment])).length ≤
        (vocabulary.gathered before).length + 1 := by
      rw [gathered_concat distinct, List.length_append]
      refine Nat.add_le_add ?_ (by split <;> simp)
      split
      · exact Nat.zero_le _
      · exact Nat.le_refl _
    have same := gathers.symm.trans whole
    -- If one of them is passed over, there are fewer.
    have all : kept = after := by
      have lengths := congrArg List.length same
      simp only [List.length_append, List.length_singleton] at lengths
      refine within.eq_of_length_le ?_
      split at lengths
      · rw [List.length_nil] at lengths
        omega
      · omega
    rw [all, List.append_left_inj] at same
    cases restarted : after.any vocabulary.restarts with
    | true => simp [restarted] at same
    | false =>
        rw [restarted, if_neg Bool.false_ne_true] at same
        exact ⟨same, by rw [whole, same]⟩
  · rintro ⟨first, rest⟩
    rw [rest, first]

theorem gathered_append_iff (nonempty : vocabulary.gathered before ≠ []) :
    vocabulary.gathered (before ++ after) = vocabulary.gathered before ++ after ↔
      if vocabulary.leavesOpen before then vocabulary.Whole after
      else ∀ fragment ∈ after, vocabulary.finishes fragment = true := by
  induction after generalizing before with
  | nil => simp [Whole]
  | cons fragment rest ih =>
      rw [gathered_cons_iff distinct]
      by_cases first : vocabulary.gathered (before ++ [fragment]) =
          vocabulary.gathered before ++ [fragment]
      · rw [and_iff_right first, ih (by simp [first]), leavesOpen_concat]
        rcases (gathered_concat_iff distinct nonempty).mp first with finishes | ⟨plain, opened⟩
        · obtain ⟨bound, noStart⟩ := not_start_of_finishes finishes
          have marks := marks_of_bounds bound
          simp [Whole, bound, noStart, marks, finishes]
        · have passed : vocabulary.bounds fragment = false := by
            by_contra bound
            exact plain (marks_of_bounds (by simpa using bound))
          simp [Whole, passed, plain, opened]
      · rw [iff_false_left (fun both => first both.1)]
        rw [gathered_concat_iff distinct nonempty] at first
        simp only [not_or, not_and, Bool.not_eq_true] at first
        obtain ⟨unfinished, closed⟩ := first
        by_cases marks : vocabulary.Marks fragment
        · simp [Whole, marks, unfinished]
        · simp [closed marks, unfinished]

omit distinct in
theorem whole_concat {inner : List Fragment} {last : Fragment}
    (finishes : vocabulary.finishes last = true) :
    vocabulary.Whole (inner ++ [last]) ↔ vocabulary.Whole inner := by
  induction inner with
  | nil =>
      have marks := marks_of_bounds (not_start_of_finishes finishes).1
      simp [Whole, marks, finishes]
  | cons fragment rest ih =>
      by_cases marks : vocabulary.Marks fragment
      · simp [Whole, marks, or_imp, forall_and, finishes]
      · simpa [Whole, marks] using ih

theorem gathered_node_iff (before : List Fragment) (tagged : node.Tagged)
    (properties : node.isElement vocabulary.runPropertiesTag = true) :
    vocabulary.leavesOpen (before ++ node.fragments) = false ∧
      (vocabulary.gathered (before ++ node.fragments) = node.fragments ↔
        vocabulary.GathersNode before node) := by
  cases node with
  | single fragment =>
      simp only [TreeNode.isElement, Bool.and_eq_true, beq_iff_eq] at properties
      obtain ⟨named, position⟩ := properties
      have bound : vocabulary.bounds fragment = true := by simp [bounds, named, position]
      have noRestart : vocabulary.restarts fragment = false := by
        simp [restarts, startsRun, startsProperties, position]
      rw [TreeNode.fragments_single, leavesOpen_concat, gathered_concat distinct]
      refine ⟨by simp [bound, position], ?_⟩
      simp [noRestart, bound, GathersNode, gathered_eq_nil_iff distinct]
  | element first children last =>
      obtain ⟨start, closing, same, _⟩ := tagged
      simp only [Fragment.opens, Fragment.closes, Bool.and_eq_true, beq_iff_eq] at start closing
      simp only [TreeNode.isElement] at properties
      have named : last.hasTag vocabulary.runPropertiesTag = true := by
        rw [Fragment.hasTag_iff] at properties ⊢
        rw [← same, properties]
      have bound : vocabulary.bounds last = true := by simp [bounds, named, closing.2]
      have finishes : vocabulary.finishes last = true := by
        simp [RunVocabulary.finishes, bound, startsProperties, closing.2]
      have starts : vocabulary.startsProperties first = true := by
        simp [startsProperties, properties, start.2]
      have opened : vocabulary.leavesOpen (before ++ [first]) = true := by
        rw [leavesOpen_concat, if_pos (bounds_of_startsProperties starts), start.2]
        rfl
      have restarted : vocabulary.gathered (before ++ [first]) = [first] :=
        gathered_of_properties
          (by simp [startsRun, vocabulary.no_run distinct properties]) starts
      rw [TreeNode.fragments_element, List.append_cons]
      refine ⟨?_, ?_⟩
      · rw [← List.append_assoc, leavesOpen_concat, if_pos bound, closing.2]
        rfl
      · have nonempty : vocabulary.gathered (before ++ [first]) ≠ [] := by simp [restarted]
        have kept := @gathered_append_iff vocabulary _
          (children.flatMap TreeNode.fragments ++ [last]) distinct nonempty
        rw [restarted, if_pos opened, whole_concat finishes] at kept
        exact kept

theorem gathered_own_iff {behind : List Fragment} {children : List TreeNode}
    (tagged : ∀ child ∈ children, child.Tagged)
    (single : (children.filter (TreeNode.isElement vocabulary.runPropertiesTag)).length ≤ 1) :
    let stream := before ++ (children.flatMap TreeNode.fragments ++ behind)
    let own := (children.filter (TreeNode.isElement vocabulary.runPropertiesTag)).flatMap
      TreeNode.fragments
    (vocabulary.GathersOwn before behind children → vocabulary.gathered stream = own) ∧
      (stream.Nodup → vocabulary.gathered stream = own →
        vocabulary.GathersOwn before behind children) := by
  intro stream own
  induction children generalizing before with
  | nil =>
      have silent := gathered_eq_nil_iff distinct (before ++ behind)
      exact ⟨silent.mpr, fun _ => silent.mp⟩
  | cons child rest ih =>
      have later := fun other member => tagged other (List.mem_cons_of_mem child member)
      have regroup : stream =
          before ++ child.fragments ++ (rest.flatMap TreeNode.fragments ++ behind) := by
        simp [stream]
      cases properties : child.isElement vocabulary.runPropertiesTag with
      | false =>
          have others : own = (rest.filter (TreeNode.isElement
              vocabulary.runPropertiesTag)).flatMap TreeNode.fragments := by
            simp [own, properties]
          rw [List.filter_cons_of_neg (by simp [properties])] at single
          rw [GathersOwn, if_neg (by simp [properties]), regroup, others]
          exact ih later single
      | true =>
          rw [List.filter_cons_of_pos properties] at single
          have alone : rest.filter (TreeNode.isElement vocabulary.runPropertiesTag) = [] :=
            List.length_eq_zero_iff.mp (by simpa using single)
          have node : own = child.fragments := by simp [own, properties, alone]
          obtain ⟨settled, whole⟩ :=
            gathered_node_iff distinct before (tagged child (by simp)) properties
          rw [GathersOwn, if_pos properties, regroup, node]
          constructor
          · rintro ⟨gathers, quiet⟩
            rw [(gathered_of_quiet distinct settled quiet).1]
            exact whole.mpr gathers
          · intro apart same
            have quiet := quiet_of_gathered distinct apart child.fragments_ne_nil
              (List.subset_append_right before child.fragments) same
            rw [(gathered_of_quiet distinct settled quiet).1] at same
            exact ⟨whole.mp same, quiet⟩

end

end RunVocabulary

section

variable {dialect : Dialect} {vocabulary : RunVocabulary} {seen : List Fragment}
  {outline : Outline} {text run : OpenElement} {outer : List OpenElement}

theorem gathered_of_outline (known : dialect.vocabulary? = some vocabulary)
    (reached : outline? seen = some outline) (opened : outline.opened = text :: run :: outer)
    (single : (run.children.filter (TreeNode.isElement vocabulary.runPropertiesTag)).length ≤ 1) :
    let own := (run.children.filter (TreeNode.isElement vocabulary.runPropertiesTag)).flatMap
      TreeNode.fragments
    let gathers := vocabulary.GathersOwn
      (Outline.fragments ⟨outline.finished, outer⟩ ++ [run.first]) text.fragments run.children
    (gathers → vocabulary.gathered seen = own) ∧
      (seen.Nodup → vocabulary.gathered seen = own → gathers) := by
  have sound := Outline.sound_of_outline reached
  obtain ⟨finished, elements⟩ := outline
  subst opened
  have stream : seen = Outline.fragments ⟨finished, outer⟩ ++ [run.first] ++
      (run.children.flatMap TreeNode.fragments ++ text.fragments) := by
    rw [← fragments_outline reached]
    simp [Outline.fragments, OpenElement.fragments]
  rw [stream]
  exact RunVocabulary.gathered_own_iff (Dialect.tags_distinct known).1
    (sound.children run (by simp)) single

theorem snapshot_of_gathered (known : dialect.vocabulary? = some vocabulary)
    (same : vocabulary.gathered seen = (run.children.filter
      (TreeNode.isElement vocabulary.runPropertiesTag)).flatMap TreeNode.fragments) :
    (RunFormatting.after dialect seen).snapshot = run.childText vocabulary.runPropertiesTag := by
  rw [RunFormatting.after_gathered known, RunFormatting.snapshot, same, OpenElement.childText,
    ← TreeNode.joined_flatMap, Fragment.joined]

/-- In a text, or whatever else is open directly in a run, the snapshot is the markup of the
properties of that run, and empty if it has none, wherever these are gathered and nothing else.
Where no fragment occurs twice, this is so in no other case. -/
theorem own_properties_gathered_iff (known : dialect.vocabulary? = some vocabulary)
    (seen rest : List Fragment) (nested : Nested (seen ++ rest)) :
    ∃ outline, outline? seen = some outline ∧
      ∀ text run outer, outline.opened = text :: run :: outer →
        (run.children.filter (TreeNode.isElement vocabulary.runPropertiesTag)).length ≤ 1 →
        let own := (run.children.filter (TreeNode.isElement vocabulary.runPropertiesTag)).flatMap
          TreeNode.fragments
        let gathersOwn := vocabulary.GathersOwn
          (Outline.fragments ⟨outline.finished, outer⟩ ++ [run.first]) text.fragments run.children
        (gathersOwn → (RunFormatting.after dialect seen).snapshot =
          run.childText vocabulary.runPropertiesTag) ∧
        (RunFormatting.after dialect seen).snapshot =
          Fragment.joined (vocabulary.gathered seen) ∧
        (seen.Nodup → (vocabulary.gathered seen = own ↔ gathersOwn)) := by
  obtain ⟨outline, reached⟩ := nested.outline_of_prefix
  refine ⟨outline, reached, ?_⟩
  intro text run outer opened single own gathersOwn
  obtain ⟨gathered, conversely⟩ := gathered_of_outline known reached opened single
  refine ⟨fun gathers => snapshot_of_gathered known (gathered gathers), ?_, ?_⟩
  · rw [RunFormatting.after_gathered known]
    rfl
  · exact fun apart => ⟨conversely apart, gathered⟩

open Fragment in
/-- A run with another one in a text box, which has properties too, before its own. -/
theorem own_properties_behind_text_box :
    let seen := [startTag "w:r", startTag "w:pict", .tag 2 "w:r" .start "<w:r>",
      emptyTag "w:rPr", endTag "w:r", endTag "w:pict", startTag "w:rPr", emptyTag "w:b",
      endTag "w:rPr", startTag "w:t"]
    ∃ vocabulary, Dialect.docx.vocabulary? = some vocabulary ∧
      Nested (seen ++ [endTag "w:t", endTag "w:r"]) ∧ seen.Nodup ∧
      (RunFormatting.after .docx seen).snapshot = "<w:rPr><w:b/></w:rPr>" ∧
      vocabulary.gathered seen = [startTag "w:rPr", emptyTag "w:b", endTag "w:rPr"] := by
  intro seen
  have nested : Nested (seen ++ [endTag "w:t", endTag "w:r"]) := by decide
  have apart : seen.Nodup := by decide
  obtain ⟨outline, reached, law⟩ := own_properties_gathered_iff
    (rfl : Dialect.docx.vocabulary? = some _) seen [endTag "w:t", endTag "w:r"] nested
  cases reached
  obtain ⟨snapshot, _, gathered⟩ := law _ _ _ rfl (by decide)
  refine ⟨_, rfl, nested, apart, snapshot (by decide), (gathered apart).mpr (by decide)⟩

end

/-- In a stream with its runs in order, what is gathered inside of the text of a run
is not the markup of its properties. -/
def RunVocabulary.Misread (dialect : Dialect) (vocabulary : RunVocabulary)
    (seen rest : List Fragment) : Prop :=
  Nested (seen ++ rest) ∧
    Outline.empty.Along vocabulary.PropertiesFirst (seen ++ rest) ∧
      ∃ finished text run outer, outline? seen = some ⟨finished, text :: run :: outer⟩ ∧
        text.first.hasTag vocabulary.textTag = true ∧
        run.first.hasTag vocabulary.runTag = true ∧
        (RunFormatting.after dialect seen).snapshot ≠ run.childText vocabulary.runPropertiesTag

open Fragment in
/-- Tracked changes of the properties, a run in a text box, a run in properties, and
properties deeper in a run than its own. -/
theorem snapshot_misread :
    ∃ vocabulary, Dialect.docx.vocabulary? = some vocabulary ∧
      vocabulary.Misread .docx
        [startTag "w:r", startTag "w:rPr", startTag "w:rPrChange", emptyTag "w:rPr",
          endTag "w:rPrChange", endTag "w:rPr", startTag "w:t"]
        [endTag "w:t", endTag "w:r"] ∧
      vocabulary.Misread .docx
        [startTag "w:r", emptyTag "w:rPr", startTag "w:pict", startTag "w:r", endTag "w:r",
          endTag "w:pict", startTag "w:t"]
        [endTag "w:t", endTag "w:r"] ∧
      vocabulary.Misread .docx
        [startTag "w:rPr", startTag "w:r", startTag "w:t"]
        [endTag "w:t", endTag "w:r", endTag "w:rPr"] ∧
      vocabulary.Misread .docx
        [startTag "w:r", startTag "w:object", emptyTag "w:rPr", endTag "w:object", startTag "w:t"]
        [endTag "w:t", endTag "w:r"] := by
  refine ⟨_, rfl, ?_, ?_, ?_, ?_⟩ <;>
    exact ⟨by decide, by decide, _, _, _, _, rfl, rfl, rfl, by decide⟩

end Stencil
