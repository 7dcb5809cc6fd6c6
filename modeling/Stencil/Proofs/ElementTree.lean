import Stencil.Fragment

namespace Stencil

/-! The elements that the tags of a part nest. After some of its fragments, the tree
is known as an outline: the elements that are still open, each with what is finished
in it, and what is finished outside of all of them. A fragment is a start or end tag
by its element name and position, whatever kind it is of. -/

namespace Fragment

def opens (fragment : Fragment) : Bool :=
  fragment.xmlTag.isSome && fragment.tagPosition == .start

def closes (fragment : Fragment) : Bool :=
  fragment.xmlTag.isSome && fragment.tagPosition == .end

/-- The start or the whole of an element of this name. -/
def begins (fragment : Fragment) (tag : String) : Prop :=
  fragment.hasTag tag = true ∧ (fragment.tagPosition = .start ∨ fragment.tagPosition = .selfClosing)

instance (fragment : Fragment) (tag : String) : Decidable (fragment.begins tag) :=
  inferInstanceAs (Decidable (_ ∧ _))

theorem hasTag_iff {fragment : Fragment} {tag : String} :
    fragment.hasTag tag = true ↔ fragment.xmlTag = some tag := by
  simp [hasTag]

def joined (fragments : List Fragment) : String :=
  String.join (fragments.map text)

theorem joined_nil : joined [] = "" := by
  simp [joined]

@[simp] theorem joined_cons (fragment : Fragment) (rest : List Fragment) :
    joined (fragment :: rest) = fragment.text ++ joined rest := by
  simp [joined]

@[simp] theorem joined_append (first second : List Fragment) :
    joined (first ++ second) = joined first ++ joined second := by
  simp [joined, String.join_append]

end Fragment

/-- A finished node: an element with its start and end tags, or any other fragment,
among them tags that are a whole element. -/
inductive TreeNode where
  | single (fragment : Fragment)
  | element (first : Fragment) (children : List TreeNode) (last : Fragment)

namespace TreeNode

mutual

def fragments : TreeNode → List Fragment
  | .single fragment => [fragment]
  | .element first children last => first :: (childFragments children ++ [last])

def childFragments : List TreeNode → List Fragment
  | [] => []
  | child :: rest => child.fragments ++ childFragments rest

end

theorem childFragments_eq (children : List TreeNode) :
    childFragments children = children.flatMap fragments := by
  induction children with
  | nil => simp [childFragments]
  | cons child rest ih => simp [childFragments, ih]

@[simp] theorem fragments_single (fragment : Fragment) :
    (single fragment).fragments = [fragment] := by
  simp [fragments]

@[simp] theorem fragments_element (first last : Fragment) (children : List TreeNode) :
    (element first children last).fragments =
      first :: (children.flatMap fragments ++ [last]) := by
  simp [fragments, childFragments_eq]

theorem mem_element {fragment first last : Fragment} {children : List TreeNode} :
    fragment ∈ (element first children last).fragments ↔
      fragment = first ∨ fragment ∈ children.flatMap fragments ∨ fragment = last := by
  simp

def inner : TreeNode → List Fragment
  | .single _ => []
  | .element _ children _ => children.flatMap fragments

def isElement (tag : String) : TreeNode → Bool
  | .single fragment => fragment.hasTag tag && fragment.tagPosition == .selfClosing
  | .element first _ _ => first.hasTag tag

def text (node : TreeNode) : String :=
  Fragment.joined node.fragments

theorem joined_flatMap (nodes : List TreeNode) :
    Fragment.joined (nodes.flatMap fragments) = String.join (nodes.map text) := by
  induction nodes with
  | nil => rfl
  | cons node rest ih =>
      rw [List.flatMap_cons, Fragment.joined_append, ih]
      simp [text]

end TreeNode

structure OpenElement where
  first : Fragment
  children : List TreeNode

namespace OpenElement

def fragments (element : OpenElement) : List Fragment :=
  element.first :: element.children.flatMap TreeNode.fragments

def childText (tag : String) (element : OpenElement) : String :=
  String.join ((element.children.filter (TreeNode.isElement tag)).map TreeNode.text)

end OpenElement

structure Outline where
  /-- What is finished outside of all open elements. -/
  finished : List TreeNode
  /-- The open elements, the innermost first. -/
  opened : List OpenElement

namespace Outline

def empty : Outline :=
  { finished := [], opened := [] }

def add (node : TreeNode) : Outline → Outline
  | ⟨finished, []⟩ => ⟨finished ++ [node], []⟩
  | ⟨finished, element :: outer⟩ =>
      ⟨finished, { element with children := element.children ++ [node] } :: outer⟩

/-- The outline after one more fragment. There is none if an end tag does not belong
to the innermost open element. -/
def next? (outline : Outline) (fragment : Fragment) : Option Outline :=
  if fragment.opens then some { outline with opened := ⟨fragment, []⟩ :: outline.opened }
  else if fragment.closes then
    match outline.opened with
    | [] => none
    | element :: outer =>
        if element.first.xmlTag = fragment.xmlTag then
          some (add (.element element.first element.children fragment)
            { outline with opened := outer })
        else none
  else some (outline.add (.single fragment))

def after? (outline : Outline) : List Fragment → Option Outline
  | [] => some outline
  | fragment :: rest => (outline.next? fragment).bind fun next => next.after? rest

/-- The start tags of the open elements, the innermost first. -/
def path (outline : Outline) : List Fragment :=
  outline.opened.map OpenElement.first

def fragments (outline : Outline) : List Fragment :=
  outline.finished.flatMap TreeNode.fragments ++
    outline.opened.reverse.flatMap OpenElement.fragments

end Outline

/-- The condition holds of each fragment in the outline it comes to. -/
def Outline.Along (condition : Outline → Fragment → Prop) (outline : Outline) :
    List Fragment → Prop
  | [] => True
  | fragment :: rest =>
      condition outline fragment ∧
        ∀ next ∈ outline.next? fragment, next.Along condition rest

instance Outline.decidableAlong (condition : Outline → Fragment → Prop)
    [∀ outline fragment, Decidable (condition outline fragment)] (outline : Outline) :
    (fragments : List Fragment) → Decidable (outline.Along condition fragments)
  | [] => isTrue trivial
  | _ :: rest =>
      have (next : Outline) := Outline.decidableAlong condition next rest
      inferInstanceAs (Decidable (_ ∧ _))

def outline? (fragments : List Fragment) : Option Outline :=
  Outline.empty.after? fragments

def Nested (fragments : List Fragment) : Prop :=
  ∃ nodes, outline? fragments = some ⟨nodes, []⟩

instance (fragments : List Fragment) : Decidable (Nested fragments) :=
  decidable_of_iff ((outline? fragments).any fun outline => outline.opened.isEmpty) <| by
    rw [Option.any_eq_true]
    constructor
    · rintro ⟨⟨nodes, opened⟩, reached, finished⟩
      rw [List.isEmpty_iff] at finished
      subst finished
      exact ⟨nodes, reached⟩
    · rintro ⟨nodes, reached⟩
      exact ⟨_, reached, rfl⟩

namespace Outline

variable {outline next : Outline} {fragment : Fragment} {first second : List Fragment}

theorem after?_append :
    outline.after? (first ++ second) =
      (outline.after? first).bind fun next => next.after? second := by
  induction first generalizing outline with
  | nil => rfl
  | cons fragment rest ih =>
      simp only [List.cons_append, after?, Option.bind_assoc]
      congr 1
      funext next
      exact ih

theorem after?_singleton : outline.after? [fragment] = outline.next? fragment := by
  simp [after?]

theorem outline?_append :
    outline? (first ++ second) = (outline? first).bind fun next => next.after? second :=
  after?_append

theorem along_append {condition : Outline → Fragment → Prop} :
    outline.Along condition (first ++ second) ↔
      outline.Along condition first ∧
        ∀ next ∈ outline.after? first, next.Along condition second := by
  induction first generalizing outline with
  | nil => simp [Along, after?]
  | cons fragment rest ih =>
      simp only [List.cons_append, Along, ih, after?, Option.mem_def, Option.bind_eq_some_iff]
      constructor
      · rintro ⟨here, later⟩
        refine ⟨⟨here, fun next step => (later next step).1⟩, ?_⟩
        rintro final ⟨next, step, reached⟩
        exact (later next step).2 final reached
      · rintro ⟨⟨here, within⟩, later⟩
        exact ⟨here, fun next step =>
          ⟨within next step, fun final reached => later final ⟨next, step, reached⟩⟩⟩

/-- What one fragment does: it opens an element, closes the innermost one, or is a
node by itself. -/
theorem next?_cases (step : outline.next? fragment = some next) :
    (fragment.opens = true ∧
      next = { outline with opened := ⟨fragment, []⟩ :: outline.opened }) ∨
    (fragment.closes = true ∧ ∃ element outer, outline.opened = element :: outer ∧
      element.first.xmlTag = fragment.xmlTag ∧
      next = add (.element element.first element.children fragment)
        { outline with opened := outer }) ∨
    (fragment.opens = false ∧ fragment.closes = false ∧
      next = outline.add (.single fragment)) := by
  unfold next? at step
  split at step
  · rename_i start
    exact .inl ⟨start, (Option.some.inj step).symm⟩
  · rename_i noStart
    split at step
    · rename_i closing
      cases elements : outline.opened with
      | nil => simp [elements] at step
      | cons element outer =>
          simp only [elements] at step
          split at step
          · rename_i same
            exact .inr (.inl ⟨closing, element, outer, rfl, same, (Option.some.inj step).symm⟩)
          · contradiction
    · rename_i noEnd
      exact .inr (.inr ⟨by simpa using noStart, by simpa using noEnd,
        (Option.some.inj step).symm⟩)

@[simp] theorem path_add (node : TreeNode) : (outline.add node).path = outline.path := by
  obtain ⟨finished, opened⟩ := outline
  cases opened <;> rfl

theorem path_next (step : outline.next? fragment = some next) :
    (fragment.opens = true ∧ next.path = fragment :: outline.path) ∨
    (fragment.closes = true ∧ ∃ first, outline.path = first :: next.path ∧
      first.xmlTag = fragment.xmlTag) ∨
    (fragment.opens = false ∧ fragment.closes = false ∧ next.path = outline.path) := by
  rcases next?_cases step with
    ⟨start, rfl⟩ | ⟨closing, element, outer, elements, same, rfl⟩ | ⟨noStart, noEnd, rfl⟩
  · exact .inl ⟨start, rfl⟩
  · refine .inr (.inl ⟨closing, element.first, ?_, same⟩)
    rw [path_add]
    simp [path, elements]
  · exact .inr (.inr ⟨noStart, noEnd, path_add _⟩)

theorem fragments_add (node : TreeNode) :
    (outline.add node).fragments = outline.fragments ++ node.fragments := by
  obtain ⟨finished, opened⟩ := outline
  cases opened with
  | nil => simp [add, fragments]
  | cons element outer => simp [add, fragments, OpenElement.fragments]

theorem mem_fragments_of_child {element : OpenElement} {child : TreeNode}
    (member : element ∈ outline.opened) (inside : child ∈ element.children)
    (within : fragment ∈ child.fragments) : fragment ∈ outline.fragments := by
  have inElement : fragment ∈ element.fragments :=
    List.mem_cons_of_mem _ (List.mem_flatMap.mpr ⟨child, inside, within⟩)
  exact List.mem_append_right _
    (List.mem_flatMap.mpr ⟨element, List.mem_reverse.mpr member, inElement⟩)

/-- An outline holds exactly the fragments seen, in their order. -/
theorem fragments_next (step : outline.next? fragment = some next) :
    next.fragments = outline.fragments ++ [fragment] := by
  rcases next?_cases step with ⟨_, rfl⟩ | ⟨_, element, outer, elements, _, rfl⟩ | ⟨_, _, rfl⟩
  · simp [fragments, OpenElement.fragments]
  · rw [fragments_add]
    simp [fragments, elements, OpenElement.fragments]
  · rw [fragments_add]
    simp

theorem fragments_after (reached : outline.after? first = some next) :
    next.fragments = outline.fragments ++ first := by
  induction first generalizing outline with
  | nil =>
      cases reached
      simp
  | cons fragment rest ih =>
      simp only [after?, Option.bind_eq_some_iff] at reached
      obtain ⟨middle, step, reached⟩ := reached
      rw [ih reached, fragments_next step]
      simp

end Outline

theorem Nested.outline_of_prefix {seen rest : List Fragment} (nested : Nested (seen ++ rest)) :
    ∃ outline, outline? seen = some outline := by
  obtain ⟨nodes, reached⟩ := nested
  rw [Outline.outline?_append, Option.bind_eq_some_iff] at reached
  obtain ⟨outline, reached, _⟩ := reached
  exact ⟨outline, reached⟩

theorem fragments_outline {fragments : List Fragment} {outline : Outline}
    (reached : outline? fragments = some outline) : outline.fragments = fragments := by
  simpa [Outline.empty, Outline.fragments] using Outline.fragments_after reached

/-! ### Nodes by themselves

A node is finished by its own fragments, whatever is open before it. So an outline
can be built again without the elements that were opened last. -/

/-- The fragments of the node add it to any outline. -/
def TreeNode.Balanced (node : TreeNode) : Prop :=
  ∀ outline : Outline, outline.after? node.fragments = some (outline.add node)

/-- The tags of the node are those of its form. -/
def TreeNode.Tagged : TreeNode → Prop
  | .single fragment => fragment.opens = false ∧ fragment.closes = false
  | .element first children last =>
      first.opens = true ∧ last.closes = true ∧ first.xmlTag = last.xmlTag ∧
        ∀ child ∈ children, child.Balanced

namespace Outline

variable {outline next : Outline} {fragment first last : Fragment} {nodes children : List TreeNode}
  {element : OpenElement} {outer : List OpenElement} {fragments : List Fragment}

theorem not_opens_of_closes (closing : fragment.closes = true) : fragment.opens = false := by
  simp only [Fragment.closes, Bool.and_eq_true, beq_iff_eq] at closing
  simp [Fragment.opens, closing.2]

theorem next?_of_opens (start : fragment.opens = true) :
    outline.next? fragment =
      some { outline with opened := ⟨fragment, []⟩ :: outline.opened } := by
  simp [next?, start]

theorem next?_of_closes (closing : fragment.closes = true)
    (same : element.first.xmlTag = fragment.xmlTag) :
    next? ⟨nodes, element :: outer⟩ fragment =
      some (add (.element element.first element.children fragment) ⟨nodes, outer⟩) := by
  simp [next?, not_opens_of_closes closing, closing, same]

theorem next?_of_single (noStart : fragment.opens = false) (noEnd : fragment.closes = false) :
    outline.next? fragment = some (outline.add (.single fragment)) := by
  simp [next?, noStart, noEnd]

theorem next?_of_unnamed (unnamed : fragment.xmlTag = none) :
    outline.next? fragment = some (outline.add (.single fragment)) :=
  next?_of_single (by simp [Fragment.opens, unnamed]) (by simp [Fragment.closes, unnamed])

theorem opened_add (node : TreeNode) (opened : outline.opened = element :: outer) :
    (outline.add node).opened =
      { element with children := element.children ++ [node] } :: outer := by
  obtain ⟨finished, elements⟩ := outline
  subst opened
  rfl

theorem after?_children (balanced : ∀ node ∈ children, node.Balanced) :
    after? ⟨nodes, element :: outer⟩ (children.flatMap TreeNode.fragments) =
      some ⟨nodes, { element with children := element.children ++ children } :: outer⟩ := by
  induction children generalizing element with
  | nil => simp [after?]
  | cons child rest ih =>
      have head := balanced child (by simp)
      rw [List.flatMap_cons, after?_append, head, Option.bind_some]
      rw [add, ih (fun node member => balanced node (by simp [member]))]
      simp

theorem after?_finished (balanced : ∀ node ∈ children, node.Balanced) :
    after? ⟨nodes, []⟩ (children.flatMap TreeNode.fragments) = some ⟨nodes ++ children, []⟩ := by
  induction children generalizing nodes with
  | nil => simp [after?]
  | cons child rest ih =>
      have head := balanced child (by simp)
      rw [List.flatMap_cons, after?_append, head, Option.bind_some]
      rw [add, ih (fun node member => balanced node (by simp [member]))]
      simp

theorem balanced_of_tagged {node : TreeNode} (tagged : node.Tagged) : node.Balanced := by
  intro outline
  cases node with
  | single fragment =>
      obtain ⟨noStart, noEnd⟩ := tagged
      rw [TreeNode.fragments_single, after?_singleton, next?_of_single noStart noEnd]
  | element first children last =>
      obtain ⟨start, closing, same, balanced⟩ := tagged
      obtain ⟨nodes, opened⟩ := outline
      rw [TreeNode.fragments_element, after?, next?_of_opens start, Option.bind_some, after?_append,
        after?_children balanced, Option.bind_some, after?_singleton]
      exact next?_of_closes closing same

structure Sound (outline : Outline) : Prop where
  finished : ∀ node ∈ outline.finished, node.Tagged
  opens : ∀ element ∈ outline.opened, element.first.opens = true
  children : ∀ element ∈ outline.opened, ∀ child ∈ element.children, child.Tagged

theorem Sound.withoutInnermost (sound : Sound ⟨nodes, element :: outer⟩) :
    Sound ⟨nodes, outer⟩ where
  finished := sound.finished
  opens other member := sound.opens other (by simp [member])
  children other member := sound.children other (by simp [member])

theorem Sound.add {node : TreeNode} (sound : Sound outline) (tagged : node.Tagged) :
    Sound (outline.add node) := by
  obtain ⟨nodes, opened⟩ := outline
  cases opened with
  | nil =>
      refine ⟨?_, by simp [Outline.add], by simp [Outline.add]⟩
      intro other member
      rcases List.mem_append.mp member with member | member
      · exact sound.finished other member
      · rw [List.mem_singleton.mp member]
        exact tagged
  | cons element outer =>
      refine ⟨sound.finished, ?_, ?_⟩
      · intro other member
        rcases List.mem_cons.mp member with rfl | member
        · exact sound.opens element (by simp)
        · exact sound.opens other (by simp [member])
      · intro other member child within
        rcases List.mem_cons.mp member with rfl | member
        · rcases List.mem_append.mp within with within | within
          · exact sound.children element (by simp) child within
          · rw [List.mem_singleton.mp within]
            exact tagged
        · exact sound.children other (by simp [member]) child within

theorem Sound.step (sound : Sound outline) (step : outline.next? fragment = some next) :
    Sound next := by
  rcases next?_cases step with
    ⟨start, rfl⟩ | ⟨closing, element, outer, elements, same, rfl⟩ | ⟨noStart, noEnd, rfl⟩
  · refine ⟨sound.finished, ?_, ?_⟩ <;> intro element member <;>
      rcases List.mem_cons.mp member with rfl | member
    · exact start
    · exact sound.opens element member
    · simp
    · exact sound.children element member
  · obtain ⟨nodes, opened⟩ := outline
    subst elements
    have start := sound.opens element (by simp)
    have balanced := fun child member =>
      balanced_of_tagged (sound.children element (by simp) child member)
    exact sound.withoutInnermost.add ⟨start, closing, same, balanced⟩
  · exact sound.add ⟨noStart, noEnd⟩

theorem Sound.after (sound : Sound outline) (reached : outline.after? fragments = some next) :
    Sound next := by
  induction fragments generalizing outline with
  | nil =>
      cases reached
      exact sound
  | cons fragment rest ih =>
      simp only [after?, Option.bind_eq_some_iff] at reached
      obtain ⟨middle, step, reached⟩ := reached
      exact ih (sound.step step) reached

theorem sound_of_outline (reached : outline? fragments = some outline) : Sound outline :=
  Sound.after ⟨by simp [empty], by simp [empty], by simp [empty]⟩ reached

/-- Fragments that leave nothing open are those of the nodes they make. -/
theorem nodes_of_outline (reached : outline? fragments = some ⟨nodes, []⟩) :
    fragments = nodes.flatMap TreeNode.fragments ∧ ∀ node ∈ nodes, node.Balanced := by
  have sound := sound_of_outline reached
  have same := fragments_outline reached
  refine ⟨by simpa [Outline.fragments] using same.symm, ?_⟩
  intro node member
  exact balanced_of_tagged (sound.finished node member)

theorem outline?_of_tagged {node : TreeNode} (tagged : node.Tagged) :
    outline? node.fragments = some ⟨[node], []⟩ :=
  balanced_of_tagged tagged .empty

theorem outline?_flatMap (balanced : ∀ node ∈ nodes, node.Balanced) :
    outline? (nodes.flatMap TreeNode.fragments) = some ⟨nodes, []⟩ := by
  have built : after? ⟨[], []⟩ (nodes.flatMap TreeNode.fragments) = some ⟨[] ++ nodes, []⟩ :=
    after?_finished balanced
  exact built

/-- A sound outline is the one of its own fragments. -/
theorem Sound.outline?_fragments (sound : Sound outline) :
    outline? outline.fragments = some outline := by
  obtain ⟨nodes, opened⟩ := outline
  induction opened with
  | nil =>
      have balanced := fun node member => balanced_of_tagged (sound.finished node member)
      simpa [Outline.fragments] using outline?_flatMap balanced
  | cons element outer ih =>
      have before := ih sound.withoutInnermost
      have shape : Outline.fragments ⟨nodes, element :: outer⟩ =
          Outline.fragments ⟨nodes, outer⟩ ++ element.fragments := by
        simp [Outline.fragments]
      rw [shape, outline?, after?_append, ← outline?, before, Option.bind_some,
        OpenElement.fragments, after?, next?_of_opens (sound.opens element (by simp)),
        Option.bind_some,
        after?_children (fun child member =>
          balanced_of_tagged (sound.children element (by simp) child member))]
      simp

end Outline

end Stencil
