import Stencil.Proofs.Reading

namespace Stencil

/-- The names of the open elements after one more fragment, the innermost first. -/
def nextNames? (names : List (Option String)) (fragment : Fragment) :
    Option (List (Option String)) :=
  if fragment.opens then some (fragment.xmlTag :: names)
  else if fragment.closes then
    match names with
    | [] => none
    | name :: outer => if name = fragment.xmlTag then some outer else none
  else some names

def namesAfter? (names : List (Option String)) : List Fragment → Option (List (Option String))
  | [] => some names
  | fragment :: rest => (nextNames? names fragment).bind fun next => namesAfter? next rest

namespace Outline

def names (outline : Outline) : List (Option String) :=
  outline.path.map Fragment.xmlTag

variable {outline : Outline} {fragment : Fragment} {fragments : List Fragment}

theorem names_next? : (outline.next? fragment).map names = nextNames? outline.names fragment := by
  obtain ⟨finished, opened⟩ := outline
  unfold next? nextNames?
  split
  · simp [names, path]
  · split
    · cases opened with
      | nil => rfl
      | cons element outer =>
          simp only [names, path, List.map_cons]
          split
          · simp only [Option.map_some, Option.some.injEq]
            rw [names, path_add]
            rfl
          · rfl
    · simp [names]

theorem names_after? :
    (outline.after? fragments).map names = namesAfter? outline.names fragments := by
  induction fragments generalizing outline with
  | nil => rfl
  | cons fragment rest ih =>
      rw [after?, namesAfter?, ← names_next?]
      cases outline.next? fragment with
      | none => rfl
      | some next => exact ih

@[simp] theorem names_empty : empty.names = [] := rfl

theorem opened_of_names {inner parent : String}
    (names : outline.names.take 2 = [some inner, some parent]) :
    ∃ element next outer, outline.opened = element :: next :: outer ∧
      element.first.hasTag inner = true ∧ next.first.hasTag parent = true := by
  obtain ⟨finished, opened⟩ := outline
  match opened with
  | [] => simp [Outline.names, path] at names
  | [_] => simp [Outline.names, path] at names
  | element :: next :: outer =>
      simp only [Outline.names, path, List.map_cons, List.take_succ_cons, List.take_zero,
        List.cons.injEq, and_true] at names
      exact ⟨element, next, outer, rfl, Fragment.hasTag_iff.mpr names.1,
        Fragment.hasTag_iff.mpr names.2⟩

end Outline

/-- Fragments nest if no name is left open after them. -/
theorem nested_iff_names {fragments : List Fragment} :
    Nested fragments ↔ namesAfter? [] fragments = some [] := by
  rw [← Outline.names_empty, ← Outline.names_after?, Option.map_eq_some_iff, Outline.names_empty]
  constructor
  · rintro ⟨nodes, reached⟩
    exact ⟨⟨nodes, []⟩, reached, rfl⟩
  · rintro ⟨⟨nodes, opened⟩, reached, none⟩
    simp only [Outline.names, Outline.path, List.map_map, List.map_eq_nil_iff] at none
    subst none
    exact ⟨nodes, reached⟩

section

variable {names : List (Option String)} {fragment : Fragment}
  {first second tokens : List Fragment} {text : String}

theorem namesAfter?_append :
    namesAfter? names (first ++ second) =
      (namesAfter? names first).bind fun next => namesAfter? next second := by
  induction first generalizing names with
  | nil => rfl
  | cons fragment rest ih =>
      simp only [List.cons_append, namesAfter?, Option.bind_assoc]
      congr 1
      funext next
      exact ih

theorem namesAfter?_singleton : namesAfter? names [fragment] = nextNames? names fragment := by
  simp [namesAfter?]

theorem nextNames?_congr {other : Fragment} (name : fragment.xmlTag = other.xmlTag)
    (position : fragment.tagPosition = other.tagPosition) :
    nextNames? names fragment = nextNames? names other := by
  unfold nextNames? Fragment.opens Fragment.closes
  rw [name, position]

theorem namesAfter?_plain (chars : List Char) :
    namesAfter? names (chars.map fun c => .content 0 (String.singleton c)) = some names := by
  induction chars with
  | nil => rfl
  | cons c rest ih =>
      rw [List.map_cons, namesAfter?]
      simpa [nextNames?, Fragment.opens, Fragment.closes, Fragment.content] using ih

end

namespace Fragment

/-- A tag's text is that tag and no other, and text outside of tags has no angle
brackets. Only tags have element names. -/
def Reads (fragment : Fragment) : Prop :=
  match fragment.kind, fragment.xmlTag with
  | .tag, some name =>
      fragment.tagPosition ≠ .none ∧
        Markup.read? fragment.text = some [.tag 0 name fragment.tagPosition fragment.text]
  | .content, none => Markup.Plain fragment.text
  | .placeholder, none => True
  | _, _ => False

instance (fragment : Fragment) : Decidable fragment.Reads := by
  unfold Reads
  split <;> infer_instance

variable {fragment : Fragment} {fragments : List Fragment} {name : String}

theorem Reads.of_tag (reads : fragment.Reads) (named : fragment.xmlTag = some name) :
    fragment.isPlaceholder = false ∧ fragment.tagPosition ≠ .none ∧
      Markup.read? fragment.text = some [.tag 0 name fragment.tagPosition fragment.text] := by
  unfold Reads at reads
  cases kind : fragment.kind with
  | tag =>
      simp only [kind, named] at reads
      exact ⟨by simp [isPlaceholder, kind], reads⟩
  | content => simp [kind, named] at reads
  | placeholder => simp [kind, named] at reads

theorem Reads.of_placeholder (reads : fragment.Reads)
    (placeholder : fragment.isPlaceholder = true) : fragment.xmlTag = none := by
  cases named : fragment.xmlTag with
  | none => rfl
  | some name =>
      rw [(reads.of_tag named).1] at placeholder
      contradiction

/-- A tag that neither opens nor closes is an element by itself. -/
theorem Reads.selfClosing (reads : fragment.Reads) (named : fragment.hasTag name = true)
    (noStart : fragment.opens = false) (noEnd : fragment.closes = false) :
    fragment.tagPosition = .selfClosing := by
  rw [hasTag_iff] at named
  have position := (reads.of_tag named).2.1
  simp only [opens, closes, named, Option.isSome_some, Bool.true_and, beq_eq_false_iff_ne]
    at noStart noEnd
  cases placed : fragment.tagPosition with
  | start => exact absurd placed noStart
  | «end» => exact absurd placed noEnd
  | none => exact absurd placed position
  | selfClosing => rfl

/-- What is read of a fragment opens and closes the elements that the fragment does. -/
theorem Reads.tokens (reads : fragment.Reads) (other : fragment.isPlaceholder = false) :
    ∃ tokens, Markup.read? fragment.text = some tokens ∧
      ∀ names, namesAfter? names tokens = nextNames? names fragment := by
  cases named : fragment.xmlTag with
  | some name =>
      refine ⟨_, (reads.of_tag named).2.2, ?_⟩
      intro names
      rw [namesAfter?_singleton]
      exact nextNames?_congr named.symm rfl
  | none =>
      unfold Reads at reads
      cases kind : fragment.kind with
      | tag => simp [kind, named] at reads
      | placeholder => simp [isPlaceholder, kind] at other
      | content =>
          simp only [kind, named] at reads
          refine ⟨_, Markup.read?_of_plain reads, ?_⟩
          intro names
          rw [namesAfter?_plain]
          simp [nextNames?, opens, closes, named]

theorem Reads.tokens_joined
    (reads : ∀ fragment ∈ fragments, fragment.Reads ∧ fragment.isPlaceholder = false) :
    ∃ tokens, Markup.read? (joined fragments) = some tokens ∧
      ∀ names, namesAfter? names tokens = namesAfter? names fragments := by
  induction fragments with
  | nil => exact ⟨[], rfl, fun names => rfl⟩
  | cons fragment rest ih =>
      obtain ⟨first, firstRead, firstNames⟩ :=
        (reads fragment (by simp)).1.tokens (reads fragment (by simp)).2
      obtain ⟨later, laterRead, laterNames⟩ :=
        ih (fun other member => reads other (by simp [member]))
      refine ⟨first ++ later, ?_, ?_⟩
      · rw [joined_cons]
        exact Markup.read?_append firstRead laterRead
      · intro names
        rw [namesAfter?_append, firstNames, namesAfter?]
        simp only [laterNames]

theorem Reads.nested
    (reads : ∀ fragment ∈ fragments, fragment.Reads ∧ fragment.isPlaceholder = false)
    (nested : Nested fragments) :
    ∃ tokens, Markup.read? (joined fragments) = some tokens ∧ Nested tokens := by
  obtain ⟨tokens, read, names⟩ := Reads.tokens_joined reads
  rw [nested_iff_names] at nested
  exact ⟨tokens, read, nested_iff_names.mpr (by rw [names, nested])⟩

end Fragment

namespace TreeNode

variable {node : TreeNode} {tag : String}

theorem no_placeholder (tagged : node.Tagged) (named : node.isElement tag = true)
    (reads : ∀ fragment ∈ node.fragments, fragment.Reads)
    (inner : ∀ fragment ∈ node.inner, fragment.isPlaceholder = false) :
    ∀ fragment ∈ node.fragments, fragment.isPlaceholder = false := by
  have ofTag {fragment : Fragment} (member : fragment ∈ node.fragments)
      (named : fragment.xmlTag = some tag) : fragment.isPlaceholder = false :=
    ((reads fragment member).of_tag named).1
  cases node with
  | single fragment =>
      simp only [isElement, Bool.and_eq_true] at named
      simpa using ofTag (by simp) (Fragment.hasTag_iff.mp named.1)
  | element first children last =>
      obtain ⟨_, _, same, _⟩ := tagged
      have opening : first.xmlTag = some tag := Fragment.hasTag_iff.mp named
      intro fragment member
      rcases mem_element.mp member with rfl | within | rfl
      · exact ofTag member opening
      · exact inner fragment within
      · exact ofTag member (same ▸ opening)

/-- An element that is read back is that element again, with the same text. -/
theorem read_element (tagged : node.Tagged) (isElement : node.isElement tag = true)
    (reads : ∀ fragment ∈ node.fragments, fragment.Reads ∧ fragment.isPlaceholder = false) :
    ∃ tokens same, Markup.read? node.text = some tokens ∧
      outline? tokens = some ⟨[same], []⟩ ∧ same.isElement tag = true ∧ same.text = node.text := by
  cases node with
  | single fragment =>
      simp only [TreeNode.isElement, Bool.and_eq_true, beq_iff_eq] at isElement
      obtain ⟨named, position⟩ := isElement
      have read := ((reads fragment (by simp)).1.of_tag (Fragment.hasTag_iff.mp named)).2.2
      rw [position] at read
      let same := Fragment.tag 0 tag .selfClosing fragment.text
      refine ⟨[same], .single same, ?_, rfl, ?_, ?_⟩
      · simpa [text, Fragment.joined_nil] using read
      · simp [same, TreeNode.isElement, Fragment.hasTag, Fragment.tag]
      · simp [same, text, Fragment.tag]
  | element first children last =>
      obtain ⟨start, closing, same, balanced⟩ := tagged
      have named : first.xmlTag = some tag := Fragment.hasTag_iff.mp isElement
      simp only [Fragment.opens, Fragment.closes, Bool.and_eq_true, beq_iff_eq] at start closing
      have firstRead := ((reads first (by simp)).1.of_tag named).2.2
      have lastRead := ((reads last (by simp)).1.of_tag (same ▸ named)).2.2
      rw [start.2] at firstRead
      rw [closing.2] at lastRead
      have written := fun fragment within => reads fragment (mem_element.mpr (.inr (.inl within)))
      obtain ⟨tokens, innerRead, nodes, innerOutline⟩ :=
        Fragment.Reads.nested written ⟨children, Outline.outline?_flatMap balanced⟩
      obtain ⟨rfl, balanced⟩ := Outline.nodes_of_outline innerOutline
      let same : TreeNode := .element (.tag 0 tag .start first.text) nodes
        (.tag 0 tag .end last.text)
      have read := Markup.read?_append firstRead (Markup.read?_append innerRead lastRead)
      have text : (element first children last).text =
          first.text ++ (Fragment.joined (children.flatMap fragments) ++ last.text) := by
        simp [TreeNode.text, Fragment.joined_nil]
      have rebuilt : outline? same.fragments = some ⟨[same], []⟩ :=
        Outline.outline?_of_tagged ⟨rfl, rfl, rfl, balanced⟩
      refine ⟨same.fragments, same, ?_, rebuilt, ?_, ?_⟩
      · rw [text, read, fragments_element]
        rfl
      · simp [same, TreeNode.isElement, Fragment.hasTag, Fragment.tag]
      · rw [text, ← Markup.joined_of_read? innerRead]
        simp [same, TreeNode.text, Fragment.tag, Fragment.joined_nil]

end TreeNode

end Stencil
