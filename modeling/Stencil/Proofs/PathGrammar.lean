import Stencil.Path.Basic
import Stencil.Proofs.Splitting

namespace Stencil

/-! The texts that are expressions. White space around one does not count, a single dot is
one, and all others are names with dots between them. A name has at least one character, and
none of its characters is a dot or white space, so an expression is read in one way only. Of
any other text the leftmost piece between dots that is no name is reported. -/

namespace Text

namespace CodeRanges

/-- Ranges that lie apart have no character in common. -/
theorem not_contains_of_apart {first second : CodeRanges} {c : Char}
    (apart : ∀ left ∈ first, ∀ right ∈ second, left.2 < right.1 ∨ right.2 < left.1)
    (inside : first.contains c = true) : second.contains c = false := by
  rw [← Bool.not_eq_true]
  intro other
  obtain ⟨left, listed, low, high⟩ := contains_iff.mp inside
  obtain ⟨right, otherListed, otherLow, otherHigh⟩ := contains_iff.mp other
  have separated := apart left listed right otherListed
  omega

end CodeRanges

theorem not_isBlank_of_isAlphanumeric {c : Char} (letter : isAlphanumeric c = true) :
    isBlank c = false :=
  CodeRanges.not_contains_of_apart (by decide +kernel) letter

theorem dropWhile_isBlank {blanks rest : List Char} (blank : ∀ c ∈ blanks, isBlank c = true)
    (begins : ∀ c ∈ rest.head?, isBlank c = false) :
    (blanks ++ rest).dropWhile isBlank = rest := by
  rw [List.dropWhile_append_of_pos blank]
  cases rest with
  | nil => rfl
  | cons first rest =>
      have stays : isBlank first = false := begins first rfl
      simp [stays]

/-- White space around a text that neither begins nor ends with any is all that trimming
removes. -/
theorem trim_padded {before middle behind : List Char} (present : middle ≠ [])
    (blankBefore : ∀ c ∈ before, isBlank c = true) (blankBehind : ∀ c ∈ behind, isBlank c = true)
    (begins : ∀ c ∈ middle.head?, isBlank c = false)
    (ends : ∀ c ∈ middle.getLast?, isBlank c = false) :
    trim (before ++ middle ++ behind) = middle := by
  have start : (middle ++ behind).head? = middle.head? := by
    obtain ⟨first, rest, rfl⟩ := List.exists_cons_of_ne_nil present
    rfl
  have backward : ∀ c ∈ behind.reverse, isBlank c = true := by simpa using blankBehind
  rw [trim, List.append_assoc, dropWhile_isBlank blankBefore (by rwa [start]),
    List.reverse_append, dropWhile_isBlank backward (by rwa [List.head?_reverse]),
    List.reverse_reverse]

end Text

namespace Path

/-- A name in an expression: letters, digits, underscores, dollar signs and hyphens. -/
def IsName (name : String) : Prop :=
  name ≠ "" ∧ ∀ c ∈ name.toList, isNameChar c = true

/-- The path has a written form. -/
def WellFormed : Path → Prop
  | .current => True
  | .segments names => names ≠ [] ∧ ∀ name ∈ names, IsName name

/-- The fault is in the leftmost piece between the dots that is no name: it has no character,
or the fault names its first character that is in no name. -/
def Fault.IsLeftmost (expression : String) (fault : Fault) : Prop :=
  ∃ before bad behind, ".".intercalate (before ++ bad :: behind) = expression ∧
    (∀ piece ∈ before ++ bad :: behind, '.' ∉ piece.toList) ∧
    (∀ name ∈ before, IsName name) ∧
    ((bad = "" ∧ fault = .emptySegment expression) ∨
      ∃ start c rest, bad.toList = start ++ c :: rest ∧
        (∀ d ∈ start, isNameChar d = true) ∧ isNameChar c = false ∧
        fault = .unexpectedCharacter c expression)

/-- What the characters of a text are read as, if there is no white space around them. -/
inductive ReadsAs (chars : List Char) : Except Fault Path → Prop where
  | current (dot : chars = ['.']) : ReadsAs chars (.ok .current)
  | empty (nothing : chars = []) : ReadsAs chars (.error .emptyExpression)
  | names (areNames : ∀ piece ∈ chars.splitOn '.', IsName (String.ofList piece)) :
      ReadsAs chars (.ok (.segments ((chars.splitOn '.').map String.ofList)))
  | faulty {before behind : List (List Char)} {bad : List Char} {fault : Fault}
      (parts : chars.splitOn '.' = before ++ bad :: behind)
      (areNames : ∀ piece ∈ before, IsName (String.ofList piece))
      (reported : segmentFault? (String.ofList chars) bad = some fault) :
      ReadsAs chars (.error fault)

variable {c : Char} {name : String} {names : List String} {fault : Fault}

theorem dot_is_no_nameChar : isNameChar '.' = false := by
  decide +kernel

theorem not_isBlank_of_isNameChar (inName : isNameChar c = true) : Text.isBlank c = false := by
  simp only [isNameChar, Bool.or_eq_true, beq_iff_eq] at inName
  rcases inName with ((letter | same) | same) | same
  · exact Text.not_isBlank_of_isAlphanumeric letter
  · subst same; decide
  · subst same; decide
  · subst same; decide

theorem IsName.no_dot (isName : IsName name) : '.' ∉ name.toList := by
  intro member
  have inName := isName.2 '.' member
  rw [dot_is_no_nameChar] at inName
  contradiction

theorem segmentFault?_eq_none_iff {expression : String} {chars : List Char} :
    segmentFault? expression chars = none ↔ IsName (String.ofList chars) := by
  cases chars with
  | nil => simp [segmentFault?, IsName]
  | cons first rest => simp [segmentFault?, IsName]

theorem segmentFault?_eq_some_iff {expression : String} {chars : List Char} :
    segmentFault? expression chars = some fault ↔
      (chars = [] ∧ fault = .emptySegment expression) ∨
        ∃ start c rest, chars = start ++ c :: rest ∧ (∀ d ∈ start, isNameChar d = true) ∧
          isNameChar c = false ∧ fault = .unexpectedCharacter c expression := by
  cases chars with
  | nil =>
      have noName : segmentFault? expression [] = some (.emptySegment expression) := rfl
      rw [noName, Option.some.injEq, eq_comm]
      simp
  | cons first others =>
      have searched : segmentFault? expression (first :: others) =
          ((first :: others).find? fun c => !isNameChar c).map
            fun c => .unexpectedCharacter c expression := rfl
      rw [searched, Option.map_eq_some_iff]
      constructor
      · intro reported
        obtain ⟨c, found, same⟩ := reported
        obtain ⟨outside, start, rest, parts, before⟩ := List.find?_eq_some_iff_append.mp found
        exact .inr ⟨start, c, rest, parts, by simpa using before, by simpa using outside,
          same.symm⟩
      · intro described
        obtain ⟨empty, _⟩ | ⟨start, c, rest, parts, before, outside, same⟩ := described
        · contradiction
        · refine ⟨c, List.find?_eq_some_iff_append.mpr ?_, same.symm⟩
          exact ⟨by simp [outside], start, rest, parts, by simpa using before⟩

theorem parse_readsAs (source : String) :
    ReadsAs (Text.trim source.toList) (parse source) := by
  simp only [parse]
  split
  · rename_i dot
    exact .current dot
  · split
    · rename_i nothing
      exact .empty nothing
    · split
      · rename_i fault found
        obtain ⟨before, bad, behind, parts, reported, areNames⟩ :=
          List.findSome?_eq_some_iff.mp found
        exact .faulty parts
          (fun piece member => segmentFault?_eq_none_iff.mp (areNames piece member)) reported
      · rename_i sound
        rw [List.findSome?_eq_none_iff] at sound
        exact .names fun piece member => segmentFault?_eq_none_iff.mp (sound piece member)

theorem toList_text (names : List String) :
    (text (.segments names)).toList = ['.'].intercalate (names.map String.toList) :=
  String.toList_intercalate

theorem splitOn_text (wellFormed : (segments names).WellFormed) :
    (text (.segments names)).toList.splitOn '.' = names.map String.toList := by
  rw [toList_text]
  refine List.splitOn_intercalate '.' ?_ (by simpa using wellFormed.1)
  intro piece member
  obtain ⟨name, listed, same⟩ := List.mem_map.mp member
  rw [← same]
  exact (wellFormed.2 name listed).no_dot

theorem text_ofList_splitOn (chars : List Char) :
    text (.segments ((chars.splitOn '.').map String.ofList)) = String.ofList chars := by
  apply String.toList_injective
  rw [toList_text, List.map_map]
  simp [Function.comp_def]

theorem nil_not_mem_names (wellFormed : (segments names).WellFormed) :
    [] ∉ names.map String.toList := by
  intro member
  obtain ⟨name, listed, empty⟩ := List.mem_map.mp member
  exact (wellFormed.2 name listed).1 (String.toList_injective empty)

variable {path : Path}

theorem text_not_blank (wellFormed : path.WellFormed) :
    ∀ c ∈ path.text.toList, Text.isBlank c = false := by
  cases path with
  | current =>
      intro c member
      have dot : c = '.' := by simpa [text] using member
      rw [dot]
      decide
  | segments names =>
      have blankFree : (['.'].intercalate (names.map String.toList)).any Text.isBlank = false := by
        rw [any_intercalate Text.isBlank ['.'] (by decide), List.any_eq_false]
        intro piece member
        obtain ⟨name, listed, same⟩ := List.mem_map.mp member
        rw [← same, Bool.not_eq_true, List.any_eq_false]
        intro c within
        rw [not_isBlank_of_isNameChar ((wellFormed.2 name listed).2 c within)]
        decide
      intro c member
      rw [toList_text] at member
      simpa using List.any_eq_false.mp blankFree c member

theorem text_ne_nil (wellFormed : path.WellFormed) : path.text.toList ≠ [] := by
  cases path with
  | current => decide
  | segments names =>
      intro empty
      have pieces := splitOn_text wellFormed
      rw [empty, List.splitOn_nil] at pieces
      exact nil_not_mem_names wellFormed (by simp [← pieces])

/-- The written form of names is read as them: none of their characters is a dot, and they
are not empty as the pieces of a single dot are. -/
theorem parse_of_text {source : String} (wellFormed : (segments names).WellFormed)
    (written : Text.trim source.toList = (text (.segments names)).toList) :
    parse source = .ok (.segments names) := by
  have pieces : (Text.trim source.toList).splitOn '.' = names.map String.toList := by
    rw [written, splitOn_text wellFormed]
  have noneEmpty := nil_not_mem_names wellFormed
  have reads := parse_readsAs source
  generalize parse source = result at reads ⊢
  cases reads with
  | current dot =>
      rw [dot] at pieces
      exact absurd (by rw [← pieces]; decide) noneEmpty
  | empty nothing =>
      rw [nothing] at pieces
      exact absurd (by rw [← pieces]; decide) noneEmpty
  | names areNames =>
      rw [pieces, List.map_map]
      simp [Function.comp_def]
  | @faulty before behind bad fault parts areNames reported =>
      have listed : bad ∈ names.map String.toList := by simp [← pieces, parts]
      obtain ⟨name, member, same⟩ := List.mem_map.mp listed
      have isName : IsName (String.ofList bad) := by
        rw [← same, String.ofList_toList]
        exact wellFormed.2 name member
      rw [segmentFault?_eq_none_iff.mpr isName] at reported
      contradiction

/-- A text is an expression if and only if it is the written form of a path, but for white
space around it. -/
theorem parse_eq_ok_iff (source : String) (path : Path) :
    parse source = .ok path ↔
      path.WellFormed ∧ String.ofList (Text.trim source.toList) = path.text := by
  constructor
  · intro accepted
    have reads := parse_readsAs source
    rw [accepted] at reads
    cases reads with
    | current dot => exact ⟨trivial, by rw [dot]; rfl⟩
    | names areNames =>
        refine ⟨⟨by simp, ?_⟩, (text_ofList_splitOn _).symm⟩
        intro name member
        obtain ⟨piece, listed, same⟩ := List.mem_map.mp member
        rw [← same]
        exact areNames piece listed
  · intro written
    obtain ⟨wellFormed, same⟩ := written
    have chars : Text.trim source.toList = path.text.toList := by
      rw [← same, String.toList_ofList]
    cases path with
    | current => exact if_pos chars
    | segments names => exact parse_of_text wellFormed chars

theorem parse_padded (wellFormed : path.WellFormed) {before behind : String}
    (blankBefore : ∀ c ∈ before.toList, Text.isBlank c = true)
    (blankBehind : ∀ c ∈ behind.toList, Text.isBlank c = true) :
    parse (before ++ path.text ++ behind) = .ok path := by
  have unblank := text_not_blank wellFormed
  have trimmed : Text.trim (before ++ path.text ++ behind).toList = path.text.toList := by
    rw [String.toList_append, String.toList_append]
    exact Text.trim_padded (text_ne_nil wellFormed) blankBefore blankBehind
      (fun c first => unblank c (List.mem_of_mem_head? first))
      (fun c last => unblank c (List.mem_of_mem_getLast? last))
  rw [parse_eq_ok_iff, trimmed, String.ofList_toList]
  exact ⟨wellFormed, rfl⟩

/-- A text that is no expression is reported as empty, or by its leftmost piece that is no
name. -/
theorem fault_of_parse {source : String} (refused : parse source = .error fault) :
    if Text.trim source.toList = [] then fault = .emptyExpression
    else fault.IsLeftmost (String.ofList (Text.trim source.toList)) := by
  have reads := parse_readsAs source
  rw [refused] at reads
  cases reads with
  | empty nothing => rw [if_pos nothing]
  | @faulty before behind bad _ parts areNames reported =>
      split
      · rename_i nothing
        rw [parse, nothing] at refused
        exact (Except.error.inj refused).symm
      · have joined := text_ofList_splitOn (Text.trim source.toList)
        rw [parts, List.map_append, List.map_cons] at joined
        refine ⟨before.map String.ofList, String.ofList bad, behind.map String.ofList, joined,
          ?undotted, ?sound, ?described⟩
        case undotted =>
          rw [← List.map_cons, ← List.map_append, ← parts]
          intro piece member
          obtain ⟨chars, listed, same⟩ := List.mem_map.mp member
          rw [← same, String.toList_ofList]
          exact Text.not_mem_of_mem_splitOn listed
        case sound =>
          intro name member
          obtain ⟨chars, listed, same⟩ := List.mem_map.mp member
          rw [← same]
          exact areNames chars listed
        case described =>
          rw [String.toList_ofList]
          rcases segmentFault?_eq_some_iff.mp reported with ⟨empty, same⟩ | unexpected
          · exact .inl ⟨by rw [empty], same⟩
          · exact .inr unexpected

/-- The expressions are the written forms of paths with white space around them. Each is read
as the path it was written from, and any other text is refused: an empty one as such, and
else by its leftmost piece that is no name. -/
theorem parse_exact (source : String) :
    let expression := String.ofList (Text.trim source.toList)
    (∀ path : Path, parse source = .ok path ↔ path.WellFormed ∧ expression = path.text) ∧
    (∀ (path : Path) (before behind : String), path.WellFormed →
      (∀ c ∈ before.toList, Text.isBlank c = true) →
      (∀ c ∈ behind.toList, Text.isBlank c = true) →
      parse (before ++ path.text ++ behind) = .ok path) ∧
    ((∀ path : Path, path.WellFormed → expression ≠ path.text) →
      ∃ fault, parse source = .error fault ∧
        if expression = "" then
          fault = .emptyExpression ∧ fault.message = "empty expression"
        else fault.IsLeftmost expression) := by
  intro expression
  refine ⟨parse_eq_ok_iff source, ?padded, ?refused⟩
  case padded =>
    intro path before behind wellFormed blankBefore blankBehind
    exact parse_padded wellFormed blankBefore blankBehind
  case refused =>
    intro unwritten
    cases read : parse source with
    | ok path =>
        obtain ⟨wellFormed, same⟩ := (parse_eq_ok_iff source path).mp read
        exact absurd same (unwritten path wellFormed)
    | error fault =>
        have nothing : expression = "" ↔ Text.trim source.toList = [] :=
          String.ofList_eq_empty_iff
        have described := fault_of_parse read
        refine ⟨fault, rfl, ?_⟩
        simp only [nothing]
        split at described
        · rename_i empty
          subst described
          rw [if_pos empty]
          exact ⟨rfl, rfl⟩
        · rename_i present
          rw [if_neg present]
          exact described

end Path

end Stencil
