import Stencil.Proofs.JsonLiterals

namespace Stencil.Json.Document

mutual

/-- What is read where the document has been written. -/
def reread : Document → Document
  | .null => .null
  | .bool value => .bool value
  | .number numeral => .number numeral
  | .string pieces => .string (pieces.map Piece.reread)
  | .array items => .array (rereadItems items)
  | .object members => .object (rereadMembers members)

def rereadItems : List Document → List Document
  | [] => []
  | item :: rest => item.reread :: rereadItems rest

def rereadMembers : List (List Piece × Document) → List (List Piece × Document)
  | [] => []
  | (key, item) :: rest => (key.map Piece.reread, item.reread) :: rereadMembers rest

end

mutual

/-- All numeric escapes in the document have four digits. -/
def Fits : Document → Prop
  | .null | .bool _ | .number _ => True
  | .string pieces => ∀ piece ∈ pieces, piece.Fits
  | .array items => ItemsFit items
  | .object members => MembersFit members

def ItemsFit : List Document → Prop
  | [] => True
  | item :: rest => item.Fits ∧ ItemsFit rest

def MembersFit : List (List Piece × Document) → Prop
  | [] => True
  | (key, item) :: rest => (∀ piece ∈ key, piece.Fits) ∧ item.Fits ∧ MembersFit rest

end

theorem rereadItems_eq_map (items : List Document) : rereadItems items = items.map reread := by
  induction items with
  | nil => rfl
  | cons item rest ih => rw [rereadItems, ih, List.map_cons]

theorem itemsFit_iff {items : List Document} : ItemsFit items ↔ ∀ item ∈ items, item.Fits := by
  induction items with
  | nil => simp [ItemsFit]
  | cons item rest ih => rw [ItemsFit, ih, List.forall_mem_cons]

theorem membersFit_iff {members : List (List Piece × Document)} :
    MembersFit members ↔
      ∀ member ∈ members, (∀ piece ∈ member.1, piece.Fits) ∧ member.2.Fits := by
  induction members with
  | nil => simp [MembersFit]
  | cons member rest ih => rw [MembersFit, ih, List.forall_mem_cons, and_assoc]

theorem pieces_fit (text : String) : ∀ piece ∈ pieces text, piece.Fits := by
  intro piece member
  obtain ⟨c, _, rfl⟩ := List.mem_map.mp member
  trivial

theorem record_fits {members : List (String × Document)}
    (fits : ∀ member ∈ members, member.2.Fits) : (record members).Fits := by
  rw [record, Fits, membersFit_iff, List.forall_mem_map]
  exact fun member inside => ⟨pieces_fit member.1, fits member inside⟩

theorem skipBlank_cons {c : Char} (visible : isBlank c = false) (rest : List Char) :
    skipBlank (c :: rest) = c :: rest := by
  simp [skipBlank, visible]

theorem skipBlank_comma (rest : List Char) : skipBlank (',' :: rest) = ',' :: rest := rfl

theorem skipBlank_colon (rest : List Char) : skipBlank (':' :: rest) = ':' :: rest := rfl

theorem skipBlank_quote (rest : List Char) : skipBlank ('"' :: rest) = '"' :: rest := rfl

/-- A document begins with a character that is neither white space nor the end of an
array. -/
theorem exists_first (document : Document) :
    ∃ c more, document.chars = c :: more ∧ isBlank c = false ∧ c ≠ ']' := by
  cases document with
  | null => exact ⟨'n', ['u', 'l', 'l'], by rw [chars], by decide⟩
  | bool value =>
      cases value with
      | true => exact ⟨'t', ['r', 'u', 'e'], by rw [chars], by decide⟩
      | false => exact ⟨'f', ['a', 'l', 's', 'e'], by rw [chars], by decide⟩
  | number numeral =>
      obtain ⟨c, more, written, first⟩ := numeral.exists_first
      refine ⟨c, more, by rw [chars, written], ?_⟩
      rcases first with rfl | digit
      · decide
      · simp [isBlank, ne_of_isDigit digit]
  | string pieces => exact ⟨'"', pieces.flatMap Piece.chars ++ ['"'], by rw [chars]; rfl, by decide⟩
  | array items => exact ⟨'[', itemChars items ++ [']'], by rw [chars]; rfl, by decide⟩
  | object members => exact ⟨'{', memberChars members ++ ['}'], by rw [chars]; rfl, by decide⟩

theorem exists_first_item (item : Document) (items : List Document) :
    ∃ c more, itemChars (item :: items) = c :: more ∧ isBlank c = false ∧ c ≠ ']' := by
  obtain ⟨c, more, written, first⟩ := item.exists_first
  cases items with
  | nil => exact ⟨c, more, by rw [itemChars, written], first⟩
  | cons next rest =>
      exact ⟨c, more ++ ',' :: itemChars (next :: rest), by rw [itemChars, written]; rfl, first⟩

theorem exists_first_member (member : List Piece × Document)
    (members : List (List Piece × Document)) :
    ∃ more, memberChars (member :: members) = '"' :: more := by
  cases members with
  | nil => exact ⟨_, by rw [memberChars]; rfl⟩
  | cons next rest => exact ⟨_, by rw [memberChars]; rfl⟩

theorem endsNumeral_cons {c : Char} (mark : c = ',' ∨ c = ']' ∨ c = '}') (rest : List Char) :
    EndsNumeral (c :: rest) := by
  rintro _ ⟨⟩
  rcases mark with rfl | rfl | rfl <;> decide

theorem readDocument?_digit {c : Char} (first : c = '-' ∨ c.isDigit = true) (fuel : Nat)
    (more : List Char) :
    readDocument? (fuel + 1) (c :: more) =
      (readNumeral? (c :: more)).map fun (numeral, rest) => (.number numeral, rest) := by
  have visible : isBlank c = false := by
    rcases first with rfl | digit
    · decide
    · simp [isBlank, ne_of_isDigit digit]
  have others : c ≠ 'n' ∧ c ≠ 't' ∧ c ≠ 'f' ∧ c ≠ '"' ∧ c ≠ '[' ∧ c ≠ '{' := by
    rcases first with rfl | digit
    · decide
    · simp [ne_of_isDigit digit]
  obtain ⟨n, t, f, quote, bracket, brace⟩ := others
  rw [readDocument?, skipBlank_cons visible]
  split
  case h_7 => cases readNumeral? (c :: more) <;> rfl
  all_goals
    rename_i same
    injection same
    contradiction

mutual

/-- A document is read where it has been written, if what follows does not go on with a
number. Twice its length is fuel enough. -/
theorem readDocument?_chars : (document : Document) → document.Fits →
    ∀ (fuel : Nat) (rest : List Char), 2 * document.chars.length ≤ fuel + 1 →
      EndsNumeral rest →
      readDocument? fuel (document.chars ++ rest) = some (document.reread, rest)
  | document, _, 0, _, enough, _ => by
      obtain ⟨c, more, written, _⟩ := document.exists_first
      rw [written, List.length_cons] at enough
      omega
  | .null, _, fuel + 1, rest, _, _ => by
      rw [chars, reread]
      rfl
  | .bool true, _, fuel + 1, rest, _, _ => by
      rw [chars, reread]
      rfl
  | .bool false, _, fuel + 1, rest, _, _ => by
      rw [chars, reread]
      rfl
  | .number numeral, _, fuel + 1, rest, _, ends => by
      obtain ⟨c, more, written, first⟩ := numeral.exists_first
      have read := readNumeral?_chars numeral ends
      rw [chars, reread]
      rw [written, List.cons_append] at read ⊢
      rw [readDocument?_digit first, read, Option.map_some]
  | .string pieces, fits, fuel + 1, rest, _, _ => by
      rw [Fits] at fits
      have read := readPieces?_chars fits rest
      have text : (string pieces).chars ++ rest =
          '"' :: (pieces.flatMap Piece.chars ++ '"' :: rest) := by
        simp [chars, stringLiteral]
      rw [text, reread, readDocument?, skipBlank_cons (by decide)]
      simp only [read]
      rfl
  | .array [], _, fuel + 1, rest, _, _ => by
      rw [chars, reread, itemChars, rereadItems]
      rfl
  | .array (item :: items), fits, fuel + 1, rest, enough, _ => by
      rw [Fits] at fits
      obtain ⟨c, more, written, visible, noEnd⟩ := exists_first_item item items
      have fuelled : 2 * (itemChars (item :: items)).length ≤ fuel := by
        simp only [chars, List.length_cons, List.length_append, List.length_nil] at enough
        omega
      have read := readItems?_chars item items fits fuel rest fuelled
      have text : (array (item :: items)).chars ++ rest =
          '[' :: (itemChars (item :: items) ++ ']' :: rest) := by
        simp [chars]
      rw [text, reread, readDocument?, skipBlank_cons (by decide)]
      rw [written, List.cons_append] at read ⊢
      simp only [skipBlank_cons visible]
      split
      · rename_i same
        injection same
        contradiction
      · rw [read]
        rfl
  | .object [], _, fuel + 1, rest, _, _ => by
      rw [chars, reread, memberChars, rereadMembers]
      rfl
  | .object ((key, item) :: members), fits, fuel + 1, rest, enough, _ => by
      rw [Fits] at fits
      obtain ⟨more, written⟩ := exists_first_member (key, item) members
      have fuelled : 2 * (memberChars ((key, item) :: members)).length ≤ fuel := by
        simp only [chars, List.length_cons, List.length_append, List.length_nil] at enough
        omega
      have read := readMembers?_chars (key, item) members fits fuel rest fuelled
      have text : (object ((key, item) :: members)).chars ++ rest =
          '{' :: (memberChars ((key, item) :: members) ++ '}' :: rest) := by
        simp [chars]
      rw [text, reread, readDocument?, skipBlank_cons (by decide)]
      rw [written, List.cons_append] at read ⊢
      simp only [skipBlank_quote]
      split
      · rename_i same
        simp at same
      · rw [read]
        rfl

theorem readItems?_chars : (item : Document) → (items : List Document) →
    ItemsFit (item :: items) →
    ∀ (fuel : Nat) (rest : List Char), 2 * (itemChars (item :: items)).length ≤ fuel →
      readItems? fuel (itemChars (item :: items) ++ ']' :: rest) =
        some (rereadItems (item :: items), rest)
  | item, items, _, 0, _, enough => by
      obtain ⟨c, more, written, _⟩ := exists_first_item item items
      rw [written, List.length_cons] at enough
      omega
  | item, [], fits, fuel + 1, rest, enough => by
      rw [ItemsFit] at fits
      rw [itemChars] at enough ⊢
      have read := readDocument?_chars item fits.1 fuel (']' :: rest) (by omega)
        (endsNumeral_cons (by simp) rest)
      rw [rereadItems, rereadItems, readItems?, read]
      rfl
  | item, next :: items, fits, fuel + 1, rest, enough => by
      rw [ItemsFit] at fits
      rw [itemChars] at enough ⊢
      rw [List.length_append, List.length_cons] at enough
      rw [List.append_assoc, List.cons_append]
      have read := readDocument?_chars item fits.1 fuel
        (',' :: (itemChars (next :: items) ++ ']' :: rest)) (by omega)
        (endsNumeral_cons (by simp) _)
      have tail := readItems?_chars next items fits.2 fuel rest (by omega)
      rw [rereadItems, readItems?, read]
      simp only [Option.bind_eq_bind, Option.bind_some, skipBlank_comma]
      rw [tail]
      rfl

theorem readMembers?_chars : (member : List Piece × Document) →
    (members : List (List Piece × Document)) → MembersFit (member :: members) →
    ∀ (fuel : Nat) (rest : List Char), 2 * (memberChars (member :: members)).length ≤ fuel →
      readMembers? fuel (memberChars (member :: members) ++ '}' :: rest) =
        some (rereadMembers (member :: members), rest)
  | member, members, _, 0, _, enough => by
      obtain ⟨more, written⟩ := exists_first_member member members
      rw [written, List.length_cons] at enough
      omega
  | (key, item), [], fits, fuel + 1, rest, enough => by
      rw [MembersFit] at fits
      have keyRead := readPieces?_chars fits.1 (':' :: (item.chars ++ '}' :: rest))
      have text : memberChars [(key, item)] ++ '}' :: rest =
          '"' :: (key.flatMap Piece.chars ++ '"' :: ':' :: (item.chars ++ '}' :: rest)) := by
        simp [memberChars, stringLiteral]
      have fuelled : 2 * item.chars.length ≤ fuel + 1 := by
        simp only [memberChars, List.length_append, List.length_cons] at enough
        omega
      have read := readDocument?_chars item fits.2.1 fuel ('}' :: rest) fuelled
        (endsNumeral_cons (by simp) rest)
      rw [text, rereadMembers, rereadMembers, readMembers?, skipBlank_cons (by decide)]
      simp only [keyRead, Option.bind_eq_bind, Option.bind_some, skipBlank_colon, read]
      rfl
  | (key, item), next :: members, fits, fuel + 1, rest, enough => by
      rw [MembersFit] at fits
      have keyRead := readPieces?_chars fits.1
        (':' :: (item.chars ++ ',' :: (memberChars (next :: members) ++ '}' :: rest)))
      have text : memberChars ((key, item) :: next :: members) ++ '}' :: rest =
          '"' :: (key.flatMap Piece.chars ++ '"' ::
            ':' :: (item.chars ++ ',' :: (memberChars (next :: members) ++ '}' :: rest))) := by
        simp [memberChars, stringLiteral]
      have lengths : item.chars.length + 1 + (memberChars (next :: members)).length ≤
          (memberChars ((key, item) :: next :: members)).length := by
        simp only [memberChars, List.length_append, List.length_cons]
        omega
      have read := readDocument?_chars item fits.2.1 fuel
        (',' :: (memberChars (next :: members) ++ '}' :: rest)) (by omega)
        (endsNumeral_cons (by simp) _)
      have tail := readMembers?_chars next members fits.2.2 fuel rest (by omega)
      rw [text, rereadMembers, readMembers?, skipBlank_cons (by decide)]
      simp only [keyRead, Option.bind_eq_bind, Option.bind_some, skipBlank_colon, read,
        skipBlank_comma, tail]

end

/-- A document whose numeric escapes have four digits is read back from its text. -/
theorem ofText?_text {document : Document} (fits : document.Fits) :
    ofText? document.text = some document.reread := by
  have read := readDocument?_chars document fits (2 * document.chars.length + 2) []
    (by omega) (by simp [EndsNumeral])
  rw [List.append_nil] at read
  rw [ofText?, text]
  simp only [String.toList_ofList, read]
  rfl

end Stencil.Json.Document
