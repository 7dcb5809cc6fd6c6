import Mathlib.Algebra.Group.Nat.Defs
import Stencil.Json.Printer
import Stencil.Json.Reader
import Stencil.Proofs.Digits

namespace Stencil.Json

/-! ### String literals -/

namespace Piece

/-- What is read where the part has been written. -/
def reread : Piece → Piece
  | .char c =>
      if c.toNat < 0x20 ∧ c ∉ ['\x08', '\t', '\n', '\x0c', '\r'] then .unit c.toNat
      else .char c
  | .unit u => .unit u

/-- Numeric escapes have four digits. -/
def Fits : Piece → Prop
  | .char _ => True
  | .unit u => u < 0x10000

end Piece

theorem hexDigit?_digitChar (n : Nat) : Text.hexDigit? (n % 16).digitChar = some (n % 16) := by
  have small : ∀ digit < 16, Text.hexDigit? digit.digitChar = some digit := by decide
  exact small _ (Nat.mod_lt _ (by decide))

theorem readPieces?_unitEscape {u : Nat} (fits : u < 0x10000) (rest : List Char) :
    readPieces? (unitEscape u ++ rest) =
      (readPieces? rest).map fun (more, rest) => (.unit u :: more, rest) := by
  have digits : u / 0x1000 % 16 * 0x1000 + u / 0x100 % 16 * 0x100 + u / 0x10 % 16 * 0x10 +
      u % 16 = u := by omega
  simp only [unitEscape, List.cons_append, List.nil_append, readPieces?, hexUnit?,
    hexDigit?_digitChar, Option.bind_eq_bind, Option.bind_some, digits]
  cases readPieces? rest <;> rfl

theorem readPieces?_shortEscape {letter c : Char} (short : shortEscape? letter = some c)
    (rest : List Char) :
    readPieces? ('\\' :: letter :: rest) =
      (readPieces? rest).map fun (more, rest) => (.char c :: more, rest) := by
  have noUnit : letter ≠ 'u' := by
    rintro rfl
    contradiction
  rw [readPieces?]
  · rw [short]
    cases readPieces? rest <;> rfl
  · intro a b c d rest same
    simp [noUnit] at same

theorem readPieces?_plain {c : Char} (quote : c ≠ '"') (backslash : c ≠ '\\')
    (printable : ¬ c.toNat < 0x20) (rest : List Char) :
    readPieces? (c :: rest) =
      (readPieces? rest).map fun (more, rest) => (.char c :: more, rest) := by
  rw [readPieces?]
  · rw [if_neg (by simp [backslash, printable])]
    cases readPieces? rest <;> rfl
  · exact quote
  · intro a b c d rest same
    simp [backslash] at same
  · intro letter rest same
    simp [backslash] at same

theorem readPieces?_charLiteral (c : Char) (rest : List Char) :
    readPieces? (charLiteral c ++ rest) =
      (readPieces? rest).map fun (more, rest) => ((Piece.char c).reread :: more, rest) := by
  unfold charLiteral
  split
  case h_8 quote backslash b t n f r =>
    have reread : (Piece.char c).reread = if c.toNat < 0x20 then .unit c.toNat else .char c := by
      have long : c ∉ ['\x08', '\t', '\n', '\x0c', '\r'] := by
        simp only [List.mem_cons, List.not_mem_nil, or_false]
        rintro (same | same | same | same | same) <;> simp_all
      simp [Piece.reread, long]
    rw [reread]
    split
    · rw [readPieces?_unitEscape (by omega)]
    · rename_i printable
      exact readPieces?_plain quote backslash printable rest
  all_goals exact readPieces?_shortEscape rfl rest

theorem readPieces?_chars {pieces : List Piece} (fits : ∀ piece ∈ pieces, piece.Fits)
    (rest : List Char) :
    readPieces? (pieces.flatMap Piece.chars ++ '"' :: rest) =
      some (pieces.map Piece.reread, rest) := by
  induction pieces with
  | nil => rfl
  | cons piece more ih =>
      have tail := ih fun other member => fits other (List.mem_cons_of_mem piece member)
      rw [List.flatMap_cons, List.append_assoc]
      cases piece with
      | char c =>
          rw [Piece.chars, readPieces?_charLiteral, tail]
          rfl
      | unit u =>
          have fit : u < 0x10000 := fits (.unit u) List.mem_cons_self
          rw [Piece.chars, readPieces?_unitEscape fit, tail]
          rfl

theorem not_isHighSurrogate_control {u : Nat} (control : u < 0x20) :
    ¬ Piece.IsHighSurrogate u := fun high => by
  have := high.1
  omega

theorem not_isLowSurrogate_control {u : Nat} (control : u < 0x20) :
    ¬ Piece.IsLowSurrogate u := fun low => by
  have := low.1
  omega

theorem resolve?_not_high {u : Nat} (noHigh : ¬ Piece.IsHighSurrogate u) (rest : List Piece) :
    Piece.resolve? (.unit u :: rest) =
      if Piece.IsLowSurrogate u then none
      else (Piece.resolve? rest).map (Char.ofNat u :: ·) := by
  rw [Piece.resolve?.eq_def]
  exact if_neg noHigh

/-- A control character by its number is the same character, and next to a surrogate it is
no more a surrogate than before. -/
theorem resolve?_reread (pieces : List Piece) :
    Piece.resolve? (pieces.map Piece.reread) = Piece.resolve? pieces := by
  fun_induction Piece.resolve? pieces with
  | case1 => rfl
  | case2 c rest ih =>
      rw [List.map_cons, Piece.reread]
      split
      · rename_i control
        rw [resolve?_not_high (not_isHighSurrogate_control control.1),
          if_neg (not_isLowSurrogate_control control.1), Char.ofNat_toNat, ih]
      · rw [Piece.resolve?, ih]
  | case3 u high v beyond low code ih =>
      simp only [List.map_cons, Piece.reread, Piece.resolve?, high, low, if_true, ih, code]
  | case4 u high v beyond low =>
      simp only [List.map_cons, Piece.reread, Piece.resolve?, high, low, if_true, if_false]
  | case5 u rest high other =>
      cases rest with
      | nil => simp [Piece.reread, Piece.resolve?, high]
      | cons piece beyond =>
          cases piece with
          | unit v => exact (other v beyond rfl).elim
          | char c =>
              simp only [List.map_cons, Piece.reread]
              split
              · rename_i control
                simp [Piece.resolve?, high, not_isLowSurrogate_control control.1]
              · simp [Piece.resolve?, high]
  | case6 u rest noHigh low =>
      rw [List.map_cons, Piece.reread, resolve?_not_high noHigh, if_pos low]
  | case7 u rest noHigh noLow ih =>
      rw [List.map_cons, Piece.reread, resolve?_not_high noHigh, if_neg noLow, ih]

theorem text?_reread (pieces : List Piece) : text? (pieces.map Piece.reread) = text? pieces := by
  rw [text?, text?, resolve?_reread]

/-! ### Number literals -/

/-- The text does not go on with what a number literal could consist of. -/
def EndsNumeral (rest : List Char) : Prop :=
  ∀ c ∈ rest.head?, c.isDigit = false ∧ c ≠ '.' ∧ c ≠ 'e' ∧ c ≠ 'E'

theorem takeDigits_append {digits rest : List Char} (all : ∀ c ∈ digits, c.isDigit = true)
    (stop : ∀ c ∈ rest.head?, c.isDigit = false) :
    takeDigits (digits ++ rest) = (digits, rest) := by
  have none : rest.takeWhile Char.isDigit = [] ∧ rest.dropWhile Char.isDigit = rest := by
    cases rest with
    | nil => simp
    | cons c more => simp [stop c rfl]
  rw [takeDigits, List.takeWhile_append_of_pos all, List.dropWhile_append_of_pos all, none.1,
    none.2, List.append_nil]

theorem isDigit_paddedDigits (width n : Nat) : ∀ c ∈ paddedDigits width n, c.isDigit = true := by
  intro c member
  rcases List.mem_append.mp member with zero | digit
  · rw [List.eq_of_mem_replicate zero]
    rfl
  · exact Text.isDigit_toDigits n c digit

theorem length_paddedDigits {width n : Nat} (positive : 0 < width) (fits : n < 10 ^ width) :
    (paddedDigits width n).length = width := by
  have short := (Nat.length_toDigits_le_iff (by decide) positive).mpr fits
  rw [paddedDigits, List.length_append, List.length_replicate]
  omega

theorem value_toDigits (n : Nat) : value (Nat.toDigits 10 n) = n :=
  Nat.ofDigitChars_ten_toDigits

theorem value_append_paddedDigits {width n : Nat} (positive : 0 < width) (fits : n < 10 ^ width)
    (whole : Nat) :
    value (Nat.toDigits 10 whole ++ paddedDigits width n) = whole * 10 ^ width + n := by
  have padded : Nat.ofDigitChars 10 (paddedDigits width n) 0 = n := by
    rw [paddedDigits, Nat.ofDigitChars_append, Nat.ofDigitChars_replicate_zero, Nat.mul_zero,
      Nat.ofDigitChars_ten_toDigits]
  rw [value, Nat.ofDigitChars_append, Nat.ofDigitChars_ten_toDigits,
    Nat.ofDigitChars_eq_ofDigitChars_zero, padded, length_paddedDigits positive fits,
    Nat.mul_comm]

variable {rest : List Char}

theorem EndsNumeral.noDigit (ends : EndsNumeral rest) : ∀ c ∈ rest.head?, c.isDigit = false :=
  fun c first => (ends c first).1

/-- What is written behind the digits of a number literal. -/
def exponentMark : Option Int → List Char
  | none => []
  | some e => 'e' :: (if e < 0 then '-' else '+') :: Nat.toDigits 10 e.natAbs

theorem readExponent?_none (ends : EndsNumeral rest) : readExponent? rest = some (none, rest) := by
  cases rest with
  | nil => rfl
  | cons c more =>
      obtain ⟨_, _, small, capital⟩ := ends c rfl
      simp [readExponent?, small, capital]

theorem readExponent?_mark (exponent : Option Int) (ends : EndsNumeral rest) :
    readExponent? (exponentMark exponent ++ rest) = some (exponent, rest) := by
  cases exponent with
  | none => exact readExponent?_none ends
  | some e =>
      obtain ⟨magnitude, size⟩ : ∃ magnitude, e.natAbs = magnitude := ⟨_, rfl⟩
      have digits := takeDigits_append (Text.isDigit_toDigits magnitude) ends.noDigit
      rw [exponentMark, size]
      by_cases negative : e < 0
      · have same : -(magnitude : Int) = e := by omega
        simp [readExponent?, negative, digits, Nat.toDigits_ne_nil, value_toDigits, same]
      · have same : (magnitude : Int) = e := by omega
        simp [readExponent?, negative, digits, Nat.toDigits_ne_nil, value_toDigits, same]

theorem exponentMark_stops (exponent : Option Int) (ends : EndsNumeral rest) :
    ∀ c ∈ (exponentMark exponent ++ rest).head?, c.isDigit = false ∧ c ≠ '.' := by
  cases exponent with
  | none => exact fun c first => ⟨(ends c first).1, (ends c first).2.1⟩
  | some e => simp [exponentMark]

/-- Reading a number literal from behind its sign on. -/
def readMagnitude? (negative : Bool) (text : List Char) : Option (Numeral × List Char) := do
  let (whole, rest) := takeDigits text
  if whole = [] ∨ (whole.head? = some '0' ∧ whole ≠ ['0']) then none
  let (places, rest) ← match rest with
    | '.' :: rest =>
        let (places, rest) := takeDigits rest
        if places = [] then none else some (places, rest)
    | _ => some ([], rest)
  let (exponent, rest) ← readExponent? rest
  some (⟨negative, value (whole ++ places), places.length, exponent⟩, rest)

theorem readNumeral?_minus (text : List Char) :
    readNumeral? ('-' :: text) = readMagnitude? true text := rfl

theorem readNumeral?_digit {c : Char} (digit : c.isDigit = true) (text : List Char) :
    readNumeral? (c :: text) = readMagnitude? false (c :: text) := by
  have noSign : c ≠ '-' := by
    rintro rfl
    contradiction
  simp only [readNumeral?, readMagnitude?]
  split
  · rename_i same
    simp [noSign] at same
  · rfl

theorem no_leading_zero (n : Nat) :
    ¬ (Nat.toDigits 10 n = [] ∨
      (Nat.toDigits 10 n).head? = some '0' ∧ Nat.toDigits 10 n ≠ ['0']) := by
  rintro (empty | ⟨zero, other⟩)
  · exact Nat.toDigits_ne_nil empty
  · rw [Text.zero_of_head?_toDigits zero, Nat.toDigits_zero] at other
    exact other rfl

variable {exponent : Option Int} {mark : List Char}

theorem readMagnitude?_whole (negative : Bool) (whole : Nat)
    (stop : ∀ c ∈ mark.head?, c.isDigit = false ∧ c ≠ '.')
    (marked : readExponent? mark = some (exponent, rest)) :
    readMagnitude? negative (Nat.toDigits 10 whole ++ mark) =
      some (⟨negative, whole, 0, exponent⟩, rest) := by
  have digits := takeDigits_append (Text.isDigit_toDigits whole) fun c first => (stop c first).1
  have noPoint : ∀ more, mark ≠ '.' :: more := by
    rintro more rfl
    exact (stop '.' rfl).2 rfl
  simp only [readMagnitude?, digits, no_leading_zero, if_false]
  simp [marked, value_toDigits]

theorem readMagnitude?_fraction (negative : Bool) {places : Nat} (positive : 0 < places)
    (digits : Nat) (stop : ∀ c ∈ mark.head?, c.isDigit = false)
    (marked : readExponent? mark = some (exponent, rest)) :
    readMagnitude? negative (Nat.toDigits 10 (digits / 10 ^ places) ++
        '.' :: (paddedDigits places (digits % 10 ^ places) ++ mark)) =
      some (⟨negative, digits, places, exponent⟩, rest) := by
  have below : digits % 10 ^ places < 10 ^ places := Nat.mod_lt _ (Nat.pow_pos (by decide))
  have point : ∀ c ∈ ('.' :: (paddedDigits places (digits % 10 ^ places) ++ mark)).head?,
      c.isDigit = false := by simp
  have whole := takeDigits_append (Text.isDigit_toDigits (digits / 10 ^ places)) point
  have fraction := takeDigits_append (isDigit_paddedDigits places (digits % 10 ^ places)) stop
  have length := length_paddedDigits positive below
  have written : paddedDigits places (digits % 10 ^ places) ≠ [] := by
    rw [← List.length_pos_iff, length]
    exact positive
  have parts : digits / 10 ^ places * 10 ^ places + digits % 10 ^ places = digits :=
    Nat.div_add_mod' digits (10 ^ places)
  simp only [readMagnitude?, whole, fraction, no_leading_zero, written, if_false]
  simp [marked, value_append_paddedDigits positive below, parts, length]

theorem readNumeral?_signed (negative : Bool) (whole : Nat) (tail : List Char) :
    readNumeral? ((if negative then ['-'] else []) ++ (Nat.toDigits 10 whole ++ tail)) =
      readMagnitude? negative (Nat.toDigits 10 whole ++ tail) := by
  cases negative with
  | true => exact readNumeral?_minus _
  | false =>
      obtain ⟨c, more, written, digit⟩ := Text.exists_cons_toDigits whole
      rw [written]
      exact readNumeral?_digit digit _

theorem readNumeral?_chars (numeral : Numeral) (ends : EndsNumeral rest) :
    readNumeral? (numeral.chars ++ rest) = some (numeral, rest) := by
  obtain ⟨negative, digits, places, exponent⟩ := numeral
  have marked := readExponent?_mark exponent ends
  have stop := exponentMark_stops exponent ends
  have exponentPart : Numeral.chars ⟨negative, digits, places, exponent⟩ =
      (if negative then ['-'] else []) ++ Nat.toDigits 10 (digits / 10 ^ places) ++
        (if places = 0 then [] else '.' :: paddedDigits places (digits % 10 ^ places)) ++
        exponentMark exponent := by
    cases exponent <;> rfl
  rw [exponentPart, List.append_assoc, List.append_assoc, List.append_assoc,
    readNumeral?_signed]
  split
  · rename_i whole
    subst whole
    rw [List.nil_append, Nat.pow_zero, Nat.div_one]
    exact readMagnitude?_whole negative digits stop marked
  · rename_i fraction
    exact readMagnitude?_fraction negative (Nat.pos_of_ne_zero fraction) digits
      (fun c first => (stop c first).1) marked

theorem ne_of_isDigit {c other : Char} (digit : c.isDigit = true) (plain : other.isDigit = false) :
    c ≠ other := by
  rintro rfl
  rw [plain] at digit
  contradiction

theorem Numeral.exists_first (numeral : Numeral) :
    ∃ c more, numeral.chars = c :: more ∧ (c = '-' ∨ c.isDigit = true) := by
  obtain ⟨c, more, written, digit⟩ :=
    Text.exists_cons_toDigits (numeral.digits / Nat.pow 10 numeral.places)
  unfold chars
  rw [written]
  cases numeral.negative with
  | true => exact ⟨_, _, rfl, .inl rfl⟩
  | false => exact ⟨_, _, rfl, .inr digit⟩

end Stencil.Json
