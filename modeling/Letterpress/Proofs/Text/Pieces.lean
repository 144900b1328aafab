import Letterpress.Text.Blank
import Mathlib.Data.List.DropRight

/-!
Where a piece of a text stands, by the offsets of its bytes, and what is left of a text
without the blanks at its ends. A byte below 128 is a character of its own wherever it
stands in a text, so that looking for such characters among the bytes finds no place
inside another character.
-/

namespace Letterpress.Text

def bytes (text : String) : List UInt8 := text.toUTF8.data.toList

def encode (chars : List Char) : List UInt8 := chars.flatMap String.utf8EncodeChar

@[simp] theorem encode_nil : encode [] = [] := rfl

theorem encode_cons (char : Char) (rest : List Char) :
    encode (char :: rest) = String.utf8EncodeChar char ++ encode rest := rfl

theorem encode_append (front back : List Char) :
    encode (front ++ back) = encode front ++ encode back := List.flatMap_append

theorem bytes_eq_encode (text : String) : bytes text = encode text.toList := by
  have stored : text.toUTF8 = text.toList.utf8Encode := by
    rw [← String.toByteArray_ofList, String.ofList_toList]
    rfl
  rw [bytes, stored, List.utf8Encode, List.data_toByteArray]
  rfl

theorem encode_length (chars : List Char) : (encode chars).length = byteSize chars := by
  induction chars with
  | nil => rfl
  | cons char rest size =>
      rw [encode_cons, List.length_append, size, String.length_utf8EncodeChar, byteSize_cons]

theorem byteSize_eq (text : String) : text.utf8ByteSize = byteSize text.toList := by
  rw [← encode_length, ← bytes_eq_encode]
  rfl

theorem byteSize_pos {chars : List Char} (some_char : chars ≠ []) : 0 < byteSize chars := by
  cases chars with
  | nil => exact absurd rfl some_char
  | cons char rest => exact Nat.add_pos_left char.utf8Size_pos _

def IsAscii (char : Char) : Prop := char.toNat < 128

instance (char : Char) : Decidable (IsAscii char) := inferInstanceAs (Decidable (_ < _))

theorem encode_ascii {char : Char} (ascii : IsAscii char) :
    String.utf8EncodeChar char = [char.toUInt8] := by
  have small : char.val.toNat ≤ 127 := Nat.le_of_lt_succ ascii
  rw [String.utf8EncodeChar, if_pos small]
  rfl

theorem ascii_size {char : Char} (ascii : IsAscii char) : char.utf8Size = 1 := by
  rw [← String.length_utf8EncodeChar, encode_ascii ascii, List.length_singleton]

theorem ascii_injective {left right : Char} (leftAscii : IsAscii left)
    (rightAscii : IsAscii right) (same : left.toUInt8 = right.toUInt8) : left = right := by
  have codes : left.toNat % 256 = right.toNat % 256 := congrArg UInt8.toNat same
  rw [Nat.mod_eq_of_lt (by unfold IsAscii at leftAscii; omega),
    Nat.mod_eq_of_lt (by unfold IsAscii at rightAscii; omega)] at codes
  exact Char.toNat_inj.mp codes

theorem high_byte (value : Nat) {width lead : Nat} (positive : 0 < width) (high : 128 ≤ lead)
    (fits : width + lead ≤ 256) : 128 ≤ (UInt8.ofNat (value % width + lead)).toNat := by
  have bound := Nat.mod_lt value positive
  rw [UInt8.toNat_ofNat', Nat.mod_eq_of_lt (by omega)]
  omega

/-- The bytes of the longer characters are all at least 128. -/
theorem high_bytes {char : Char} (wide : ¬ IsAscii char) {byte : UInt8}
    (member : byte ∈ String.utf8EncodeChar char) : 128 ≤ byte.toNat := by
  have large : ¬ char.val.toNat ≤ 127 := fun small => wide (Nat.lt_succ_of_le small)
  rw [String.utf8EncodeChar, if_neg large] at member
  have all : ∀ code : Nat, byte = UInt8.ofNat (code % 32 + 192) ∨
      byte = UInt8.ofNat (code % 16 + 224) ∨ byte = UInt8.ofNat (code % 8 + 240) ∨
      byte = UInt8.ofNat (code % 64 + 128) → 128 ≤ byte.toNat := by
    rintro code (rfl | rfl | rfl | rfl) <;>
      exact high_byte code (by decide) (by decide) (by decide)
  split_ifs at member <;> simp only [List.mem_cons, List.not_mem_nil, or_false] at member <;>
    grind

/-- A byte of a longer character is not that of a character of one byte. -/
theorem byte_in_wide {char ascii : Char} (wide : ¬ IsAscii char) (isAscii : IsAscii ascii)
    (offset : Nat) : (String.utf8EncodeChar char)[offset]? ≠ some ascii.toUInt8 := by
  intro found
  have high := high_bytes wide (List.mem_of_getElem? found)
  have low : ascii.toUInt8.toNat = ascii.toNat % 256 := rfl
  unfold IsAscii at isAscii
  omega

/-- A character of one byte is found by its byte: at the start, or after the first character. -/
theorem ascii_in_cons {ascii : Char} (isAscii : IsAscii ascii) (char : Char) (rest : List Char)
    (offset : Nat) :
    (encode (char :: rest))[offset]? = some ascii.toUInt8 ↔
      offset = 0 ∧ char = ascii ∨
        ∃ later, offset = char.utf8Size + later ∧ (encode rest)[later]? = some ascii.toUInt8 := by
  have size := String.length_utf8EncodeChar char
  rw [encode_cons]
  constructor
  · intro found
    by_cases inside : offset < (String.utf8EncodeChar char).length
    · rw [List.getElem?_append_left inside] at found
      by_cases narrow : IsAscii char
      · rw [encode_ascii narrow] at found inside
        rw [List.length_singleton, Nat.lt_one_iff] at inside
        subst inside
        exact .inl ⟨rfl, ascii_injective narrow isAscii (Option.some.inj found)⟩
      · exact absurd found (byte_in_wide narrow isAscii offset)
    · rw [List.getElem?_append_right (by omega), size] at found
      exact .inr ⟨offset - char.utf8Size, by omega, found⟩
  · rintro (⟨rfl, rfl⟩ | ⟨later, rfl, found⟩)
    · rw [encode_ascii isAscii]
      rfl
    · rwa [List.getElem?_append_right (by omega), size, Nat.add_sub_cancel_left]

/-- Where the byte of a character of one byte stands in a text, that character stands. -/
theorem ascii_byte_at {ascii : Char} (isAscii : IsAscii ascii) {chars : List Char}
    {offset : Nat} (found : (encode chars)[offset]? = some ascii.toUInt8) :
    ∃ front back, chars = front ++ ascii :: back ∧ byteSize front = offset := by
  induction chars generalizing offset with
  | nil => simp at found
  | cons char rest places =>
      rcases (ascii_in_cons isAscii char rest offset).mp found with ⟨rfl, rfl⟩ | ⟨later, rfl, there⟩
      · exact ⟨[], rest, rfl, rfl⟩
      · obtain ⟨front, back, rfl, rfl⟩ := places there
        exact ⟨char :: front, back, rfl, rfl⟩

/-- A text is what stands in another from the byte at one offset up to another offset.
Both offsets are then inside the other text and between two of its characters. -/
def PieceAt (source piece : String) (start stop : Nat) : Prop :=
  ∃ before after, source = before ++ piece ++ after ∧ before.utf8ByteSize = start ∧
    start + piece.utf8ByteSize = stop

theorem piece_size {source piece : String} {start stop : Nat}
    (placed : PieceAt source piece start stop) : start + piece.utf8ByteSize = stop := by
  obtain ⟨before, after, -, -, size⟩ := placed
  exact size

theorem piece_of_chars {source : String} {before piece after : List Char}
    (parts : source.toList = before ++ piece ++ after) :
    PieceAt source (String.ofList piece) (byteSize before) (byteSize (before ++ piece)) := by
  refine ⟨String.ofList before, String.ofList after, ?_, ?_, ?_⟩
  · rw [← String.ofList_append, ← String.ofList_append, ← parts, String.ofList_toList]
  · rw [byteSize_eq, String.toList_ofList]
  · rw [byteSize_eq, String.toList_ofList, byteSize_append]

theorem chars_of_piece {source piece : String} {start stop : Nat}
    (placed : PieceAt source piece start stop) :
    ∃ before after, source.toList = before ++ piece.toList ++ after ∧ byteSize before = start ∧
      byteSize (before ++ piece.toList) = stop := by
  obtain ⟨before, after, rfl, rfl, rfl⟩ := placed
  refine ⟨before.toList, after.toList, ?_, (byteSize_eq before).symm, ?_⟩
  · rw [String.toList_append, String.toList_append]
  · rw [byteSize_append, byteSize_eq, byteSize_eq]

theorem cut_unique {front front' back back' : List Char} (same : front ++ back = front' ++ back')
    (size : byteSize front = byteSize front') : front = front' ∧ back = back' := by
  rcases List.append_eq_append_iff.mp same with ⟨more, rfl, rfl⟩ | ⟨more, rfl, rfl⟩
  all_goals
    have nothing : more = [] := by
      by_contra some_char
      have positive := byteSize_pos some_char
      rw [byteSize_append] at size
      omega
    simp [nothing]

theorem piece_unique {source left right : String} {start stop : Nat}
    (leftPlaced : PieceAt source left start stop) (rightPlaced : PieceAt source right start stop) :
    left = right := by
  obtain ⟨before, after, parts, size, end_size⟩ := chars_of_piece leftPlaced
  obtain ⟨before', after', parts', size', end_size'⟩ := chars_of_piece rightPlaced
  have same := (cut_unique (parts.symm.trans parts') (end_size.trans end_size'.symm)).1
  exact String.toList_inj.mp (cut_unique same (size.trans size'.symm)).2

theorem piece_at_cut {source piece : String} {before rest : List Char} {start stop : Nat}
    (placed : PieceAt source piece start stop) (parts : source.toList = before ++ rest)
    (size : byteSize before = start) :
    ∃ after, rest = piece.toList ++ after ∧ byteSize (before ++ piece.toList) = stop := by
  obtain ⟨before', after, parts', size', end_size⟩ := chars_of_piece placed
  rw [List.append_assoc] at parts'
  obtain ⟨rfl, rfl⟩ := cut_unique (parts.symm.trans parts') (size.trans size'.symm)
  exact ⟨after, rfl, end_size⟩

theorem piece_bytes {source piece : String} {start stop : Nat}
    (placed : PieceAt source piece start stop) :
    ∃ front back, bytes source = front ++ (bytes piece ++ back) ∧ front.length = start := by
  obtain ⟨before, after, parts, size, -⟩ := chars_of_piece placed
  refine ⟨encode before, encode after, ?_, by rw [encode_length, size]⟩
  rw [bytes_eq_encode, bytes_eq_encode, parts, encode_append, encode_append, List.append_assoc]

def AllBlank (chars : List Char) : Prop := ∀ char ∈ chars, isBlank char = true

def NoBlank (chars : List Char) : Prop := ∀ char ∈ chars, isBlank char = false

/-- A text without the blanks at its two ends. -/
structure Trims (whole core : List Char) : Prop where
  around : ∃ before after, whole = before ++ core ++ after ∧ AllBlank before ∧ AllBlank after
  first : ∀ char ∈ core.head?, isBlank char = false
  last : ∀ char ∈ core.getLast?, isBlank char = false

theorem drop_blanks {before rest : List Char} (blank : AllBlank before)
    (first : ∀ char ∈ rest.head?, isBlank char = false) :
    (before ++ rest).dropWhile isBlank = rest := by
  rw [List.dropWhile_append_of_pos blank]
  cases rest with
  | nil => rfl
  | cons char rest => exact List.dropWhile_cons_of_neg (by rw [first char rfl]; decide)

theorem drop_blanks_spec (chars : List Char) :
    ∃ before, chars = before ++ chars.dropWhile isBlank ∧ AllBlank before ∧
      ∀ char ∈ (chars.dropWhile isBlank).head?, isBlank char = false := by
  refine ⟨chars.takeWhile isBlank, List.takeWhile_append_dropWhile.symm, ?_, ?_⟩
  · intro char member
    exact List.mem_takeWhile_imp member
  · intro char first
    have spec := List.head?_dropWhile_not isBlank chars
    rw [Option.mem_def.mp first] at spec
    exact spec

theorem trim_trims (chars : List Char) : Trims chars (trim chars) := by
  obtain ⟨before, parts, blank, first⟩ := drop_blanks_spec chars
  obtain ⟨after, ends, blankAfter, last⟩ := drop_blanks_spec (trimStart chars).reverse
  have core : trimStart chars = trim chars ++ after.reverse := by
    rw [trim, trimEnd, ← List.reverse_append, ← ends, List.reverse_reverse]
  refine ⟨⟨before, after.reverse, ?_, blank, ?_⟩, ?_, ?_⟩
  · rw [List.append_assoc, ← core]
    exact parts
  · intro char member
    exact blankAfter char (List.mem_reverse.mp member)
  · intro char starts
    refine first char ?_
    rw [Option.mem_def] at starts ⊢
    rw [show chars.dropWhile isBlank = trimStart chars from rfl, core, List.head?_append, starts,
      Option.some_or]
  · intro char ends
    refine last char ?_
    rwa [trim, trimEnd, List.getLast?_reverse] at ends

theorem trims_unique {whole core : List Char} (trims : Trims whole core) : core = trim whole := by
  obtain ⟨⟨before, after, rfl, blank, blankAfter⟩, first, last⟩ := trims
  have reversed : AllBlank after.reverse := fun char member =>
    blankAfter char (List.mem_reverse.mp member)
  rw [trim, trimStart, List.append_assoc, List.dropWhile_append_of_pos blank]
  cases core with
  | nil =>
      rw [List.nil_append, List.dropWhile_eq_nil_iff.mpr blankAfter]
      rfl
  | cons char rest =>
      rw [List.cons_append, List.dropWhile_cons_of_neg (by rw [first char rfl]; decide), trimEnd,
        ← List.cons_append, List.reverse_append, drop_blanks reversed, List.reverse_reverse]
      intro char final
      exact last char (by rwa [List.head?_reverse] at final)

/-- Without a blank all of a text is before the cut, and else what is before its first blank. -/
theorem cut_at_blank_spec (chars : List Char) :
    NoBlank chars ∧ cutAtBlank chars = (chars, []) ∨
      ∃ word blank rest, chars = word ++ blank :: rest ∧ NoBlank word ∧ isBlank blank = true ∧
        cutAtBlank chars = (word, rest) := by
  induction chars with
  | nil => exact .inl ⟨by simp [NoBlank], rfl⟩
  | cons char rest cut =>
      by_cases blank : isBlank char = true
      · exact .inr ⟨[], char, rest, rfl, by simp [NoBlank], blank, by rw [cutAtBlank, if_pos blank]⟩
      · rw [cutAtBlank, if_neg blank]
        have letter : isBlank char = false := Bool.eq_false_iff.mpr blank
        rcases cut with ⟨plain, same⟩ | ⟨word, gap, more, parts, plain, gapBlank, same⟩
        · refine .inl ⟨?_, by rw [same]⟩
          simpa [NoBlank, letter] using plain
        · refine .inr ⟨char :: word, gap, more, by rw [parts, List.cons_append], ?_, gapBlank,
            by rw [same]⟩
          simpa [NoBlank, letter] using plain

theorem cut_at_first_blank {word rest : List Char} {blank : Char} (plain : NoBlank word)
    (isBlankChar : isBlank blank = true) : cutAtBlank (word ++ blank :: rest) = (word, rest) := by
  induction word with
  | nil => rw [List.nil_append, cutAtBlank, if_pos isBlankChar]
  | cons char word cut =>
      rw [List.cons_append, cutAtBlank, if_neg (by rw [plain char (by simp)]; decide),
        cut fun other member => plain other (by simp [member])]

end Letterpress.Text
