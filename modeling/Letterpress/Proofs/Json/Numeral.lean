import Letterpress.Json.Printer
import Letterpress.Json.Reader
import Letterpress.Text.Blank

/-!
Numerals read back as they are written. A reader of digits takes all that come, so what
follows a numeral must not go on with it; a numeral is plain if its parts are what the
reader makes of them, and the numerals of integers and of decimals are.
-/

namespace Letterpress

namespace Decimal

theorem is_digit_iff (char : Char) : isDigit char = char.isDigit := by
  simp only [isDigit, Char.isDigit, Char.le_def]

theorem digits_are_digits {number : Nat} {char : Char} (member : char ∈ digitsOf number) :
    isDigit char = true := by
  rw [is_digit_iff]
  exact Nat.isDigit_of_mem_toDigits (by omega) (by omega) member

theorem digit_not_blank {char : Char} (digit : isDigit char = true) :
    Text.isBlank char = false := by
  simp only [isDigit, Char.le_def, Bool.and_eq_true, decide_eq_true_eq] at digit
  have low : 48 ≤ char.toNat := digit.1
  have high : char.toNat ≤ 57 := digit.2
  simp only [Text.isBlank]
  simp
  omega

theorem digits_not_empty (number : Nat) : digitsOf number ≠ [] := Nat.toDigits_ne_nil

theorem of_digits_digits_of (number : Nat) : ofDigits (digitsOf number) = number := by
  have read : Nat.ofDigitChars 10 (Nat.toDigits 10 number) 0 = number :=
    Nat.ofDigitChars_ten_toDigits
  rw [Nat.ofDigitChars_eq_foldl] at read
  exact read

theorem of_digits_zeros (count : Nat) (digits : List Char) :
    ofDigits (List.replicate count '0' ++ digits) = ofDigits digits := by
  induction count with
  | zero => rfl
  | succ count same => exact same

/-- Zero has one digit, and all other numbers start with a digit that is not zero. -/
theorem no_leading_zero (number : Nat) :
    digitsOf number = ['0'] ∨ (digitsOf number).head? ≠ some '0' := by
  induction number using Nat.strongRecOn with
  | ind number smaller =>
      by_cases small : number < 10
      · have single : digitsOf number = [number.digitChar] := Nat.toDigits_of_lt_base small
        by_cases zero : number = 0
        · subst zero
          exact .inl single
        · right
          rw [single]
          simpa using zero
      · have split : digitsOf number = digitsOf (number / 10) ++ [(number % 10).digitChar] :=
          Nat.toDigits_of_base_le (by omega) (by omega)
        right
        rw [split, List.head?_append, List.head?_eq_some_head (digits_not_empty _), Option.some_or,
          ← List.head?_eq_some_head (digits_not_empty _)]
        rcases smaller (number / 10) (by omega) with zero | starts
        · have positive := of_digits_digits_of (number / 10)
          rw [zero] at positive
          have : ofDigits ['0'] = 0 := rfl
          omega
        · exact starts

end Decimal

namespace Numeral

/-- What follows a numeral neither goes on with its digits nor adds a part to it. -/
def Ends (rest : List Char) : Prop :=
  ∀ char ∈ rest.head?, Decimal.isDigit char = false ∧ char ∉ ['.', 'e', 'E']

structure Plain (numeral : Numeral) : Prop where
  whole : numeral.whole ≠ [] ∧ ∀ char ∈ numeral.whole, Decimal.isDigit char = true
  leading : numeral.whole = ['0'] ∨ numeral.whole.head? ≠ some '0'
  places : ∀ char ∈ numeral.places, Decimal.isDigit char = true
  power : ∀ negative digits, numeral.power = some (negative, digits) →
    digits ≠ [] ∧ ∀ char ∈ digits, Decimal.isDigit char = true

section Reading

variable {digits rest : List Char}

theorem take_digits (all : ∀ char ∈ digits, Decimal.isDigit char = true)
    (stops : ∀ char ∈ rest.head?, Decimal.isDigit char = false) :
    (digits ++ rest).takeWhile Decimal.isDigit = digits ∧
      (digits ++ rest).dropWhile Decimal.isDigit = rest := by
  rw [List.takeWhile_append_of_pos all, List.dropWhile_append_of_pos all]
  cases rest with
  | nil => simp
  | cons next after =>
      have stop := stops next rfl
      simp [stop]

theorem read_digits (some_digit : digits ≠ [])
    (all : ∀ char ∈ digits, Decimal.isDigit char = true)
    (stops : ∀ char ∈ rest.head?, Decimal.isDigit char = false) :
    readDigits? (digits ++ rest) = some (digits, rest) := by
  obtain ⟨taken, dropped⟩ := take_digits all stops
  simp only [readDigits?, taken, dropped]
  simp [some_digit]

theorem read_whole (some_digit : digits ≠ [])
    (all : ∀ char ∈ digits, Decimal.isDigit char = true)
    (leading : digits = ['0'] ∨ digits.head? ≠ some '0')
    (stops : ∀ char ∈ rest.head?, Decimal.isDigit char = false) :
    readWhole? (digits ++ rest) = some (digits, rest) := by
  rcases leading with zero | starts
  · subst zero
    rfl
  · have read := read_digits some_digit all stops
    unfold readWhole?
    split
    · next after same =>
        cases digits with
        | nil => exact absurd rfl some_digit
        | cons first others =>
            injection same with first_zero
            simp [first_zero] at starts
    · exact read

theorem read_places {places : List Char} (all : ∀ char ∈ places, Decimal.isDigit char = true)
    (stops : ∀ char ∈ rest.head?, Decimal.isDigit char = false ∧ char ≠ '.') :
    readPlaces? ((if places.isEmpty then [] else '.' :: places) ++ rest) =
      some (places, rest) := by
  cases places with
  | nil =>
      cases rest with
      | nil => rfl
      | cons next after =>
          have no_point := (stops next rfl).2
          unfold readPlaces?
          split
          · next same =>
              injection same with point
              exact absurd point no_point
          · rfl
  | cons first others =>
      exact read_digits (by simp) all fun char member => (stops char member).1

end Reading

def renderPower : Option (Bool × List Char) → List Char
  | none => []
  | some (negative, digits) => 'e' :: (if negative then '-' else '+') :: digits

theorem read_power {power : Option (Bool × List Char)} {rest : List Char}
    (plain : ∀ negative digits, power = some (negative, digits) →
      digits ≠ [] ∧ ∀ char ∈ digits, Decimal.isDigit char = true) (ends : Ends rest) :
    readPower? (renderPower power ++ rest) = some (power, rest) := by
  cases power with
  | none =>
      cases rest with
      | nil => rfl
      | cons next after =>
          have no_mark := (ends next rfl).2
          have other : ¬(next = 'e' ∨ next = 'E') := by
            rintro (rfl | rfl) <;> simp at no_mark
          simp [renderPower, readPower?, other]
  | some signed =>
      obtain ⟨negative, digits⟩ := signed
      obtain ⟨some_digit, all⟩ := plain negative digits rfl
      have read := read_digits some_digit all fun char member => (ends char member).1
      cases negative <;> simp [renderPower, readPower?, read]

theorem power_stops (power : Option (Bool × List Char)) {rest : List Char} (ends : Ends rest) :
    ∀ char ∈ (renderPower power ++ rest).head?,
      Decimal.isDigit char = false ∧ char ≠ '.' := by
  intro char member
  cases power with
  | none =>
      obtain ⟨no_digit, no_mark⟩ := ends char member
      exact ⟨no_digit, fun point => no_mark (by simp [point])⟩
  | some signed =>
      cases member
      decide

theorem places_stop (places : List Char) {rest : List Char}
    (stops : ∀ char ∈ rest.head?, Decimal.isDigit char = false) :
    ∀ char ∈ ((if places.isEmpty then [] else '.' :: places) ++ rest).head?,
      Decimal.isDigit char = false := by
  intro char member
  cases places with
  | nil => exact stops char member
  | cons first others =>
      cases member
      decide

def renderUnsigned (numeral : Numeral) : List Char :=
  numeral.whole ++ ((if numeral.places.isEmpty then [] else '.' :: numeral.places) ++
    renderPower numeral.power)

theorem render_eq_signed (numeral : Numeral) :
    numeral.render = (if numeral.negative then ['-'] else []) ++ numeral.renderUnsigned := by
  simp only [render, renderUnsigned, List.append_assoc]
  rfl

theorem unsigned_starts_with_digit {numeral : Numeral} (plain : numeral.Plain) :
    ∃ first others, numeral.renderUnsigned = first :: others ∧
      Decimal.isDigit first = true := by
  obtain ⟨some_digit, all⟩ := plain.whole
  cases digits : numeral.whole with
  | nil => exact absurd digits some_digit
  | cons first others =>
      refine ⟨first, _, by rw [renderUnsigned, digits, List.cons_append], ?_⟩
      exact all first (by simp [digits])

theorem read_unsigned {numeral : Numeral} {rest : List Char} (plain : numeral.Plain)
    (ends : Ends rest) :
    (do
      let (whole, chars) ← readWhole? (numeral.renderUnsigned ++ rest)
      let (places, chars) ← readPlaces? chars
      let (power, chars) ← readPower? chars
      return ((⟨numeral.negative, whole, places, power⟩ : Numeral), chars)) =
        some (numeral, rest) := by
  have stops := power_stops numeral.power ends
  have whole_read := read_whole plain.whole.1 plain.whole.2 plain.leading
    (places_stop numeral.places fun char member => (stops char member).1)
  rw [renderUnsigned, List.append_assoc, List.append_assoc, whole_read]
  dsimp only [bind, Option.bind]
  rw [read_places plain.places stops]
  dsimp only
  rw [read_power plain.power ends]
  rfl

theorem read_render {numeral : Numeral} {rest : List Char} (plain : numeral.Plain)
    (ends : Ends rest) : Numeral.read? (numeral.render ++ rest) = some (numeral, rest) := by
  have unsigned := read_unsigned plain ends
  rw [render_eq_signed, List.append_assoc]
  cases sign : numeral.negative with
  | true =>
      rw [sign] at unsigned
      exact unsigned
  | false =>
      rw [sign] at unsigned
      simp only [Bool.false_eq_true, if_false, List.nil_append]
      rw [Numeral.read?]
      · exact unsigned
      · intro after minus
        obtain ⟨first, others, starts, digit⟩ := unsigned_starts_with_digit plain
        rw [starts, List.cons_append] at minus
        injection minus with sign_first
        subst sign_first
        cases digit

theorem plain_of_nat (number : Nat) : (Numeral.ofNat number).Plain where
  whole := ⟨Decimal.digits_not_empty number, fun _ member => Decimal.digits_are_digits member⟩
  leading := Decimal.no_leading_zero number
  places := by simp [ofNat]
  power := by simp [ofNat]

theorem plain_of_int (number : Int) : (Numeral.ofInt number).Plain where
  whole := ⟨Decimal.digits_not_empty _, fun _ member => Decimal.digits_are_digits member⟩
  leading := Decimal.no_leading_zero _
  places := by simp [ofInt]
  power := by simp [ofInt]

theorem front_of_digits {digits : List Char} (count : Nat) (some_digit : digits ≠ [])
    (all : ∀ char ∈ digits, Decimal.isDigit char = true) (leading : digits.head? ≠ some '0') :
    (digits.take (count + 1) ≠ [] ∧
        ∀ char ∈ digits.take (count + 1), Decimal.isDigit char = true) ∧
      (digits.take (count + 1)).head? ≠ some '0' := by
  refine ⟨⟨by simp [some_digit], ?_⟩, by simpa [List.head?_take] using leading⟩
  intro char member
  exact all char (List.mem_of_mem_take member)

theorem plain_of_decimal (decimal : Decimal) : (Numeral.ofDecimal decimal).Plain := by
  have all := fun (char : Char) (member : char ∈ Decimal.digitsOf decimal.digits) =>
    Decimal.digits_are_digits member
  have some_digit := Decimal.digits_not_empty decimal.digits
  have zeros : ∀ count, ∀ char ∈ List.replicate count '0', Decimal.isDigit char = true := by
    intro count char member
    rw [List.eq_of_mem_replicate member]
    decide
  unfold ofDecimal
  dsimp only
  split
  · constructor <;> simp <;> decide
  · next positive =>
      have leading : (Decimal.digitsOf decimal.digits).head? ≠ some '0' := by
        rcases Decimal.no_leading_zero decimal.digits with zero | starts
        · have value := Decimal.of_digits_digits_of decimal.digits
          rw [zero] at value
          simp [← value, Decimal.ofDigits, Decimal.digitValue] at positive
        · exact starts
      split
      · obtain ⟨whole, starts⟩ := front_of_digits 0 some_digit all leading
        refine ⟨whole, .inr starts, ?_, ?_⟩
        · intro char member
          exact all char (List.mem_of_mem_drop member)
        · intro negative digits same
          cases same
          exact ⟨Decimal.digits_not_empty _, fun _ member => Decimal.digits_are_digits member⟩
      · split
        · refine ⟨by simp; decide, .inl rfl, ?_, by simp⟩
          intro char member
          rcases List.mem_append.mp member with zero | digit
          · exact zeros _ char zero
          · exact all char digit
        · have padded : ∀ count, ∀ char ∈ Decimal.digitsOf decimal.digits ++
              List.replicate count '0', Decimal.isDigit char = true := by
            intro count char member
            rcases List.mem_append.mp member with digit | zero
            · exact all char digit
            · exact zeros count char zero
          obtain ⟨whole, starts⟩ := front_of_digits _ (by simp [some_digit]) (padded _)
            (by simpa [List.head?_append, some_digit] using leading)
          refine ⟨whole, .inr starts, ?_, by simp⟩
          intro char member
          dsimp only at member
          split at member
          · simp at member
            subst member
            decide
          · exact padded _ char (List.mem_of_mem_drop member)

end Numeral

end Letterpress
