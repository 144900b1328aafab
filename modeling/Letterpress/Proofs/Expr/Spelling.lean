import Letterpress.Proofs.Expr.Quotation
import Letterpress.Proofs.Json.Numeral

/-!
Tokens as text. A token has texts that are read as it, wherever what follows does not go on with
it; tokens in a row may be laid out with any blanks between them, or with none where the next
text ends the token before it. However they are laid out, a text falls into the same tokens.
-/

namespace Letterpress.Expr

def escape (quote : Char) (content : List Char) : List Char :=
  content.flatMap fun char => if char = quote ∨ char = '\\' then ['\\', char] else [char]

inductive Spelled : Token → List Char → Prop
  | name {first : Char} {rest : List Char} (starts : startsName first = true)
      (continues : ∀ char ∈ rest, continuesName char = true) :
      Spelled (.name (.ofList (first :: rest))) (first :: rest)
  | str {quote : Char} (opens : IsQuote quote) (content : List Char) :
      Spelled (.str (.ofList content)) (quote :: (escape quote content ++ [quote]))
  | int {number : Nat} (fits : Value.fitsInt number = true) :
      Spelled (.int (.ofInt number)) (Decimal.digitsOf number)
  | symbol (symbol : Symbol) : Spelled (.symbol symbol) symbol.text.toList

def Token.EndsBefore (next : Char) : Token → Prop
  | .name _ => continuesName next = false
  | .str _ => True
  | .int _ => Decimal.isDigit next = false ∧ next ≠ '.'
  | .float _ => Decimal.isDigit next = false ∧ next ≠ '.'
  | .symbol sign => next = '=' → sign ∉ [.less, .greater, .bang, .equal, .unequal]

def Ends (token : Token) (rest : List Char) : Prop := ∀ next ∈ rest.head?, token.EndsBefore next

inductive Laid : List Token → List Char → Prop
  | nothing : Laid [] []
  | blank {char : Char} {tokens : List Token} {rest : List Char}
      (blank : Text.isBlank char = true) (behind : Laid tokens rest) : Laid tokens (char :: rest)
  | token {token : Token} {text : List Char} {tokens : List Token} {rest : List Char}
      (spelled : Spelled token text) (ends : Ends token rest) (behind : Laid tokens rest) :
      Laid (token :: tokens) (text ++ rest)

section Characters

variable {char : Char}

def wideBlanks : List (Nat × Nat) :=
  [(0x85, 0x85), (0xA0, 0xA0), (0x1680, 0x1680), (0x2000, 0x200A), (0x2028, 0x2029),
    (0x202F, 0x202F), (0x205F, 0x205F), (0x3000, 0x3000)]

theorem letters_apart_from_blanks : ∀ letters ∈ Text.alphabeticRanges, ∀ blanks ∈ wideBlanks,
    letters.2 < blanks.1 ∨ blanks.2 < letters.1 := by
  decide +kernel

theorem blank_is_wide (blank : Text.isBlank char = true) (wide : 0x80 ≤ char.toNat) :
    ∃ blanks ∈ wideBlanks, blanks.1 ≤ char.toNat ∧ char.toNat ≤ blanks.2 := by
  simp only [Text.isBlank, Bool.or_eq_true, Bool.and_eq_true, decide_eq_true_eq,
    beq_iff_eq] at blank
  simp only [wideBlanks, List.mem_cons, List.not_mem_nil, or_false, exists_eq_or_imp,
    exists_eq_left]
  omega

theorem ascii_letter (letter : char.isAlpha = true) :
    65 ≤ char.toNat ∧ char.toNat ≤ 90 ∨ 97 ≤ char.toNat ∧ char.toNat ≤ 122 := by
  rcases Bool.or_eq_true_iff.mp letter with upper | lower
  · exact .inl (of_decide_eq_true upper)
  · obtain ⟨low, high⟩ := Bool.and_eq_true_iff.mp lower
    exact .inr ⟨of_decide_eq_true low, of_decide_eq_true high⟩

theorem letter_not_blank (letter : Text.isAlphabetic char = true) :
    Text.isBlank char = false := by
  by_contra blank
  rw [Bool.not_eq_false] at blank
  unfold Text.isAlphabetic at letter
  split at letter
  · have code := ascii_letter letter
    simp only [Text.isBlank, Bool.or_eq_true, Bool.and_eq_true, decide_eq_true_eq,
      beq_iff_eq] at blank
    omega
  · next wide =>
      obtain ⟨letters, listed, inside⟩ := List.any_eq_true.mp letter
      rw [Bool.and_eq_true, decide_eq_true_eq, decide_eq_true_eq] at inside
      obtain ⟨blanks, also, around⟩ := blank_is_wide blank (Nat.le_of_not_lt wide)
      have apart := letters_apart_from_blanks letters listed blanks also
      omega

/-- Names start with none of the characters that are looked for before names are. -/
theorem letter_code (letter : Text.isAlphabetic char = true) : 65 ≤ char.toNat := by
  unfold Text.isAlphabetic at letter
  split at letter
  · have code := ascii_letter letter
    omega
  · omega

theorem starts_cases (starts : startsName char = true) :
    Text.isAlphabetic char = true ∨ char = '_' ∨ char = '$' := by
  simpa [startsName, or_assoc] using starts

theorem start_not_blank (starts : startsName char = true) : Text.isBlank char = false := by
  rcases starts_cases starts with letter | rfl | rfl
  · exact letter_not_blank letter
  · decide
  · decide

theorem start_not_quote (starts : startsName char = true) : ¬ IsQuote char := by
  rcases starts_cases starts with letter | rfl | rfl
  · have code := letter_code letter
    rintro (rfl | rfl) <;> exact absurd code (by decide)
  · decide
  · decide

theorem start_not_digit (starts : startsName char = true) : Decimal.isDigit char = false := by
  rcases starts_cases starts with letter | rfl | rfl
  · have code := letter_code letter
    by_contra digit
    simp only [Decimal.isDigit, Char.le_def, Bool.not_eq_false, Bool.and_eq_true,
      decide_eq_true_eq] at digit
    have high : char.toNat ≤ 57 := digit.2
    omega
  · decide
  · decide

end Characters

section Reading

variable {quote first : Char} {rest : List Char}

theorem read_escaped (opens : IsQuote quote) (content rest : List Char) :
    readString? quote (escape quote content ++ quote :: rest) = some (content, rest) := by
  have backslash := quote_no_backslash opens
  induction content with
  | nil => exact read_string_close quote rest
  | cons char content later =>
      rw [escape, List.flatMap_cons, ← escape]
      by_cases special : char = quote ∨ char = '\\'
      · have itself : escaped char = char := by
          rcases special with rfl | rfl
          · rcases opens with rfl | rfl <;> rfl
          · rfl
        rw [if_pos special, List.append_assoc]
        simp only [List.cons_append, List.nil_append, read_string_escape backslash, later, itself,
          Option.map_some]
      · rw [if_neg special, List.append_assoc]
        rw [not_or] at special
        simp only [List.cons_append, List.nil_append, read_string_plain special.1 special.2, later,
          Option.map_some]

theorem read_name {continued : List Char} (starts : startsName first = true)
    (continues : ∀ char ∈ continued, continuesName char = true)
    (ends : Ends (.name (.ofList (first :: continued))) rest) :
    readToken first (continued ++ rest) = .ok (.name (.ofList (first :: continued)), rest) := by
  have taken : (continued ++ rest).takeWhile continuesName = continued ∧
      (continued ++ rest).dropWhile continuesName = rest := by
    rw [List.takeWhile_append_of_pos continues, List.dropWhile_append_of_pos continues]
    cases rest with
    | nil => simp
    | cons next after =>
        have stop : continuesName next = false := ends next rfl
        simp [stop]
  simp only [readToken, start_not_digit starts, starts, taken]
  exact if_neg (start_not_quote starts)

theorem digit_not_quote (digit : Decimal.isDigit first = true) : ¬ IsQuote first := by
  intro opens
  rw [quote_no_digit opens] at digit
  cases digit

theorem read_int {number : Nat} (fits : Value.fitsInt number = true) {digits : List Char}
    (spelled : Decimal.digitsOf number = first :: digits)
    (ends : Ends (.int (.ofInt number)) rest) :
    readToken first (digits ++ rest) = .ok (.int (.ofInt number), rest) := by
  have digit (char : Char) (member : char ∈ first :: digits) : Decimal.isDigit char = true :=
    Decimal.digits_are_digits (spelled ▸ member)
  have split : splitNumber (first :: (digits ++ rest)) = (first :: digits, [], rest) := by
    have stops : ∀ next ∈ rest.head?, Decimal.isDigit next = false :=
      fun next member => (ends next member).1
    obtain ⟨taken, dropped⟩ := Numeral.take_digits digit stops
    rw [List.cons_append] at taken dropped
    simp only [splitNumber, taken, dropped]
    split
    · next next after =>
        have stop : '.' ≠ '.' := (ends '.' rfl).2
        exact absurd rfl stop
    · rfl
  have value : Decimal.ofDigits (first :: digits) = number := by
    rw [← spelled, Decimal.of_digits_digits_of]
  have opens := digit_not_quote (digit first (by simp))
  simp only [IsQuote] at opens
  simp [readToken, opens, digit first (by simp), split, numberToken?, value, fits]

theorem symbol_first (symbol : Symbol) : ∀ first ∈ symbol.text.toList.head?,
    Text.isBlank first = false ∧ ¬ IsQuote first ∧ Decimal.isDigit first = false ∧
      startsName first = false := by
  cases symbol <;> rintro first ⟨⟩ <;> decide

theorem no_longer_text (ends : '=' ∉ rest.head?) (more : List Char) :
    afterText? ('=' :: more) rest = none := by
  cases rest with
  | nil => rfl
  | cons next after =>
      have other : '=' ≠ next := fun same => ends (same ▸ rfl)
      simp [afterText?, other]

theorem read_symbol_text {symbol : Symbol} (ends : Ends (.symbol symbol) rest) :
    readSymbol? (symbol.text.toList ++ rest) = some (symbol, rest) := by
  have longer (extends_to : symbol ∈ [.less, .greater, .bang, .equal, .unequal])
      (more : List Char) : afterText? ('=' :: more) rest = none :=
    no_longer_text (fun member => ends '=' member rfl extends_to) more
  cases symbol <;> simp [readSymbol?, Symbol.all, Symbol.text, afterText?, longer]

theorem read_symbol {symbol : Symbol} {more : List Char}
    (spelled : symbol.text.toList = first :: more) (ends : Ends (.symbol symbol) rest) :
    readToken first (more ++ rest) = .ok (.symbol symbol, rest) := by
  obtain ⟨-, opens, digit, starts⟩ := symbol_first symbol first (by simp [spelled])
  have read := read_symbol_text ends
  rw [spelled, List.cons_append] at read
  simp only [IsQuote] at opens
  simp [readToken, opens, digit, starts, read]

/-- A text of a token is read as the token, if what follows does not go on with it. -/
theorem spelled_read {token : Token} {text : List Char} (spelled : Spelled token text)
    (ends : Ends token rest) : ∃ first more, text = first :: more ∧
      Text.isBlank first = false ∧ readToken first (more ++ rest) = .ok (token, rest) := by
  cases spelled with
  | name starts continues =>
      exact ⟨_, _, rfl, start_not_blank starts, read_name starts continues ends⟩
  | @str quote opens content =>
      refine ⟨quote, _, rfl, quote_visible opens, ?_⟩
      rw [List.append_assoc, List.singleton_append, read_token_literal opens,
        read_escaped opens content rest]
  | @int number fits =>
      cases spelled : Decimal.digitsOf number with
      | nil => exact absurd spelled (Decimal.digits_not_empty number)
      | cons first digits =>
          have digit : Decimal.isDigit first = true :=
            Decimal.digits_are_digits (spelled ▸ List.mem_cons_self)
          exact ⟨first, digits, rfl, Decimal.digit_not_blank digit, read_int fits spelled ends⟩
  | symbol symbol =>
      cases spelled : symbol.text.toList with
      | nil => cases symbol <;> cases spelled
      | cons first more =>
          have plain := symbol_first symbol first (by simp [spelled])
          exact ⟨first, more, rfl, plain.1, read_symbol spelled ends⟩

theorem laid_lexed {tokens : List Token} {chars : List Char} (laid : Laid tokens chars)
    (offset : Nat) :
    ∃ lexemes, lexAt offset chars = .ok lexemes ∧ lexemes.map Lexeme.token = tokens := by
  induction laid generalizing offset with
  | nothing => exact ⟨[], lex_at_nil offset, rfl⟩
  | blank blank behind lexed =>
      rw [lex_at_blank blank]
      exact lexed _
  | @token token text tokens rest spelled ends behind lexed =>
      obtain ⟨first, more, rfl, visible, read⟩ := spelled_read spelled ends
      obtain ⟨lexemes, later, same⟩ := lexed (offset + Text.byteSize (first :: more))
      refine ⟨⟨token, offset⟩ :: lexemes, ?_, by rw [List.map_cons, same]⟩
      rw [List.cons_append, lex_at_token visible read, later]
      rfl

end Reading

end Letterpress.Expr
