import Letterpress.Expr.Token
import Letterpress.Proofs.Outcome
import Letterpress.Proofs.Text.Pieces

/-!
How a text falls into lexemes, without a count of steps. Each token is a piece of the text, and
the next one is looked for right behind it. A character that goes on with no token ends every
token before it, so that the text up to there falls into the same lexemes as it does alone.
-/

namespace Letterpress.Expr

def IsQuote (char : Char) : Prop := char = '"' ∨ char = '\''

instance (char : Char) : Decidable (IsQuote char) := inferInstanceAs (Decidable (_ ∨ _))

section Taking

variable {first : Char} {rest after : List Char} {token : Token}

theorem after_text_iff {wanted chars rest : List Char} :
    afterText? wanted chars = some rest ↔ chars = wanted ++ rest := by
  induction wanted generalizing chars with
  | nil => simp [afterText?]
  | cons char more later =>
      cases chars with
      | nil => simp [afterText?]
      | cons other others =>
          by_cases same : char = other
          · simp [afterText?, same, later]
          · simp [afterText?, same, Ne.symm same]

theorem read_symbol_taken {chars : List Char} {symbol : Symbol}
    (read : readSymbol? chars = some (symbol, rest)) : chars = symbol.text.toList ++ rest := by
  obtain ⟨found, -, starts⟩ := List.exists_of_findSome?_eq_some read
  obtain ⟨behind, taken, same⟩ := Option.map_eq_some_iff.mp starts
  cases same
  exact after_text_iff.mp taken

theorem symbol_text (symbol : Symbol) : ∃ char more, symbol.text.toList = char :: more ∧
    ∀ other ∈ more, ¬ IsQuote other := by
  have free : (symbol.text.toList.all fun other => !decide (IsQuote other)) = true := by
    cases symbol <;> rfl
  cases spelled : symbol.text.toList with
  | nil => cases symbol <;> cases spelled
  | cons char more =>
      refine ⟨char, more, rfl, fun other member => ?_⟩
      simpa using List.all_eq_true.mp free other (by simp [spelled, member])

theorem split_number_taken {whole places : List Char} (digit : Decimal.isDigit first = true)
    (split : splitNumber (first :: rest) = (whole, places, after)) :
    ∃ taken, rest = taken ++ after ∧
      ∀ char ∈ taken, Decimal.isDigit char = true ∨ char = '.' := by
  have digits {char : Char} {chars : List Char} (member : char ∈ chars.takeWhile Decimal.isDigit) :
      Decimal.isDigit char = true := List.mem_takeWhile_imp member
  have parts : rest = rest.takeWhile Decimal.isDigit ++ rest.dropWhile Decimal.isDigit :=
    List.takeWhile_append_dropWhile.symm
  simp only [splitNumber, List.dropWhile_cons_of_pos digit] at split
  split at split
  · next next more behind =>
      split at split
      · cases split
        refine ⟨rest.takeWhile Decimal.isDigit ++
          '.' :: (next :: more).takeWhile Decimal.isDigit, ?_, ?_⟩
        · rw [List.append_assoc, List.cons_append, List.takeWhile_append_dropWhile, ← behind]
          exact parts
        · intro char member
          rcases List.mem_append.mp member with inside | inside
          · exact .inl (digits inside)
          · rcases List.mem_cons.mp inside with point | place
            · exact .inr point
            · exact .inl (digits place)
      · cases split
        exact ⟨_, parts, fun char member => .inl (digits member)⟩
  · cases split
    exact ⟨_, parts, fun char member => .inl (digits member)⟩

theorem read_string_taken {quote : Char} {chars content : List Char}
    (read : readString? quote chars = some (content, rest)) : ∃ taken, chars = taken ++ rest := by
  fun_induction readString? quote chars generalizing content with
  | case1 => cases read
  | case2 more =>
      cases read
      exact ⟨[quote], rfl⟩
  | case3 backslash =>
      cases read
      exact ⟨['\\'], rfl⟩
  | case4 mark more backslash later =>
      obtain ⟨⟨text, behind⟩, readMore, same⟩ := Option.map_eq_some_iff.mp read
      cases same
      obtain ⟨taken, parts⟩ := later readMore
      exact ⟨'\\' :: mark :: taken, by simp [parts]⟩
  | case5 char more open_ plain later =>
      obtain ⟨⟨text, behind⟩, readMore, same⟩ := Option.map_eq_some_iff.mp read
      cases same
      obtain ⟨taken, parts⟩ := later readMore
      exact ⟨char :: taken, by simp [parts]⟩

theorem quote_no_digit (opens : IsQuote first) : Decimal.isDigit first = false := by
  rcases opens with rfl | rfl <;> decide

theorem quote_continues_no_name (opens : IsQuote first) : continuesName first = false := by
  rcases opens with rfl | rfl <;> decide

theorem not_quote_of_continues (continues : continuesName first = true) : ¬ IsQuote first := by
  intro opens
  rw [quote_continues_no_name opens] at continues
  cases continues

theorem not_quote_of_number (inside : Decimal.isDigit first = true ∨ first = '.') :
    ¬ IsQuote first := by
  rintro opens
  rcases inside with digit | rfl
  · rw [quote_no_digit opens] at digit
    cases digit
  · exact absurd opens (by decide)

/-- A token is a piece of the text, and holds no quote unless it starts with one. -/
theorem read_token_taken (read : readToken first rest = .ok (token, after)) :
    ∃ taken, rest = taken ++ after ∧ (¬ IsQuote first → ∀ char ∈ taken, ¬ IsQuote char) := by
  unfold readToken at read
  split at read
  · next opens =>
      split at read
      · next content behind readContent =>
          cases read
          obtain ⟨taken, parts⟩ := read_string_taken readContent
          exact ⟨taken, parts, fun closed => absurd opens closed⟩
      · cases read
  split at read
  · next digit =>
      dsimp only at read
      split at read
      · cases read
        obtain ⟨taken, parts, inside⟩ := split_number_taken digit (Prod.eta _).symm
        exact ⟨taken, parts, fun _ char member => not_quote_of_number (inside char member)⟩
      · cases read
  split at read
  · cases read
    refine ⟨rest.takeWhile continuesName, List.takeWhile_append_dropWhile.symm, ?_⟩
    intro _ char member
    exact not_quote_of_continues (List.mem_takeWhile_imp member)
  · split at read
    · next symbol behind readSymbol =>
        cases read
        have parts := read_symbol_taken readSymbol
        obtain ⟨char, more, spelled, free⟩ := symbol_text symbol
        rw [spelled, List.cons_append] at parts
        exact ⟨more, (List.cons.inj parts).2, fun _ => free⟩
    · cases read

end Taking

section Steps

variable {offset : Nat} {first : Char} {rest taken after : List Char} {token : Token}

def lexAt (offset : Nat) (chars : List Char) : Except SyntaxError (List Lexeme) :=
  lexFrom chars.length offset chars

theorem lex_from_enough {chars : List Char} (fuel other offset : Nat)
    (enough : chars.length ≤ fuel) (also : chars.length ≤ other) :
    lexFrom fuel offset chars = lexFrom other offset chars := by
  induction fuel generalizing other offset chars with
  | zero =>
      obtain rfl := List.length_eq_zero_iff.mp (Nat.le_zero.mp enough)
      cases other <;> rfl
  | succ fuel later =>
      cases chars with
      | nil => cases other <;> rfl
      | cons first rest =>
          rw [List.length_cons] at enough also
          obtain ⟨other, rfl⟩ := Nat.exists_eq_succ_of_ne_zero (by omega : other ≠ 0)
          simp only [lexFrom]
          split
          · exact later other _ (by omega) (by omega)
          · split
            · rfl
            · next token after read =>
                obtain ⟨taken, rfl, -⟩ := read_token_taken read
                rw [List.length_append] at enough also
                rw [later other _ (by omega) (by omega)]

theorem lex_at_nil (offset : Nat) : lexAt offset [] = .ok [] := rfl

theorem lex_at_blank (blank : Text.isBlank first = true) :
    lexAt offset (first :: rest) = lexAt (offset + first.utf8Size) rest := by
  simp only [lexAt, List.length_cons, lexFrom, blank, if_true]

theorem lex_at_error {problem : SyntaxProblem} (visible : Text.isBlank first = false)
    (read : readToken first rest = .error problem) :
    lexAt offset (first :: rest) = .error ⟨problem, offset⟩ := by
  simp [lexAt, lexFrom, visible, read]

theorem lex_at_token (visible : Text.isBlank first = false)
    (read : readToken first (taken ++ after) = .ok (token, after)) :
    lexAt offset (first :: (taken ++ after)) =
      (lexAt (offset + Text.byteSize (first :: taken)) after).map (⟨token, offset⟩ :: ·) := by
  have size : Text.byteSize (first :: (taken ++ after)) - Text.byteSize after =
      Text.byteSize (first :: taken) := by
    rw [← List.cons_append, Text.byteSize_append, Nat.add_sub_cancel]
  simp only [lexAt, List.length_cons, lexFrom, visible, Bool.false_eq_true, if_false, read, size]
  rw [lex_from_enough _ after.length _ (by simp) (Nat.le_refl _)]

/-- Induction over the lexemes of a text: it is at its end, or goes on with a blank, with what is
no token, or with a token. -/
theorem lexing {motive : Nat → List Char → Prop} (ended : ∀ offset, motive offset [])
    (blank : ∀ offset first rest, Text.isBlank first = true →
      motive (offset + first.utf8Size) rest → motive offset (first :: rest))
    (refused : ∀ offset first rest problem, Text.isBlank first = false →
      readToken first rest = .error problem → motive offset (first :: rest))
    (token : ∀ offset first taken after token, Text.isBlank first = false →
      readToken first (taken ++ after) = .ok (token, after) →
      (¬ IsQuote first → ∀ char ∈ taken, ¬ IsQuote char) →
      motive (offset + Text.byteSize (first :: taken)) after →
      motive offset (first :: (taken ++ after)))
    (offset : Nat) (chars : List Char) : motive offset chars := by
  induction size : chars.length using Nat.strongRecOn generalizing offset chars with
  | ind length shorter =>
      cases chars with
      | nil => exact ended offset
      | cons first rest =>
          rw [List.length_cons] at size
          cases visible : Text.isBlank first with
          | true => exact blank offset first rest visible (shorter _ (by omega) _ _ rfl)
          | false =>
              cases read : readToken first rest with
              | error problem => exact refused offset first rest problem visible read
              | ok result =>
                  obtain ⟨found, after⟩ := result
                  obtain ⟨taken, rfl, free⟩ := read_token_taken read
                  rw [List.length_append] at size
                  exact token offset first taken after found visible read free
                    (shorter _ (by omega) _ _ rfl)

/-- Where a lexeme stands in a text, its token is what is read there. -/
def StandsIn (chars : List Char) (offset : Nat) (lexeme : Lexeme) : Prop :=
  ∃ before first rest after, chars = before ++ first :: rest ∧
    offset + Text.byteSize before = lexeme.offset ∧
    readToken first rest = .ok (lexeme.token, after)

theorem lexed_stand {chars : List Char} {lexemes : List Lexeme}
    (lexed : lexAt offset chars = .ok lexemes) :
    ∀ lexeme ∈ lexemes, StandsIn chars offset lexeme := by
  induction offset, chars using lexing generalizing lexemes with
  | ended offset =>
      cases lexed
      simp
  | blank offset first rest blank later =>
      rw [lex_at_blank blank] at lexed
      intro lexeme member
      obtain ⟨before, other, others, after, rfl, place, read⟩ := later lexed lexeme member
      exact ⟨first :: before, other, others, after, rfl, by simp [← place, Nat.add_assoc], read⟩
  | refused offset first rest problem visible read =>
      rw [lex_at_error visible read] at lexed
      cases lexed
  | token offset first taken after token visible read free later =>
      rw [lex_at_token visible read] at lexed
      cases behind : lexAt (offset + Text.byteSize (first :: taken)) after with
      | error error =>
          rw [behind] at lexed
          cases lexed
      | ok others =>
          rw [behind] at lexed
          cases lexed
          intro lexeme member
          rcases List.mem_cons.mp member with rfl | inside
          · exact ⟨[], first, taken ++ after, after, rfl, by simp, read⟩
          · obtain ⟨before, other, more, rest, rfl, place, readOther⟩ :=
              later behind lexeme inside
            exact ⟨first :: (taken ++ before), other, more, rest, by simp,
              by simp [← place, Nat.add_assoc], readOther⟩

end Steps

end Letterpress.Expr
