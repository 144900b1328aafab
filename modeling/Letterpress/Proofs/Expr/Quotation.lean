import Letterpress.Expr.Parser
import Letterpress.Proofs.Expr.Lexing

/-!
String literals and their quotes. Behind an opening quote a text closes the literal, or leaves it
open up to its end, or breaks off right behind a backslash; a quote behind a backslash closes
nothing. What leaves a literal open is refused at the quote that opened it. What breaks off
behind a backslash is not: it is read as if a quote stood in the place of the backslash.
-/

namespace Letterpress.Expr

/-- Characters inside a literal that do not close it: plain ones, and any behind a backslash. -/
inductive Content (quote : Char) : List Char → Prop
  | nothing : Content quote []
  | plain {char : Char} {rest : List Char} (other : char ≠ quote) (unescaped : char ≠ '\\')
      (inside : Content quote rest) : Content quote (char :: rest)
  | escaped (mark : Char) {rest : List Char} (inside : Content quote rest) :
      Content quote ('\\' :: mark :: rest)

inductive Balanced : List Char → Prop
  | nothing : Balanced []
  | plain {char : Char} {rest : List Char} (other : ¬ IsQuote char) (balanced : Balanced rest) :
      Balanced (char :: rest)
  | literal {quote : Char} {content rest : List Char} (opens : IsQuote quote)
      (inside : Content quote content) (balanced : Balanced rest) :
      Balanced (quote :: (content ++ quote :: rest))

/-- Behind an opening quote: the same quote follows, and is not part of an escape. -/
def Closes (quote : Char) (chars : List Char) : Prop :=
  ∃ content rest, chars = content ++ quote :: rest ∧ Content quote content

/-- Behind an opening quote: the text ends in a backslash with nothing to escape. -/
def BreaksOff (quote : Char) (chars : List Char) : Prop :=
  ∃ content, chars = content ++ ['\\'] ∧ Content quote content

section Contents

variable {quote : Char} {content rest : List Char}

theorem read_string_close (quote : Char) (rest : List Char) :
    readString? quote (quote :: rest) = some ([], rest) := by
  rw [readString?.eq_def]
  simp

theorem read_string_plain {char : Char} (other : char ≠ quote) (unescaped : char ≠ '\\') :
    readString? quote (char :: rest) =
      (readString? quote rest).map fun (content, rest) => (char :: content, rest) := by
  rw [readString?.eq_def]
  simp [other, unescaped]

theorem read_string_escape {mark : Char} (backslash : '\\' ≠ quote) :
    readString? quote ('\\' :: mark :: rest) =
      (readString? quote rest).map fun (content, rest) => (escaped mark :: content, rest) := by
  rw [readString?.eq_def]
  simp [backslash]

theorem read_token_literal (opens : IsQuote quote) :
    readToken quote rest =
      match readString? quote rest with
      | some (content, rest) => .ok (.str (String.ofList content), rest)
      | none => .error .unterminatedString := if_pos opens

theorem quote_no_backslash (opens : IsQuote quote) : '\\' ≠ quote := by
  rcases opens with rfl | rfl <;> decide

/-- How reading a literal ends depends on what follows its content only. -/
theorem content_read (opens : IsQuote quote) (inside : Content quote content) :
    readString? quote content = none ∧
      ∃ text, (∀ rest, readString? quote (content ++ quote :: rest) = some (text, rest)) ∧
        readString? quote (content ++ ['\\']) = some (text, []) := by
  have backslash := quote_no_backslash opens
  induction inside with
  | nothing =>
      refine ⟨rfl, [], fun rest => read_string_close quote rest, ?_⟩
      rw [List.nil_append, readString?.eq_def]
      simp [backslash]
  | @plain char rest other unescaped inside later =>
      obtain ⟨unclosed, text, closed, broken⟩ := later
      exact ⟨by simp [read_string_plain other unescaped, unclosed], char :: text,
        by simp [read_string_plain other unescaped, closed],
        by simp [read_string_plain other unescaped, broken]⟩
  | @escaped mark rest inside later =>
      obtain ⟨unclosed, text, closed, broken⟩ := later
      exact ⟨by simp [read_string_escape backslash, unclosed], Expr.escaped mark :: text,
        by simp [read_string_escape backslash, closed],
        by simp [read_string_escape backslash, broken]⟩

/-- Behind an opening quote one of three things happens. -/
theorem content_cases (quote : Char) (chars : List Char) :
    Closes quote chars ∨ BreaksOff quote chars ∨ Content quote chars := by
  fun_induction readString? quote chars with
  | case1 => exact .inr (.inr .nothing)
  | case2 rest => exact .inl ⟨[], rest, rfl, .nothing⟩
  | case3 backslash => exact .inr (.inl ⟨[], rfl, .nothing⟩)
  | case4 mark rest backslash later =>
      rcases later with ⟨content, behind, rfl, inside⟩ | ⟨content, rfl, inside⟩ | inside
      · exact .inl ⟨'\\' :: mark :: content, behind, rfl, .escaped mark inside⟩
      · exact .inr (.inl ⟨'\\' :: mark :: content, rfl, .escaped mark inside⟩)
      · exact .inr (.inr (.escaped mark inside))
  | case5 char rest other plain later =>
      rcases later with ⟨content, behind, rfl, inside⟩ | ⟨content, rfl, inside⟩ | inside
      · exact .inl ⟨char :: content, behind, rfl, .plain other plain inside⟩
      · exact .inr (.inl ⟨char :: content, rfl, .plain other plain inside⟩)
      · exact .inr (.inr (.plain other plain inside))

theorem open_not_closed {chars : List Char} (opens : IsQuote quote)
    (inside : Content quote chars) : ¬ Closes quote chars ∧ ¬ BreaksOff quote chars := by
  have unclosed := (content_read opens inside).1
  constructor
  · rintro ⟨content, rest, rfl, closing⟩
    obtain ⟨-, text, closed, -⟩ := content_read opens closing
    rw [closed] at unclosed
    cases unclosed
  · rintro ⟨content, rfl, breaking⟩
    obtain ⟨-, text, -, broken⟩ := content_read opens breaking
    rw [broken] at unclosed
    cases unclosed

theorem broken_not_closed {chars : List Char} (opens : IsQuote quote)
    (breaks : BreaksOff quote chars) : ¬ Closes quote chars := by
  obtain ⟨content, rfl, inside⟩ := breaks
  obtain ⟨-, text, -, broken⟩ := content_read opens inside
  rintro ⟨other, rest, parts, closing⟩
  obtain ⟨-, otherText, closed, -⟩ := content_read opens closing
  -- both ways of reading take the whole text, which would end in two different characters
  rw [parts, closed] at broken
  cases broken
  have last := congrArg List.getLast? parts
  simp only [List.getLast?_append, List.getLast?_singleton, Option.some_or] at last
  exact quote_no_backslash opens (Option.some.inj last)

theorem balanced_behind {front rest : List Char} (free : ∀ char ∈ front, ¬ IsQuote char)
    (balanced : Balanced (front ++ rest)) : Balanced rest := by
  induction front with
  | nil => exact balanced
  | cons char front later =>
      rw [List.cons_append] at balanced
      generalize behind : front ++ rest = others at balanced
      cases balanced with
      | plain other balanced =>
          exact later (fun inner member => free inner (by simp [member])) (behind ▸ balanced)
      | literal opens => exact absurd opens (free char (by simp))

theorem balanced_behind_token {first : Char} {taken after : List Char} {token : Token}
    (balanced : Balanced (first :: (taken ++ after)))
    (read : readToken first (taken ++ after) = .ok (token, after))
    (free : ¬ IsQuote first → ∀ char ∈ taken, ¬ IsQuote char) : Balanced after := by
  by_cases opens : IsQuote first
  · generalize whole : taken ++ after = rest at balanced read
    cases balanced with
    | plain other => exact absurd opens other
    | @literal _ content behind _ inside balanced =>
        obtain ⟨-, text, closed, -⟩ := content_read opens inside
        rw [read_token_literal opens, closed] at read
        cases read
        exact balanced
  · have more : ∀ char ∈ first :: taken, ¬ IsQuote char := by
      intro char member
      rcases List.mem_cons.mp member with rfl | inside
      · exact opens
      · exact free opens char inside
    exact balanced_behind more balanced

end Contents

section BeforeQuotes

variable {quote : Char}

theorem split_before {inside : Char → Bool} {stop : Char} (stops : inside stop = false)
    (chars more : List Char) :
    (chars ++ stop :: more).takeWhile inside = chars.takeWhile inside ∧
      (chars ++ stop :: more).dropWhile inside = chars.dropWhile inside ++ stop :: more := by
  induction chars with
  | nil => simp [stops]
  | cons char chars later =>
      by_cases goes : inside char = true
      · simp [goes, later]
      · simp [goes]

theorem split_number_before (opens : IsQuote quote) (chars more : List Char) :
    splitNumber (chars ++ quote :: more) =
      ((splitNumber chars).1, (splitNumber chars).2.1,
        (splitNumber chars).2.2 ++ quote :: more) := by
  have stops := quote_no_digit opens
  have noPoint : quote ≠ '.' := by
    rintro rfl
    exact absurd opens (by decide)
  simp only [splitNumber, (split_before stops chars more).1, (split_before stops chars more).2]
  cases behind : chars.dropWhile Decimal.isDigit with
  | nil => simp [noPoint]
  | cons point places =>
      by_cases isPoint : point = '.'
      · subst isPoint
        cases places with
        | nil => simp [stops]
        | cons next rest =>
            have split := split_before stops (next :: rest) more
            rw [List.cons_append] at split
            by_cases digit : Decimal.isDigit next = true
            · simp [digit, split]
            · simp [digit]
      · simp [isPoint]

theorem quote_in_no_symbol (opens : IsQuote quote) (symbol : Symbol) :
    quote ∉ symbol.text.toList := by
  rcases opens with rfl | rfl <;> cases symbol <;> decide

theorem after_text_before {wanted : List Char} (absent : quote ∉ wanted)
    (chars more : List Char) :
    afterText? wanted (chars ++ quote :: more) =
      (afterText? wanted chars).map (· ++ quote :: more) := by
  induction wanted generalizing chars with
  | nil => rfl
  | cons char wanted later =>
      rw [List.mem_cons, not_or] at absent
      cases chars with
      | nil => simp [afterText?, Ne.symm absent.1]
      | cons other chars =>
          by_cases same : char = other
          · simp [afterText?, same, later absent.2]
          · simp [afterText?, same]

theorem read_symbol_before (opens : IsQuote quote) (chars more : List Char) :
    readSymbol? (chars ++ quote :: more) =
      (readSymbol? chars).map fun (symbol, rest) => (symbol, rest ++ quote :: more) := by
  rw [readSymbol?, readSymbol?, List.map_findSome?]
  congr 1
  funext symbol
  rw [after_text_before (quote_in_no_symbol opens symbol)]
  simp [Function.comp_def]

/-- A quote ends the token before it, unless that is a literal. -/
theorem read_token_before (opens : IsQuote quote) {first : Char} (closed : ¬ IsQuote first)
    (rest more : List Char) :
    readToken first (rest ++ quote :: more) =
      (readToken first rest).map fun (token, after) => (token, after ++ quote :: more) := by
  have words := split_before (quote_continues_no_name opens) rest more
  have number := split_number_before opens (first :: rest) more
  have symbols := read_symbol_before opens (first :: rest) more
  rw [List.cons_append] at number symbols
  have closed : ¬ (first = '"' ∨ first = '\'') := closed
  unfold readToken
  rw [if_neg closed, if_neg closed]
  split
  · rw [number]
    dsimp only
    cases numberToken? (splitNumber (first :: rest)).1 (splitNumber (first :: rest)).2.1 <;> rfl
  · split
    · rw [words.1, words.2]
      rfl
    · rw [symbols]
      cases readSymbol? (first :: rest) <;> rfl

/-- A quote behind balanced characters ends the token before it. -/
theorem read_balanced_before (opens : IsQuote quote) {first : Char} {rest : List Char}
    (balanced : Balanced (first :: rest)) (more : List Char) :
    readToken first (rest ++ quote :: more) =
      (readToken first rest).map fun (token, after) => (token, after ++ quote :: more) := by
  cases balanced with
  | plain closed => exact read_token_before opens closed rest more
  | @literal _ content behind firstOpens inside =>
      obtain ⟨-, text, closed, -⟩ := content_read firstOpens inside
      rw [read_token_literal firstOpens, read_token_literal firstOpens, List.append_assoc,
        List.cons_append, closed, closed]
      rfl

theorem balanced_behind_blank {first : Char} {rest : List Char}
    (blank : Text.isBlank first = true) (balanced : Balanced (first :: rest)) : Balanced rest := by
  cases balanced with
  | plain other balanced => exact balanced
  | literal opens =>
      rcases opens with rfl | rfl <;> cases blank

theorem lex_at_opening (opens : IsQuote quote) {before : List Char} (balanced : Balanced before)
    (offset : Nat) (more : List Char) :
    lexAt offset (before ++ quote :: more) = do
      let front ← lexAt offset before
      let back ← lexAt (offset + Text.byteSize before) (quote :: more)
      return front ++ back := by
  induction offset, before using lexing with
  | ended offset =>
      rw [lex_at_nil, List.nil_append, Text.byteSize_nil, Nat.add_zero]
      cases lexAt offset (quote :: more) <;> rfl
  | blank offset first rest blank later =>
      rw [List.cons_append, lex_at_blank blank, lex_at_blank blank,
        later (balanced_behind_blank blank balanced), Text.byteSize_cons, Nat.add_assoc]
  | refused offset first rest problem visible read =>
      have readLonger := read_balanced_before opens balanced more
      rw [read] at readLonger
      rw [List.cons_append, lex_at_error visible readLonger, lex_at_error visible read]
      rfl
  | token offset first taken after token visible read free later =>
      have readLonger := read_balanced_before opens balanced more
      rw [read, List.append_assoc] at readLonger
      rw [List.cons_append, List.append_assoc, lex_at_token visible readLonger,
        lex_at_token visible read, later (balanced_behind_token balanced read free),
        ← List.cons_append, Text.byteSize_append, Nat.add_assoc]
      cases lexAt (offset + Text.byteSize (first :: taken)) after with
      | error error => rfl
      | ok front =>
          cases lexAt (offset + (Text.byteSize (first :: taken) + Text.byteSize after))
            (quote :: more) <;> rfl

end BeforeQuotes

section Literals

variable {quote : Char} {content : List Char}

theorem quote_visible (opens : IsQuote quote) : Text.isBlank quote = false := by
  rcases opens with rfl | rfl <;> decide

theorem lex_at_unclosed (opens : IsQuote quote) (inside : Content quote content) (offset : Nat) :
    lexAt offset (quote :: content) = .error ⟨.unterminatedString, offset⟩ := by
  apply lex_at_error (quote_visible opens)
  rw [read_token_literal opens, (content_read opens inside).1]

/-- A backslash at the end does what a quote does there. -/
theorem lex_at_broken (opens : IsQuote quote) (inside : Content quote content) (offset : Nat) :
    lexAt offset (quote :: (content ++ ['\\'])) = lexAt offset (quote :: (content ++ [quote])) := by
  obtain ⟨-, text, closed, broken⟩ := content_read opens inside
  have readBroken : readToken quote (content ++ ['\\'] ++ []) =
      .ok (.str (String.ofList text), []) := by
    rw [List.append_nil, read_token_literal opens, broken]
  have readClosed : readToken quote (content ++ [quote] ++ []) =
      .ok (.str (String.ofList text), []) := by
    rw [List.append_nil, read_token_literal opens, closed]
  have lexBroken : lexAt offset _ = _ := lex_at_token (quote_visible opens) readBroken
  have lexClosed : lexAt offset _ = _ := lex_at_token (quote_visible opens) readClosed
  rw [List.append_nil] at lexBroken lexClosed
  rw [lexBroken, lexClosed]
  rfl

end Literals

section Sources

variable {source : String} {error : SyntaxError}

theorem parse_of_lex_error (refused : lex source = .error error) :
    Expr.parse source = .error error ∧ LoopHeader.parse source = .error error := by
  constructor
  · rw [Expr.parse, refused]
    rfl
  · rw [LoopHeader.parse, refused]
    rfl

theorem parse_of_same_lexemes {other : String} (same : lex source = lex other)
    (size : source.utf8ByteSize = other.utf8ByteSize) :
    Expr.parse source = Expr.parse other ∧ LoopHeader.parse source = LoopHeader.parse other := by
  constructor
  · rw [Expr.parse, Expr.parse, same, size]
  · rw [LoopHeader.parse, LoopHeader.parse, same, size]

theorem lex_of_parse
    (parsed : (∃ tree, Expr.parse source = .ok tree) ∨
      ∃ header, LoopHeader.parse source = .ok header) : ∃ lexemes, lex source = .ok lexemes := by
  cases lexed : lex source with
  | ok lexemes => exact ⟨lexemes, rfl⟩
  | error error =>
      obtain ⟨expression, header⟩ := parse_of_lex_error lexed
      rcases parsed with ⟨tree, parsed⟩ | ⟨found, parsed⟩
      · rw [expression] at parsed
        cases parsed
      · rw [header] at parsed
        cases parsed

end Sources

/-- Where a quote opens a literal, the text has the same quote further on, unescaped, or ends right
behind a backslash, or else is refused at the opening quote, unless what stands before is refused
already. A backslash at the end is read like the closing quote. -/
theorem literals_closed_or_refused {source before after : String} {quote : Char}
    (parts : source = before ++ String.singleton quote ++ after) (opens : IsQuote quote)
    (balanced : Balanced before.toList) :
    ((∃ tree, Expr.parse source = .ok tree) ∨ (∃ header, LoopHeader.parse source = .ok header) →
      Closes quote after.toList ∨ BreaksOff quote after.toList) ∧
    (¬ Closes quote after.toList → ¬ BreaksOff quote after.toList →
      (∀ lexemes, lex before = .ok lexemes →
        ∃ error, Expr.parse source = .error error ∧ LoopHeader.parse source = .error error ∧
          error.problem.message = "unterminated string literal" ∧
          error.offset = before.utf8ByteSize) ∧
      (∀ error, lex before = .error error →
        Expr.parse source = .error error ∧ LoopHeader.parse source = .error error)) ∧
    (∀ content, after = content ++ "\\" → Content quote content.toList →
      ∀ closed, closed = before ++ String.singleton quote ++ content ++ String.singleton quote →
        Expr.parse source = Expr.parse closed ∧
          LoopHeader.parse source = LoopHeader.parse closed) := by
  have chars : source.toList = before.toList ++ quote :: after.toList := by
    rw [parts, String.toList_append, String.toList_append, String.toList_singleton,
      List.append_assoc, List.singleton_append]
  have lexed : lex source = do
      let front ← lex before
      let back ← lexAt (0 + Text.byteSize before.toList) (quote :: after.toList)
      return front ++ back := by
    change lexAt 0 source.toList = _
    rw [chars]
    exact lex_at_opening opens balanced 0 after.toList
  have unclosed (inside : Content quote after.toList) :
      lex source = lex before >>= fun _ => .error ⟨.unterminatedString, before.utf8ByteSize⟩ := by
    rw [lexed, lex_at_unclosed opens inside, Nat.zero_add, Text.byteSize_eq]
    cases lex before <;> rfl
  refine ⟨?_, ?_, ?_⟩
  · intro parsed
    rcases content_cases quote after.toList with closes | breaks | inside
    · exact .inl closes
    · exact .inr breaks
    · obtain ⟨lexemes, found⟩ := lex_of_parse parsed
      rw [unclosed inside] at found
      cases front : lex before with
      | ok _ =>
          rw [front] at found
          cases found
      | error _ =>
          rw [front] at found
          cases found
  · intro notClosed notBroken
    have inside : Content quote after.toList := by
      rcases content_cases quote after.toList with closes | breaks | inside
      · exact absurd closes notClosed
      · exact absurd breaks notBroken
      · exact inside
    have refused := unclosed inside
    constructor
    · intro lexemes front
      rw [front] at refused
      obtain ⟨expression, header⟩ := parse_of_lex_error refused
      exact ⟨_, expression, header, rfl, rfl⟩
    · intro error front
      rw [front] at refused
      exact parse_of_lex_error refused
  · rintro content rfl inside closed rfl
    apply parse_of_same_lexemes
    · rw [lexed, String.toList_append]
      change (do
        let front ← lex before
        let back ← lexAt (0 + Text.byteSize before.toList) (quote :: (content.toList ++ ['\\']))
        return front ++ back) = lexAt 0 _
      rw [lex_at_broken opens inside, String.toList_append, String.toList_append,
        String.toList_append, String.toList_singleton, List.append_assoc, List.append_assoc,
        List.singleton_append, lex_at_opening opens balanced]
      rfl
    · rw [parts]
      rcases opens with rfl | rfl <;> simp [String.utf8ByteSize_append] <;> rfl

/-- An escaped quote does not close the literal in which it stands. -/
theorem escaped_quote_leaves_open :
    ∃ error, Expr.parse "x + 'it\\'s" = .error error ∧
      LoopHeader.parse "x + 'it\\'s" = .error error ∧
      error.problem.message = "unterminated string literal" ∧ error.offset = 4 := by
  have inside : Content '\'' ['i', 't', '\\', '\'', 's'] :=
    .plain (by decide) (by decide) (.plain (by decide) (by decide)
      (.escaped '\'' (.plain (by decide) (by decide) .nothing)))
  have balanced : Balanced ['x', ' ', '+', ' '] :=
    .plain (by decide) (.plain (by decide) (.plain (by decide) (.plain (by decide) .nothing)))
  have notClosed := open_not_closed (.inr rfl) inside
  have parts : "x + 'it\\'s" = "x + " ++ String.singleton '\'' ++ "it\\'s" := rfl
  exact ((literals_closed_or_refused parts (.inr rfl) balanced).2.1 notClosed.1 notClosed.2).1
    [⟨.name "x", 0⟩, ⟨.symbol .plus, 2⟩] rfl

/-- A backslash at the end of the text is taken for the closing quote. -/
theorem lone_backslash_closes :
    Expr.parse "'a\\" = .ok (.literal (.str "a")) ∧ ¬ Closes '\'' "a\\".toList := by
  refine ⟨rfl, broken_not_closed (.inr rfl) ⟨['a'], rfl, ?_⟩⟩
  exact .plain (by decide) (by decide) .nothing

end Letterpress.Expr
