import Letterpress.Proofs.Expr.Reading

/-!
The headers of loops against their grammar: an opening parenthesis or none, a declaring word
or none, one name or two, a word before the iterable, the iterable, and the parenthesis that
closes. A declaring word at the front is always taken as one, so a header whose variable has
such a name needs another in front of it.
-/

namespace Letterpress.LoopHeader

open Letterpress.Expr

def declarations : List String := ["let", "const", "var"]

def loopWords : List String := ["of", "in"]

/-- The header of a loop, as the grammar has it. A word that declares is never a variable
unless another one stands before it. -/
structure Heading where
  wrapped : Bool
  declaration : Option String
  first : String
  second : Option String
  word : String
  iterable : Phrase .disjunction
  declares : ∀ declaring ∈ declaration, declaring ∈ declarations
  undeclared : declaration = none → first ∉ declarations
  free : ∀ name ∈ first :: second.toList, name ∉ reserved
  introduces : word ∈ loopWords

namespace Heading

def opening : Bool → List Token
  | true => [.symbol .openParen]
  | false => []

def closing : Bool → List Token
  | true => [.symbol .closeParen]
  | false => []

def variableTokens (first : String) (second : Option String) : List Token :=
  .name first :: second.toList.flatMap fun name => [.symbol .comma, .name name]

def tokens (heading : Heading) : List Token :=
  opening heading.wrapped ++ (heading.declaration.toList.map .name ++
    (variableTokens heading.first heading.second ++
      .name heading.word :: (heading.iterable.tokens ++ closing heading.wrapped)))

def header (heading : Heading) : LoopHeader :=
  ⟨heading.first :: heading.second.toList, heading.iterable.tree⟩

end Heading

open Heading

theorem variable_iff {input rest : List Lexeme} {name : String} :
    readVariable input = .ok (name, rest) ↔
      name ∉ reserved ∧ ∃ offset, input = ⟨.name name, offset⟩ :: rest := by
  constructor
  · intro read
    unfold readVariable at read
    split at read
    · next word offset after =>
        split at read
        · cases read
        · next free =>
            cases read
            exact ⟨free, offset, rfl⟩
    · cases read
  · rintro ⟨free, offset, rfl⟩
    exact if_neg free

theorem loop_word_iff {input rest : List Lexeme} : expectLoopWord input = .ok rest ↔
    ∃ word ∈ loopWords, ∃ offset, input = ⟨.name word, offset⟩ :: rest := by
  constructor
  · intro read
    unfold expectLoopWord at read
    split at read
    · next word offset after =>
        split at read
        · next introduces =>
            cases read
            exact ⟨word, by simpa [loopWords] using introduces, offset, rfl⟩
        · cases read
    · cases read
  · rintro ⟨word, introduces, offset, rfl⟩
    exact if_pos (by simpa [loopWords] using introduces)

theorem opening_taken (input : List Lexeme) :
    input.map Lexeme.token =
      opening (skipOpening input).1 ++ (skipOpening input).2.map Lexeme.token := by
  unfold skipOpening
  split <;> rfl

theorem skip_opening {front rest : List Lexeme} {wrapped : Bool}
    (spelled : front.map Lexeme.token = opening wrapped)
    (starts : ∃ name more, rest.map Lexeme.token = .name name :: more) :
    skipOpening (front ++ rest) = (wrapped, rest) := by
  obtain ⟨name, more, starts⟩ := starts
  cases wrapped with
  | true =>
      obtain ⟨⟨_, offset⟩, none, rfl, rfl, empty⟩ := List.map_eq_cons_iff.mp spelled
      obtain rfl := List.map_eq_nil_iff.mp empty
      rfl
  | false =>
      obtain rfl := List.map_eq_nil_iff.mp spelled
      obtain ⟨⟨_, offset⟩, others, rfl, rfl, -⟩ := List.map_eq_cons_iff.mp starts
      rfl

theorem declaration_taken (input : List Lexeme) : ∃ declaration : Option String,
    (∀ declaring ∈ declaration, declaring ∈ declarations) ∧
      (declaration = none → ∀ name ∈ declarations, ∀ more,
        (skipDeclaration input).map Lexeme.token ≠ .name name :: more) ∧
      input.map Lexeme.token =
        declaration.toList.map .name ++ (skipDeclaration input).map Lexeme.token := by
  unfold skipDeclaration
  split
  · next word offset rest =>
      split
      · next declares =>
          exact ⟨some word, by simpa [declarations] using declares, by simp, rfl⟩
      · next declares =>
          refine ⟨none, by simp, ?_, rfl⟩
          rintro - name named more same
          cases same
          exact declares named
  · next other =>
      refine ⟨none, by simp, ?_, rfl⟩
      rintro - name named more same
      obtain ⟨⟨_, offset⟩, others, rfl, rfl, -⟩ := List.map_eq_cons_iff.mp same
      exact other _ _ _ rfl

theorem skip_declaration {front rest : List Lexeme} {declaration : Option String}
    {first : String} {more : List Token}
    (spelled : front.map Lexeme.token = declaration.toList.map .name)
    (starts : rest.map Lexeme.token = .name first :: more)
    (declares : ∀ declaring ∈ declaration, declaring ∈ declarations)
    (undeclared : declaration = none → first ∉ declarations) :
    skipDeclaration (front ++ rest) = rest := by
  cases declaration with
  | some declaring =>
      obtain ⟨⟨_, offset⟩, none, rfl, rfl, empty⟩ := List.map_eq_cons_iff.mp spelled
      obtain rfl := List.map_eq_nil_iff.mp empty
      exact if_pos (declares declaring rfl)
  | none =>
      obtain rfl := List.map_eq_nil_iff.mp spelled
      obtain ⟨⟨_, offset⟩, others, rfl, rfl, -⟩ := List.map_eq_cons_iff.mp starts
      exact if_neg (undeclared rfl)

theorem variables_taken {input rest : List Lexeme} {names : List String}
    (read : readVariables input = .ok (names, rest)) : ∃ first second,
      names = first :: second.toList ∧ (∀ name ∈ names, name ∉ reserved) ∧
      input.map Lexeme.token = variableTokens first second ++ rest.map Lexeme.token := by
  simp only [readVariables, bind_eq_ok] at read
  obtain ⟨⟨first, after⟩, readFirst, read⟩ := read
  obtain ⟨firstFree, offset, rfl⟩ := variable_iff.mp readFirst
  dsimp only at read
  split at read
  · next comma others =>
      simp only [bind_eq_ok] at read
      obtain ⟨⟨second, behind⟩, readSecond, same⟩ := read
      obtain ⟨secondFree, place, rfl⟩ := variable_iff.mp readSecond
      cases same
      exact ⟨first, some second, rfl, by simp [firstFree, secondFree], rfl⟩
  · cases read
    exact ⟨first, none, rfl, by simpa using firstFree, rfl⟩

theorem read_variables {front rest : List Lexeme} {first : String} {second : Option String}
    {word : String} {more : List Token}
    (spelled : front.map Lexeme.token = variableTokens first second)
    (free : ∀ name ∈ first :: second.toList, name ∉ reserved)
    (starts : rest.map Lexeme.token = .name word :: more) :
    readVariables (front ++ rest) = .ok (first :: second.toList, rest) := by
  obtain ⟨⟨_, offset⟩, others, rfl, rfl, othersSpelled⟩ := List.map_eq_cons_iff.mp spelled
  have firstRead : readVariable (⟨.name first, offset⟩ :: others ++ rest) =
      .ok (first, others ++ rest) :=
    variable_iff.mpr ⟨free first (List.mem_cons_self ..), offset, rfl⟩
  simp only [readVariables, bind_eq_ok]
  refine ⟨_, firstRead, ?_⟩
  cases second with
  | none =>
      obtain rfl := List.map_eq_nil_iff.mp othersSpelled
      obtain ⟨⟨_, place⟩, behind, rfl, rfl, -⟩ := List.map_eq_cons_iff.mp starts
      rfl
  | some second =>
      obtain ⟨⟨_, comma⟩, last, rfl, rfl, lastSpelled⟩ := List.map_eq_cons_iff.mp othersSpelled
      obtain ⟨⟨_, place⟩, none, rfl, rfl, empty⟩ := List.map_eq_cons_iff.mp lastSpelled
      obtain rfl := List.map_eq_nil_iff.mp empty
      have secondRead : readVariable (⟨.name second, place⟩ :: rest) = .ok (second, rest) :=
        variable_iff.mpr ⟨free second (by simp), place, rfl⟩
      exact bind_eq_ok.mpr ⟨_, secondRead, rfl⟩

theorem closing_iff {wrapped : Bool} {input rest : List Lexeme} :
    (if wrapped then expect .closeParen input else .ok input) = .ok rest ↔
      ∃ front, input = front ++ rest ∧ front.map Lexeme.token = closing wrapped := by
  cases wrapped with
  | true =>
      rw [if_pos rfl, expect_iff]
      constructor
      · rintro ⟨offset, rfl⟩
        exact ⟨[_], rfl, rfl⟩
      · rintro ⟨front, rfl, spelled⟩
        obtain ⟨⟨_, offset⟩, none, rfl, rfl, empty⟩ := List.map_eq_cons_iff.mp spelled
        obtain rfl := List.map_eq_nil_iff.mp empty
        exact ⟨offset, rfl⟩
  | false =>
      constructor
      · intro same
        cases same
        exact ⟨[], rfl, rfl⟩
      · rintro ⟨front, rfl, spelled⟩
        obtain rfl := List.map_eq_nil_iff.mp spelled
        rfl

theorem closing_stops (wrapped : Bool) : Stops .disjunction (closing wrapped) := by
  cases wrapped <;> simp [closing, Level.rank, Token.rank]

theorem declared_starts (declaration : Option String) (first : String) (second : Option String)
    (behind : List Token) : ∃ name more,
      declaration.toList.map Token.name ++ (variableTokens first second ++ behind) =
        .name name :: more := by
  cases declaration <;> exact ⟨_, _, rfl⟩

theorem of_lexemes_eq_ok {input : List Lexeme} {header : LoopHeader} :
    LoopHeader.ofLexemes input = .ok header ↔ ∃ rest iterable after,
      readVariables (skipDeclaration (skipOpening input).2) = .ok (header.names, rest) ∧
      expectLoopWord rest = .ok iterable ∧
      readDisjunction iterable = .ok (header.iterable, after) ∧
      (if (skipOpening input).1 then expect .closeParen after else .ok after) = .ok [] := by
  cases opened : (skipOpening input).1 with
  | true =>
      constructor
      · intro read
        simp only [LoopHeader.ofLexemes, bind_eq_ok, opened, if_true] at read
        obtain ⟨⟨names, rest⟩, readNames, iterable, readWord, ⟨tree, after⟩, taken, last, closed,
          _, ended, same⟩ := read
        obtain rfl := expect_end_iff.mp ended
        cases same
        exact ⟨rest, iterable, after, readNames, readWord, taken, closed⟩
      · rintro ⟨rest, iterable, after, readNames, readWord, taken, closed⟩
        simp only [LoopHeader.ofLexemes, bind_eq_ok, opened, if_true]
        exact ⟨_, readNames, iterable, readWord, _, taken, [], closed, (), rfl, rfl⟩
  | false =>
      constructor
      · intro read
        simp only [LoopHeader.ofLexemes, bind_eq_ok, opened, Bool.false_eq_true, if_false] at read
        obtain ⟨⟨names, rest⟩, readNames, iterable, readWord, ⟨tree, after⟩, taken, last, closed,
          _, ended, same⟩ := read
        obtain rfl := expect_end_iff.mp ended
        cases same
        exact ⟨rest, iterable, after, readNames, readWord, taken, closed⟩
      · rintro ⟨rest, iterable, after, readNames, readWord, taken, closed⟩
        simp only [LoopHeader.ofLexemes, bind_eq_ok, opened, Bool.false_eq_true, if_false]
        exact ⟨_, readNames, iterable, readWord, _, taken, [], closed, (), rfl, rfl⟩

theorem of_lexemes_iff {input : List Lexeme} {header : LoopHeader} :
    LoopHeader.ofLexemes input = .ok header ↔
      ∃ heading : Heading, heading.tokens = input.map Lexeme.token ∧
        heading.header = header := by
  rw [of_lexemes_eq_ok]
  constructor
  · rintro ⟨rest, iterable, after, readNames, readWord, taken, closed⟩
    obtain ⟨front, rfl, closes⟩ := closing_iff.mp closed
    obtain ⟨phrase, means, spelled⟩ := read_sound _ _ _ _ _ taken
    obtain ⟨word, introduces, place, rfl⟩ := loop_word_iff.mp readWord
    obtain ⟨first, second, named, free, variablesTaken⟩ := variables_taken readNames
    obtain ⟨declaration, declares, undeclared, declarationTaken⟩ :=
      declaration_taken (skipOpening input).2
    have plain (none : declaration = none) : first ∉ declarations :=
      fun member => undeclared none first member _ variablesTaken
    have whole : input.map Lexeme.token = opening (skipOpening input).1 ++
        (declaration.toList.map .name ++ (variableTokens first second ++
          .name word :: (phrase.tokens ++ closing (skipOpening input).1))) := by
      rw [opening_taken input, declarationTaken, variablesTaken, List.map_cons, spelled,
        List.append_nil, closes]
    exact ⟨⟨(skipOpening input).1, declaration, first, second, word, phrase, declares, plain,
      named ▸ free, introduces⟩, whole.symm, by simp [Heading.header, means, ← named]⟩
  · rintro ⟨heading, spelled, rfl⟩
    obtain ⟨openingFront, rest, rfl, opens, restSpelled⟩ := List.map_eq_append_iff.mp spelled.symm
    obtain ⟨declarationFront, body, rfl, declared, bodySpelled⟩ :=
      List.map_eq_append_iff.mp restSpelled
    obtain ⟨namesFront, tail, rfl, namesSpelled, tailSpelled⟩ :=
      List.map_eq_append_iff.mp bodySpelled
    obtain ⟨⟨_, place⟩, iterable, rfl, rfl, iterableSpelled⟩ :=
      List.map_eq_cons_iff.mp tailSpelled
    obtain ⟨phraseFront, last, rfl, phraseSpelled, closes⟩ :=
      List.map_eq_append_iff.mp iterableSpelled
    have opened := skip_opening opens (restSpelled ▸ declared_starts _ _ _ _)
    have skipped := skip_declaration declared bodySpelled heading.declares heading.undeclared
    refine ⟨⟨.name heading.word, place⟩ :: (phraseFront ++ last), phraseFront ++ last, last, ?_,
      loop_word_iff.mpr ⟨heading.word, heading.introduces, place, rfl⟩,
      read_phrase heading.iterable phraseSpelled (closes ▸ closing_stops _), ?_⟩
    · rw [opened, skipped]
      exact read_variables namesSpelled heading.free rfl
    · rw [opened]
      exact closing_iff.mpr ⟨last, (List.append_nil last).symm, closes⟩

end Letterpress.LoopHeader

namespace Letterpress

open Letterpress.Expr

/-- A source that falls into tokens is read if they are a phrase, and as that phrase; no
tokens are two phrases, and the tokens of a loop header are a heading. -/
theorem parse_follows_grammar (source : String) :
    (∀ tree, Expr.parse source = .ok tree ↔ ∃ lexemes, lex source = .ok lexemes ∧
      ∃ phrase : Phrase .disjunction, phrase.tokens = lexemes.map Lexeme.token ∧
        phrase.tree = tree) ∧
    Function.Injective (fun phrase : Phrase .disjunction => phrase.tokens) ∧
    (∀ header, LoopHeader.parse source = .ok header ↔ ∃ lexemes, lex source = .ok lexemes ∧
      ∃ heading : LoopHeader.Heading, heading.tokens = lexemes.map Lexeme.token ∧
        heading.header = header) := by
  refine ⟨fun tree => ?_, tokens_injective _, fun header => ?_⟩
  · simp only [Expr.parse, bind_eq_ok, mapError_eq_ok, Expr.of_lexemes_iff]
  · simp only [LoopHeader.parse, bind_eq_ok, mapError_eq_ok, LoopHeader.of_lexemes_iff]

end Letterpress
