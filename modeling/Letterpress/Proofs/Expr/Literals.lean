import Letterpress.Expr.Code
import Letterpress.Expr.Parser
import Letterpress.Proofs.Outcome

/-!
Where the values in code come from. The text of an expression spells no lists and no
maps, and no doubles but finite ones; reading puts no other values into the tree, and
lowering no others into the code.
-/

namespace Letterpress

/-- The values that stand in the texts of expressions. -/
def Value.IsLiteral : Value → Prop
  | .float number => (Decimal.Dyadic.ofFloat? number).isSome = true
  | .list _ => False
  | .map _ => False
  | _ => True

namespace Expr

def OnlyLiterals : Expr → Prop
  | .literal value => value.IsLiteral
  | .var _ => True
  | .member base key => base.OnlyLiterals ∧ key.OnlyLiterals
  | .neg operand => operand.OnlyLiterals
  | .not operand => operand.OnlyLiterals
  | .and left right => left.OnlyLiterals ∧ right.OnlyLiterals
  | .or left right => left.OnlyLiterals ∧ right.OnlyLiterals
  | .binary _ left right => left.OnlyLiterals ∧ right.OnlyLiterals

theorem pushed_of_lower_at {value : Value} (expression : Expr) (start : Nat)
    (literals : expression.OnlyLiterals) (pushed : .push value ∈ expression.lowerAt start) :
    value.IsLiteral := by
  induction expression generalizing start with
  | literal held =>
      simp only [lowerAt, List.mem_singleton, Op.push.injEq] at pushed
      exact pushed ▸ literals
  | var name => simp [lowerAt] at pushed
  | neg operand from_operand =>
      simp only [lowerAt, List.mem_append, List.mem_singleton, reduceCtorEq, or_false] at pushed
      exact from_operand start literals pushed
  | not operand from_operand =>
      simp only [lowerAt, List.mem_append, List.mem_singleton, reduceCtorEq, or_false] at pushed
      exact from_operand start literals pushed
  | member left right from_left from_right
  | binary operator left right from_left from_right
  | and left right from_left from_right
  | or left right from_left from_right =>
      simp only [lowerAt, List.mem_append, List.mem_cons, List.not_mem_nil, reduceCtorEq, false_or,
        or_false] at pushed
      rcases pushed with first | second
      · exact from_left _ literals.1 first
      · exact from_right _ literals.2 second

def AllFinite (input : List Lexeme) : Prop :=
  ∀ lexeme ∈ input, ∀ number, lexeme.token = .float number →
    (Decimal.Dyadic.ofFloat? number).isSome = true

theorem AllFinite.tail {lexeme : Lexeme} {rest : List Lexeme}
    (finite : AllFinite (lexeme :: rest)) : AllFinite rest :=
  fun later member => finite later (List.mem_cons_of_mem lexeme member)

def WellRead (outcome : Outcome) : Prop :=
  ∀ (tree : Expr) (rest : List Lexeme), outcome = .ok (tree, rest) →
    tree.OnlyLiterals ∧ AllFinite rest

theorem well_read_error (stuck : Stuck) : WellRead (.error stuck) := by
  intro tree rest impossible
  cases impossible

theorem well_read_ok (tree : Expr) {rest : List Lexeme} (literals : tree.OnlyLiterals)
    (finite : AllFinite rest) : WellRead (.ok (tree, rest)) := by
  intro other after same
  cases same
  exact ⟨literals, finite⟩

theorem finite_after_expected {symbol : Symbol} {input rest : List Lexeme}
    (finite : AllFinite input) (expected : expect symbol input = .ok rest) : AllFinite rest := by
  unfold expect at expected
  split at expected
  · split at expected
    · cases expected
      exact finite.tail
    · cases expected
  · cases expected

theorem join_left_well_read {operator? : Token → Option (Expr → Expr → Expr)}
    {operand : List Lexeme → Outcome}
    (keeps : ∀ {token combine}, operator? token = some combine →
      ∀ {left right : Expr}, left.OnlyLiterals → right.OnlyLiterals →
        (combine left right).OnlyLiterals)
    (operands : ∀ {input}, AllFinite input → WellRead (operand input))
    (fuel : Nat) {left : Expr} {input : List Lexeme} (literals : left.OnlyLiterals)
    (finite : AllFinite input) : WellRead (joinLeft operator? operand fuel left input) := by
  induction fuel generalizing left input with
  | zero => exact well_read_ok _ literals finite
  | succ fuel joins =>
      cases input with
      | nil => exact well_read_ok _ literals finite
      | cons lexeme rest =>
          simp only [joinLeft]
          split
          · exact well_read_ok _ literals finite
          · next combine found =>
              split
              · exact well_read_error _
              · next right after read =>
                  obtain ⟨right_literals, after_finite⟩ := operands finite.tail _ _ read
                  exact joins (keeps found literals right_literals) after_finite

theorem join_access_well_read {index : List Lexeme → Outcome}
    (indices : ∀ {input}, AllFinite input → WellRead (index input))
    (fuel : Nat) {base : Expr} {input : List Lexeme} (literals : base.OnlyLiterals)
    (finite : AllFinite input) : WellRead (joinAccess index fuel base input) := by
  induction fuel generalizing base input with
  | zero => exact well_read_ok _ literals finite
  | succ fuel joins =>
      unfold joinAccess
      split
      · split
        · next field _ after =>
            have attribute_literals : (member base (.literal (.str field))).OnlyLiterals :=
              ⟨literals, trivial⟩
            exact joins attribute_literals finite.tail.tail
        · exact well_read_error _
      · split
        · exact well_read_error _
        · next key after read =>
            obtain ⟨key_literals, after_finite⟩ := indices finite.tail _ _ read
            split
            · exact well_read_error _
            · next rest expected =>
                have index_literals : (member base key).OnlyLiterals := ⟨literals, key_literals⟩
                exact joins index_literals (finite_after_expected after_finite expected)
      · exact well_read_ok _ literals finite

theorem literals_of_word {word : String} {tree : Expr} (read : ofWord word = .ok tree) :
    tree.OnlyLiterals := by
  unfold ofWord at read
  split at read
  · cases read
    trivial
  split at read
  · cases read
    trivial
  split at read
  · cases read
    trivial
  split at read
  · cases read
  · cases read
    trivial

theorem disjunction_keeps {token : Token} {combine : Expr → Expr → Expr}
    (found : orOperator? token = some combine) {left right : Expr}
    (left_literals : left.OnlyLiterals) (right_literals : right.OnlyLiterals) :
    (combine left right).OnlyLiterals := by
  unfold orOperator? at found
  split at found <;> cases found <;> exact ⟨left_literals, right_literals⟩

theorem conjunction_keeps {token : Token} {combine : Expr → Expr → Expr}
    (found : andOperator? token = some combine) {left right : Expr}
    (left_literals : left.OnlyLiterals) (right_literals : right.OnlyLiterals) :
    (combine left right).OnlyLiterals := by
  unfold andOperator? at found
  split at found <;> cases found <;> exact ⟨left_literals, right_literals⟩

theorem sum_keeps {token : Token} {combine : Expr → Expr → Expr}
    (found : sumOperator? token = some combine) {left right : Expr}
    (left_literals : left.OnlyLiterals) (right_literals : right.OnlyLiterals) :
    (combine left right).OnlyLiterals := by
  unfold sumOperator? at found
  split at found <;> cases found <;> exact ⟨left_literals, right_literals⟩

theorem primary_well_read {fuel : Nat} {input : List Lexeme}
    (reads : ∀ (level : Level) {input}, AllFinite input → WellRead (read fuel level input))
    (finite : AllFinite input) : WellRead (read (fuel + 1) .primary input) := by
  cases input with
  | nil => exact well_read_error _
  | cons lexeme rest =>
      obtain ⟨token, offset⟩ := lexeme
      cases token with
      | name word =>
          simp only [read]
          split
          · exact well_read_error _
          · next tree word_read => exact well_read_ok _ (literals_of_word word_read) finite.tail
      | str content => exact well_read_ok (.literal _) trivial finite.tail
      | int number => exact well_read_ok (.literal _) trivial finite.tail
      | float number =>
          have number_finite := finite ⟨.float number, offset⟩ (by simp) number rfl
          exact well_read_ok (.literal _) number_finite finite.tail
      | symbol symbol =>
          cases symbol with
          | openParen =>
              simp only [read]
              split
              · exact well_read_error _
              · next inner after inner_read =>
                  obtain ⟨literals, after_finite⟩ :=
                    reads .disjunction finite.tail _ _ inner_read
                  split
                  · exact well_read_error _
                  · next others expected =>
                      exact well_read_ok inner literals
                        (finite_after_expected after_finite expected)
          | minus =>
              simp only [read]
              split
              · exact well_read_error _
              · next operand after operand_read =>
                  obtain ⟨literals, after_finite⟩ := reads .primary finite.tail _ _ operand_read
                  exact well_read_ok (.neg operand) literals after_finite
          | _ => exact well_read_error _

theorem read_well_read (fuel : Nat) (level : Level) {input : List Lexeme}
    (finite : AllFinite input) : WellRead (read fuel level input) := by
  induction fuel generalizing level input with
  | zero => exact well_read_error _
  | succ fuel reads =>
      cases level with
      | disjunction =>
          simp only [read]
          split
          · exact well_read_error _
          · next left rest first =>
              obtain ⟨literals, rest_finite⟩ := reads .conjunction finite _ _ first
              exact join_left_well_read disjunction_keeps (reads .conjunction) _ literals
                rest_finite
      | conjunction =>
          simp only [read]
          split
          · exact well_read_error _
          · next left rest first =>
              obtain ⟨literals, rest_finite⟩ := reads .negation finite _ _ first
              exact join_left_well_read conjunction_keeps (reads .negation) _ literals rest_finite
      | negation =>
          cases input with
          | nil => exact reads .comparison finite
          | cons lexeme rest =>
              simp only [read]
              split
              · split
                · exact well_read_error _
                · next operand after operand_read =>
                    obtain ⟨literals, after_finite⟩ := reads .negation finite.tail _ _ operand_read
                    exact well_read_ok (.not operand) literals after_finite
              · exact reads .comparison finite
      | comparison =>
          simp only [read]
          split
          · exact well_read_error _
          · next left first =>
              obtain ⟨literals, after_finite⟩ := reads .sum finite _ _ first
              exact well_read_ok _ literals after_finite
          · next left lexeme rest first =>
              obtain ⟨literals, rest_finite⟩ := reads .sum finite _ _ first
              split
              · exact well_read_ok _ literals rest_finite
              · split
                · exact well_read_error _
                · next right after second =>
                    obtain ⟨right_literals, after_finite⟩ := reads .sum rest_finite.tail _ _ second
                    exact well_read_ok (.binary _ left right) ⟨literals, right_literals⟩
                      after_finite
      | sum =>
          simp only [read]
          split
          · exact well_read_error _
          · next left rest first =>
              obtain ⟨literals, rest_finite⟩ := reads .access finite _ _ first
              exact join_left_well_read sum_keeps (reads .access) _ literals rest_finite
      | access =>
          simp only [read]
          split
          · exact well_read_error _
          · next base rest first =>
              obtain ⟨literals, rest_finite⟩ := reads .primary finite _ _ first
              exact join_access_well_read (reads .disjunction) _ literals rest_finite
      | primary => exact primary_well_read (fun level => reads level) finite

theorem number_token_finite {whole places : List Char} {token : Token}
    (read : numberToken? whole places = some token) {number : Float}
    (double : token = .float number) : (Decimal.Dyadic.ofFloat? number).isSome = true := by
  subst double
  simp only [numberToken?] at read
  split at read
  · cases read
  · split at read
    · next finite =>
        cases read
        exact finite
    · cases read

theorem token_finite {first : Char} {rest after : List Char} {token : Token}
    (read : readToken first rest = .ok (token, after)) {number : Float}
    (double : token = .float number) : (Decimal.Dyadic.ofFloat? number).isSome = true := by
  subst double
  unfold readToken at read
  split at read
  · split at read <;> cases read
  split at read
  · dsimp only at read
    split at read
    · next token number_read =>
        cases read
        exact number_token_finite number_read rfl
    · cases read
  split at read
  · cases read
  · split at read <;> cases read

theorem lexemes_finite (fuel offset : Nat) (chars : List Char) {lexemes : List Lexeme}
    (read : lexFrom fuel offset chars = .ok lexemes) : AllFinite lexemes := by
  induction fuel generalizing offset chars lexemes with
  | zero =>
      cases chars <;> cases read <;> intro lexeme impossible <;> cases impossible
  | succ fuel later =>
      cases chars with
      | nil =>
          cases read
          intro lexeme impossible
          cases impossible
      | cons first rest =>
          simp only [lexFrom] at read
          split at read
          · exact later _ _ read
          · split at read
            · cases read
            · next token after token_read =>
                cases rest_read : lexFrom fuel
                    (offset + (Text.byteSize (first :: rest) - Text.byteSize after)) after with
                | error error =>
                    rw [rest_read] at read
                    cases read
                | ok others =>
                    rw [rest_read] at read
                    cases read
                    intro lexeme member number double
                    rcases List.mem_cons.mp member with same | found
                    · subst same
                      exact token_finite token_read double
                    · exact later _ _ rest_read lexeme found number double

theorem lexed_finite {source : String} {lexemes : List Lexeme} (read : lex source = .ok lexemes) :
    AllFinite lexemes := lexemes_finite _ _ _ read

theorem parsed_literals {source : String} {expression : Expr}
    (parsed : parse source = .ok expression) : expression.OnlyLiterals := by
  simp only [parse, ofLexemes, bind_eq_ok, mapError_eq_ok] at parsed
  obtain ⟨lexemes, lexed, ⟨tree, rest⟩, read, _, _, same⟩ := parsed
  cases same
  exact (read_well_read _ _ (lexed_finite lexed) _ _ read).1

end Expr

namespace LoopHeader

open Letterpress.Expr

theorem finite_after_opening {input : List Lexeme} (finite : AllFinite input) :
    AllFinite (skipOpening input).2 := by
  unfold skipOpening
  split
  · exact finite.tail
  · exact finite

theorem finite_after_declaration {input : List Lexeme} (finite : AllFinite input) :
    AllFinite (skipDeclaration input) := by
  unfold skipDeclaration
  split
  · split
    · exact finite.tail
    · exact finite
  · exact finite

theorem finite_after_variable {input rest : List Lexeme} {name : String}
    (finite : AllFinite input) (read : readVariable input = .ok (name, rest)) :
    AllFinite rest := by
  unfold readVariable at read
  split at read
  · split at read
    · cases read
    · cases read
      exact finite.tail
  · cases read

theorem finite_after_variables {input rest : List Lexeme} {names : List String}
    (finite : AllFinite input) (read : readVariables input = .ok (names, rest)) :
    AllFinite rest := by
  simp only [readVariables, bind_eq_ok] at read
  obtain ⟨⟨first, after⟩, first_read, read⟩ := read
  have after_finite := finite_after_variable finite first_read
  dsimp only at read
  split at read
  · simp only [bind_eq_ok] at read
    obtain ⟨⟨second, others⟩, second_read, same⟩ := read
    cases same
    exact finite_after_variable after_finite.tail second_read
  · cases read
    exact after_finite

theorem finite_after_loop_word {input rest : List Lexeme} (finite : AllFinite input)
    (read : expectLoopWord input = .ok rest) : AllFinite rest := by
  unfold expectLoopWord at read
  split at read
  · split at read
    · cases read
      exact finite.tail
    · cases read
  · cases read

theorem parse_eq_ok {source : String} {header : LoopHeader}
    (parsed : LoopHeader.parse source = .ok header) :
    ∃ lexemes rest iterable after, lex source = .ok lexemes ∧
      readVariables (skipDeclaration (skipOpening lexemes).2) = .ok (header.names, rest) ∧
      expectLoopWord rest = .ok iterable ∧
      readDisjunction iterable = .ok (header.iterable, after) := by
  simp only [LoopHeader.parse, ofLexemes, bind_eq_ok, mapError_eq_ok] at parsed
  obtain ⟨lexemes, lexed, ⟨names, rest⟩, names_read, iterable, word_read, ⟨tree, after⟩, read,
    last⟩ := parsed
  have same : (⟨names, tree⟩ : LoopHeader) = header := by
    dsimp only at last
    split at last <;> simp only [bind_eq_ok] at last <;> obtain ⟨_, _, _, _, same⟩ := last <;>
      cases same <;> rfl
  subst same
  exact ⟨lexemes, rest, iterable, after, lexed, names_read, word_read, read⟩

theorem parsed_literals {source : String} {header : LoopHeader}
    (parsed : LoopHeader.parse source = .ok header) : header.iterable.OnlyLiterals := by
  obtain ⟨lexemes, rest, iterable, after, lexed, names_read, word_read, read⟩ :=
    parse_eq_ok parsed
  have start_finite : AllFinite (skipDeclaration (skipOpening lexemes).2) :=
    finite_after_declaration (finite_after_opening (lexed_finite lexed))
  have names_finite := finite_after_variables start_finite names_read
  have word_finite := finite_after_loop_word names_finite word_read
  exact (read_well_read _ _ word_finite _ _ read).1

end LoopHeader

end Letterpress
