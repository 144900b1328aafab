import Letterpress.Proofs.Expr.Lexing
import Letterpress.Proofs.Expr.Reading
import Letterpress.Proofs.Expr.Refusal

/-!
Errors of syntax point at the first wrong token. Wherever a reader stops with an error, the
lexemes that it has taken begin a phrase of its level, and with the lexeme at which it stopped
they do not. It may also stop without one where no phrase can go on: behind a comparison, before
a second sign. No reader around it can go on there either, so that the sign is where the text is
refused in the end.
-/

namespace Letterpress.Expr

variable {level operand inner outer : Level} {input rest after : List Lexeme}

section Readers

variable {language part whole : List Token → Prop}

/-- Input that goes on with a language up to some lexeme only. -/
def Refused (level : Level) (language : List Token → Prop) (input rest : List Lexeme) : Prop :=
  ∃ front, input = front ++ rest ∧
    RefusedAt level language (front.map Lexeme.token) (rest.map Lexeme.token)

def AtSign (rest : List Lexeme) : Prop :=
  ∃ sign behind, rest = sign :: behind ∧ sign.token.rank = Level.comparison.rank

/-- A reader of a level has left lexemes before which phrases of the level end, or a second sign
behind a comparison, with which none of them goes on. -/
def Leaves (level : Level) (language : List Token → Prop) (input rest : List Lexeme) : Prop :=
  Stops level (rest.map Lexeme.token) ∨
    Level.comparison.rank ≤ level.rank ∧ AtSign rest ∧ Refused level language input rest

def Answers (level : Level) (language : List Token → Prop) (input : List Lexeme) : Outcome → Prop
  | .ok (_, rest) => Leaves level language input rest
  | .error stuck => Refused level language input stuck.rest

theorem Leaves.lift (leaves : Leaves inner part after rest)
    (ends : ∀ rest, Stops inner rest → Stops outer rest) (below : inner.rank ≤ outer.rank)
    (refused : Refused inner part after rest → Refused outer whole input rest) :
    Leaves outer whole input rest := by
  rcases leaves with stops | ⟨loose, sign, stuck⟩
  · exact .inl (ends _ stops)
  · exact .inr ⟨Nat.le_trans loose below, sign, refused stuck⟩

/-- What a reader within another one answers is what that one answers. -/
theorem Answers.lift {outcome : Outcome} (answers : Answers inner part after outcome)
    (ends : ∀ rest, Stops inner rest → Stops outer rest) (below : inner.rank ≤ outer.rank)
    (refused : ∀ rest, Refused inner part after rest → Refused outer whole input rest) :
    Answers outer whole input outcome := by
  cases outcome with
  | error stuck => exact refused _ answers
  | ok result => exact Leaves.lift answers ends below (refused _)

/-- So it is for what a reader goes on with behind lexemes that it has taken. -/
theorem Answers.goes_on {outcome : Outcome} (answers : Answers level part after outcome)
    (refused : ∀ rest, Refused level part after rest → Refused level whole input rest) :
    Answers level whole input outcome :=
  answers.lift (fun _ stops => stops) (Nat.le_refl _) refused

theorem Leaves.tight (leaves : Leaves level language input rest)
    (tight : level.rank < Level.comparison.rank) : Stops level (rest.map Lexeme.token) := by
  rcases leaves with stops | ⟨loose, -⟩
  · exact stops
  · exact absurd loose (Nat.not_le_of_gt tight)

theorem read_taken {fuel : Nat} {tree : Expr} (taken : read fuel level input = .ok (tree, rest))
    (stops : Stops level (rest.map Lexeme.token)) (enough : 7 * input.length + level.rank < fuel) :
    ∃ front, input = front ++ rest ∧
      ∃ phrase : Phrase level, phrase.tokens = front.map Lexeme.token := by
  obtain ⟨phrase, -, parts⟩ := read_sound _ _ _ _ _ taken
  obtain ⟨front, back, rfl, spelled, others⟩ := List.map_eq_append_iff.mp parts
  rw [List.length_append] at enough
  have again := phrase_read phrase front back fuel spelled (others ▸ stops) (by omega)
  rw [again] at taken
  cases taken
  exact ⟨front, rfl, phrase, spelled.symm⟩

theorem expect_error {symbol : Symbol} {stuck : Stuck}
    (failed : expect symbol input = .error stuck) : stuck.rest = input ∧
      ∀ later, input.map Lexeme.token ≠ .symbol symbol :: later := by
  have at_input : stuck.rest = input := by
    unfold expect at failed
    split at failed
    · split at failed
      · cases failed
      · cases failed
        rfl
    · cases failed
      rfl
  refine ⟨at_input, fun later same => ?_⟩
  obtain ⟨⟨_, offset⟩, rest, rfl, rfl, -⟩ := List.map_eq_cons_iff.mp same
  rw [expect_found] at failed
  cases failed

theorem no_operator_at_sign (rule : Joins level operand) {token : Token}
    (sign : token.rank = Level.comparison.rank) : rule.operator? token = none := by
  cases found : rule.operator? token with
  | none => rfl
  | some combine =>
      rw [rank_of_joint (operator_iff.mp found)] at sign
      cases rule <;> cases sign

theorem join_left_at_sign (rule : Joins level operand) {reader : List Lexeme → Outcome}
    (bound : Nat) (left : Expr) (sign : AtSign rest) :
    joinLeft rule.operator? reader bound left rest = .ok (left, rest) := by
  obtain ⟨lexeme, behind, rfl, rank⟩ := sign
  cases bound with
  | zero => rfl
  | succ bound => simp only [joinLeft, no_operator_at_sign rule rank]

theorem expect_at_sign {symbol : Symbol} (closes : symbol = .closeBracket ∨ symbol = .closeParen)
    (sign : AtSign rest) : ∃ problem, expect symbol rest = .error ⟨problem, rest⟩ := by
  cases expected : expect symbol rest with
  | error stuck =>
      obtain ⟨problem, _⟩ := stuck
      obtain ⟨rfl, -⟩ := expect_error expected
      exact ⟨problem, rfl⟩
  | ok after =>
      obtain ⟨offset, rfl⟩ := expect_iff.mp expected
      obtain ⟨_, _, same, rank⟩ := sign
      obtain ⟨rfl, -⟩ := List.cons.inj same
      rcases closes with rfl | rfl <;> cases rank

theorem stops_past {token : Token} {behind : List Token} (ends : Stops operand (token :: behind))
    (next : level.rank = operand.rank + 1) (other : token.rank ≠ level.rank) :
    Stops level (token :: behind) := by
  rw [stops_cons] at ends ⊢
  omega

/-- The refusal of a part of the input is one of the input, when the lexemes before it are told. -/
theorem Refused.behind (lead : List Lexeme)
    (lifts : ∀ front, after.map Lexeme.token = front ++ rest.map Lexeme.token →
      RefusedAt inner part front (rest.map Lexeme.token) →
      RefusedAt outer whole (lead.map Lexeme.token ++ front) (rest.map Lexeme.token))
    (refused : Refused inner part after rest) : Refused outer whole (lead ++ after) rest := by
  obtain ⟨front, rfl, wrong⟩ := refused
  refine ⟨lead ++ front, by rw [List.append_assoc], ?_⟩
  rw [List.map_append]
  exact lifts _ (by rw [List.map_append]) wrong

end Readers

section Joining

theorem join_left_answers (rule : Joins level operand) {fuel : Nat}
    (reads : ∀ input : List Lexeme, 7 * input.length + operand.rank < fuel →
      Answers operand (IsPhrase operand) input (read fuel operand input))
    (bound : Nat) (left : Expr) (input : List Lexeme) (bounded : input.length ≤ bound)
    (enough : 7 * input.length + operand.rank < fuel)
    (ends : Stops operand (input.map Lexeme.token)) :
    Answers level (IsFurther level) input
      (joinLeft rule.operator? (read fuel operand) bound left input) := by
  induction bound generalizing left input with
  | zero =>
      obtain rfl := List.length_eq_zero_iff.mp (Nat.le_zero.mp bounded)
      exact .inl stops_nil
  | succ bound joins =>
      cases input with
      | nil => exact .inl stops_nil
      | cons lexeme rest =>
          rw [List.length_cons] at bounded enough
          cases found : rule.operator? lexeme.token with
          | none =>
              simp only [joinLeft, found]
              refine .inl (stops_past ends (next_rank rule) ?_)
              exact fun rank => operator_of_rank rule rank found
          | some combine =>
              have word := operator_iff.mp found
              have answers := reads rest (by omega)
              cases taken : read fuel operand rest with
              | error stuck =>
                  rw [taken] at answers
                  simp only [joinLeft, found, taken]
                  exact answers.behind [lexeme] fun _ _ => refused_operand word
              | ok result =>
                  obtain ⟨right, after⟩ := result
                  rw [taken] at answers
                  simp only [joinLeft, found, taken]
                  -- behind a whole operand the joining goes on, at a second sign it ends
                  rcases answers with stops | ⟨loose, sign, refused⟩
                  · obtain ⟨front, rfl, phrase, spelled⟩ := read_taken taken stops (by omega)
                    rw [List.length_append] at bounded enough
                    have further := joins (combine left right) after (by omega) (by omega) stops
                    refine further.goes_on fun rest refused => ?_
                    refine refused.behind (lexeme :: front) fun others parts wrong => ?_
                    rw [List.map_cons, ← spelled]
                    exact refused_behind_operand word phrase (parts ▸ stops) wrong
                  · rw [join_left_at_sign rule bound _ sign]
                    exact .inr ⟨Nat.le_trans loose (Nat.le_of_lt rule.below), sign,
                      refused.behind [lexeme] fun _ _ => refused_operand word⟩

theorem joined_answers (rule : Joins level operand) {fuel : Nat}
    (reads : ∀ input : List Lexeme, 7 * input.length + operand.rank < fuel →
      Answers operand (IsPhrase operand) input (read fuel operand input))
    (input : List Lexeme) (enough : 7 * input.length + operand.rank < fuel) :
    Answers level (IsPhrase level) input (read (fuel + 1) level input) := by
  have answers := reads input enough
  rw [read_joined rule]
  cases taken : read fuel operand input with
  | error stuck =>
      rw [taken] at answers
      exact answers.behind [] fun _ _ => refused_first rule
  | ok result =>
      obtain ⟨left, rest⟩ := result
      rw [taken] at answers
      dsimp only
      rcases answers with stops | ⟨loose, sign, refused⟩
      · obtain ⟨front, rfl, phrase, spelled⟩ := read_taken taken stops enough
        rw [List.length_append] at enough
        have further := join_left_answers rule reads rest.length left rest (Nat.le_refl _)
          (by omega) stops
        refine further.goes_on fun rest refused => ?_
        refine refused.behind front fun others parts wrong => ?_
        rw [← spelled]
        exact refused_further rule phrase (parts ▸ stops) wrong
      · rw [join_left_at_sign rule _ _ sign]
        exact .inr ⟨Nat.le_trans loose (Nat.le_of_lt rule.below), sign,
          refused.behind [] fun _ _ => refused_first rule⟩

end Joining

section Enclosing

variable {symbol : Symbol} {fuel : Nat} {tree : Expr}

inductive Closing (symbol : Symbol) (input rest : List Lexeme) : Except Stuck (List Lexeme) → Prop
  | closed {front behind : List Lexeme} {offset : Nat} (phrase : Phrase .disjunction)
      (spelled : phrase.tokens = front.map Lexeme.token)
      (parts : input = front ++ ⟨.symbol symbol, offset⟩ :: behind) :
      Closing symbol input rest (.ok behind)
  | unclosed {front : List Lexeme} {problem : SyntaxProblem} (phrase : Phrase .disjunction)
      (spelled : phrase.tokens = front.map Lexeme.token) (parts : input = front ++ rest)
      (stops : Stops .disjunction (rest.map Lexeme.token))
      (other : ∀ later, rest.map Lexeme.token ≠ .symbol symbol :: later) :
      Closing symbol input rest (.error ⟨problem, rest⟩)
  | refused {problem : SyntaxProblem}
      (refused : Refused .disjunction (IsPhrase .disjunction) input rest) :
      Closing symbol input rest (.error ⟨problem, rest⟩)

theorem closing (closes : symbol = .closeBracket ∨ symbol = .closeParen)
    (answers : Answers .disjunction (IsPhrase .disjunction) input (read fuel .disjunction input))
    (enough : 7 * input.length + Level.disjunction.rank < fuel)
    (taken : read fuel .disjunction input = .ok (tree, rest)) :
    Closing symbol input rest (expect symbol rest) := by
  rw [taken] at answers
  rcases answers with stops | ⟨-, sign, refused⟩
  · obtain ⟨front, parts, phrase, spelled⟩ := read_taken taken stops enough
    cases closed : expect symbol rest with
    | error stuck =>
        obtain ⟨problem, _⟩ := stuck
        obtain ⟨rfl, other⟩ := expect_error closed
        exact .unclosed phrase spelled parts stops other
    | ok behind =>
        obtain ⟨offset, rfl⟩ := expect_iff.mp closed
        exact .closed phrase spelled parts
  · obtain ⟨problem, failed⟩ := expect_at_sign closes sign
    rw [failed]
    exact .refused refused

theorem join_access_answers
    (reads : ∀ input : List Lexeme, 7 * input.length + Level.disjunction.rank < fuel →
      Answers .disjunction (IsPhrase .disjunction) input (read fuel .disjunction input))
    (bound : Nat) (base : Expr) (input : List Lexeme) (bounded : input.length ≤ bound)
    (enough : 7 * input.length ≤ fuel) :
    Answers .access (IsFurther .access) input
      (joinAccess (read fuel .disjunction) bound base input) := by
  induction bound generalizing base input with
  | zero =>
      obtain rfl := List.length_eq_zero_iff.mp (Nat.le_zero.mp bounded)
      exact .inl stops_nil
  | succ bound joins =>
      unfold joinAccess
      split
      · next dot rest =>
          split
          · next name place after =>
              simp only [List.length_cons] at bounded enough
              have further := joins (.member base (.literal (.str name))) after (by omega)
                (by omega)
              refine further.goes_on fun rest refused => ?_
              exact refused.behind [⟨.symbol .dot, dot⟩, ⟨.name name, place⟩] fun _ _ =>
                refused_behind_attribute name
          · next unnamed =>
              refine ⟨[⟨.symbol .dot, dot⟩], rfl, refused_attribute ?_⟩
              intro name later same
              obtain ⟨⟨_, place⟩, others, rfl, rfl, -⟩ := List.map_eq_cons_iff.mp same
              exact unnamed _ _ _ rfl
      · next opening rest =>
          simp only [List.length_cons] at bounded enough
          have answers := reads rest (by simp only [Level.rank]; omega)
          cases taken : read fuel .disjunction rest with
          | error stuck =>
              rw [taken] at answers
              exact answers.behind [_] fun _ _ => refused_key
          | ok result =>
              obtain ⟨key, after⟩ := result
              dsimp only
              have closing := closing (.inl rfl) answers (by simp only [Level.rank]; omega) taken
              generalize expect .closeBracket after = closed at closing
              cases closing with
              | @closed front behind place phrase spelled parts =>
                  rw [parts, List.length_append, List.length_cons] at bounded enough
                  have further := joins (.member base key) behind (by omega) (by omega)
                  refine further.goes_on fun later refused => ?_
                  have whole : Refused .access (IsFurther .access)
                      ((⟨.symbol .openBracket, opening⟩ ::
                        (front ++ [⟨.symbol .closeBracket, place⟩])) ++ behind) later :=
                    refused.behind _ fun _ _ wrong => by
                      simpa [spelled] using refused_behind_key phrase wrong
                  simpa [parts] using whole
              | @unclosed front problem phrase spelled parts stops other =>
                  refine ⟨⟨.symbol .openBracket, opening⟩ :: front, by rw [parts]; rfl, ?_⟩
                  rw [List.map_cons, ← spelled]
                  exact refused_unclosed_key phrase stops other
              | refused refused => exact refused.behind [_] fun _ _ => refused_key
      · next undotted unopened =>
          left
          cases input with
          | nil => exact stops_nil
          | cons lexeme rest =>
              obtain ⟨token, offset⟩ := lexeme
              refine stops_past (stops_primary _) rfl fun rank => ?_
              rcases access_of_rank rank with rfl | rfl
              · exact undotted _ _ rfl
              · exact unopened _ _ rfl

end Enclosing

section Levels

variable {fuel : Nat}

theorem word_begins_not {word : String} {problem : SyntaxProblem}
    (failed : ofWord word = .error problem) : ¬ Begins (.name word) := by
  have meant (tree : Expr) : ofWord word ≠ .ok tree := by simp [failed]
  rintro (⟨value, spells⟩ | ⟨name, free, same⟩ | impossible | impossible)
  · cases spells with
    | word constant => exact meant _ (word_iff.mpr (.inl ⟨value, constant, rfl⟩))
  · cases same
    exact meant _ (word_iff.mpr (.inr ⟨free, rfl⟩))
  · cases impossible
  · cases impossible

theorem symbol_begins {symbol : Symbol} (begins : Begins (.symbol symbol)) :
    symbol = .openParen ∨ symbol = .minus := by
  rcases begins with ⟨value, spells⟩ | ⟨name, -, impossible⟩ | paren | minus
  · exact absurd spells not_spells_symbol
  · cases impossible
  · exact .inl (Token.symbol.inj paren)
  · exact .inr (Token.symbol.inj minus)

theorem primary_answers
    (reads : ∀ (level : Level) (input : List Lexeme), 7 * input.length + level.rank < fuel →
      Answers level (IsPhrase level) input (read fuel level input))
    (input : List Lexeme) (enough : 7 * input.length ≤ fuel) :
    Answers .primary (IsPhrase .primary) input (read (fuel + 1) .primary input) := by
  unfold read
  split
  · exact ⟨[], rfl, refused_beginning (by simp)⟩
  · exact .inl (stops_primary _)
  · exact .inl (stops_primary _)
  · exact .inl (stops_primary _)
  · next word offset rest =>
      split
      · next problem failed =>
          exact ⟨[], rfl, refused_beginning (by simpa using word_begins_not failed)⟩
      · exact .inl (stops_primary _)
  · next offset rest =>
      rw [List.length_cons] at enough
      have answers := reads .disjunction rest (by simp only [Level.rank]; omega)
      cases taken : read fuel .disjunction rest with
      | error stuck =>
          rw [taken] at answers
          exact answers.behind [_] fun _ _ => refused_inner
      | ok result =>
          obtain ⟨tree, after⟩ := result
          dsimp only
          have closing := closing (.inr rfl) answers (by simp only [Level.rank]; omega) taken
          generalize expect .closeParen after = closed at closing
          cases closing with
          | closed phrase spelled parts => exact .inl (stops_primary _)
          | @unclosed front problem phrase spelled parts stops other =>
              refine ⟨⟨.symbol .openParen, offset⟩ :: front, by rw [parts]; rfl, ?_⟩
              rw [List.map_cons, ← spelled]
              exact refused_unclosed phrase stops other
          | refused refused => exact refused.behind [_] fun _ _ => refused_inner
  · next offset rest =>
      rw [List.length_cons] at enough
      have answers := reads .primary rest (by simp only [Level.rank]; omega)
      cases taken : read fuel .primary rest with
      | error stuck =>
          rw [taken] at answers
          exact answers.behind [_] fun _ _ => refused_negative
      | ok result => exact .inl (stops_primary _)
  · next symbol offset rest unopened unsigned =>
      refine ⟨[], rfl, refused_beginning ?_⟩
      simp only [List.map_cons, List.head?_cons, Option.mem_some_iff, forall_eq']
      intro begins
      rcases symbol_begins begins with rfl | rfl
      · exact unopened rfl
      · exact unsigned rfl

theorem comparison_answers
    (reads : ∀ input : List Lexeme, 7 * input.length + Level.sum.rank < fuel →
      Answers .sum (IsPhrase .sum) input (read fuel .sum input))
    (input : List Lexeme) (enough : 7 * input.length + Level.sum.rank < fuel) :
    Answers .comparison (IsPhrase .comparison) input (read (fuel + 1) .comparison input) := by
  have answers := reads input enough
  unfold read
  cases taken : read fuel .sum input with
  | error stuck =>
      rw [taken] at answers
      exact answers.behind [] fun _ _ => refused_left
  | ok result =>
      obtain ⟨left, rest⟩ := result
      rw [taken] at answers
      have ends := answers.tight (by decide)
      cases rest with
      | nil => exact .inl stops_nil
      | cons lexeme rest =>
          obtain ⟨front, rfl, leftPhrase, leftSpelled⟩ := read_taken taken ends enough
          rw [List.length_append, List.length_cons] at enough
          dsimp only
          cases found : comparison? lexeme.token with
          | none =>
              exact .inl (stops_past ends rfl fun rank => comparison_of_rank rank found)
          | some operator =>
              have compares := comparison_iff.mp found
              have rightAnswers := reads rest (by omega)
              have lead : (front ++ [lexeme]).map Lexeme.token =
                  leftPhrase.tokens ++ [lexeme.token] := by simp [leftSpelled]
              cases readRight : read fuel .sum rest with
              | error stuck =>
                  rw [readRight] at rightAnswers
                  have whole : Refused .comparison (IsPhrase .comparison)
                      (front ++ [lexeme] ++ rest) stuck.rest :=
                    rightAnswers.behind _ fun _ _ wrong =>
                      lead ▸ refused_right leftPhrase compares wrong
                  rw [List.append_assoc] at whole
                  exact whole
              | ok result =>
                  obtain ⟨right, after⟩ := result
                  rw [readRight] at rightAnswers
                  have rightEnds := rightAnswers.tight (by decide)
                  cases after with
                  | nil => exact .inl stops_nil
                  | cons again behind =>
                      -- the only place where a reader leaves what no phrase can go on with
                      by_cases chained : again.token.rank = Level.comparison.rank
                      · obtain ⟨rightFront, rfl, rightPhrase, rightSpelled⟩ :=
                          read_taken readRight rightEnds (by omega)
                        refine .inr ⟨Nat.le_refl _, ⟨again, behind, rfl, chained⟩,
                          front ++ lexeme :: rightFront, by simp, ?_⟩
                        have refused := refused_chained leftPhrase rightPhrase compares chained
                          (behind.map Lexeme.token)
                        simpa [leftSpelled, rightSpelled] using refused
                      · exact .inl (stops_past rightEnds rfl chained)

theorem negation_answers
    (reads : ∀ (level : Level) (input : List Lexeme), 7 * input.length + level.rank < fuel →
      Answers level (IsPhrase level) input (read fuel level input))
    (input : List Lexeme) (enough : 7 * input.length + Level.comparison.rank < fuel) :
    Answers .negation (IsPhrase .negation) input (read (fuel + 1) .negation input) := by
  have ends (rest : List Token) (stops : Stops .comparison rest) : Stops .negation rest := by
    cases rest with
    | nil => exact stops_nil
    | cons token rest => exact stops_past stops rfl (rank_ne_negation token)
  cases input with
  | nil =>
      refine (reads .comparison [] enough).lift ends (by decide) fun rest refused => ?_
      exact refused.behind [] fun front parts wrong => refused_positive (by simp [← parts]) wrong
  | cons lexeme rest =>
      rw [List.length_cons] at enough
      simp only [read]
      split
      · next negates =>
          have word := negation_iff.mp negates
          have answers := reads .negation rest (by simp only [Level.rank] at enough ⊢; omega)
          cases taken : read fuel .negation rest with
          | error stuck =>
              rw [taken] at answers
              exact answers.behind [lexeme] fun _ _ => refused_negated word
          | ok result =>
              rw [taken] at answers
              exact Leaves.lift answers (fun _ stops => stops) (Nat.le_refl _) fun refused =>
                refused.behind [lexeme] fun _ _ => refused_negated word
      · next plain =>
          rw [negation_iff] at plain
          refine (reads .comparison (lexeme :: rest) enough).lift ends (by decide)
            fun rest refused => ?_
          exact refused.behind [] fun front parts wrong =>
            refused_positive (by simpa [← parts] using plain) wrong

/-- With enough fuel, every level answers so. -/
theorem read_answers (fuel : Nat) (level : Level) (input : List Lexeme)
    (enough : 7 * input.length + level.rank < fuel) :
    Answers level (IsPhrase level) input (read fuel level input) := by
  -- each level answers so if the levels below it do, and brackets start over with fewer lexemes
  induction fuel generalizing level input with
  | zero => exact absurd enough (Nat.not_lt_zero _)
  | succ fuel reads =>
      cases level with
      | disjunction =>
          exact joined_answers .or (reads _) input (by simp only [Level.rank] at enough ⊢; omega)
      | conjunction =>
          exact joined_answers .and (reads _) input (by simp only [Level.rank] at enough ⊢; omega)
      | negation =>
          exact negation_answers reads input (by simp only [Level.rank] at enough ⊢; omega)
      | comparison =>
          exact comparison_answers (reads _) input (by simp only [Level.rank] at enough ⊢; omega)
      | sum =>
          exact joined_answers .signs (reads _) input
            (by simp only [Level.rank] at enough ⊢; omega)
      | access =>
          simp only [Level.rank] at enough
          have answers := reads .primary input (by simp only [Level.rank]; omega)
          unfold read
          cases taken : read fuel .primary input with
          | error stuck =>
              rw [taken] at answers
              exact answers.behind [] fun _ _ => refused_base
          | ok result =>
              obtain ⟨base, rest⟩ := result
              obtain ⟨front, rfl, phrase, spelled⟩ := read_taken taken (stops_primary _)
                (by simp only [Level.rank]; omega)
              rw [List.length_append] at enough
              have further := join_access_answers (reads _) rest.length base rest (Nat.le_refl _)
                (by omega)
              refine further.goes_on fun rest refused => ?_
              refine refused.behind front fun _ _ wrong => ?_
              rw [← spelled]
              exact refused_access phrase wrong
      | primary =>
          exact primary_answers reads input (by simp only [Level.rank] at enough; omega)

end Levels

section Texts

def IsExpression (tokens : List Token) : Prop :=
  ∃ (input : List Lexeme) (tree : Expr), input.map Lexeme.token = tokens ∧
    ofLexemes input = .ok tree

def Begun (tokens : List Token) : Prop := ∃ more, IsExpression (tokens ++ more)

theorem is_expression_iff {tokens : List Token} :
    IsExpression tokens ↔ IsPhrase .disjunction tokens := by
  constructor
  · rintro ⟨input, tree, rfl, read⟩
    obtain ⟨phrase, spelled, -⟩ := of_lexemes_iff.mp read
    exact ⟨phrase, spelled⟩
  · rintro ⟨phrase, rfl⟩
    have spelled : (phrase.tokens.map fun token => Lexeme.mk token 0).map Lexeme.token =
        phrase.tokens := by simp [Function.comp_def]
    exact ⟨_, phrase.tree, spelled, of_lexemes_iff.mpr ⟨phrase, spelled.symm, rfl⟩⟩

theorem Begun.front {front back : List Token} (begun : Begun (front ++ back)) : Begun front := by
  obtain ⟨more, whole⟩ := begun
  exact ⟨back ++ more, by rwa [← List.append_assoc]⟩

def BrokenAt (input rest : List Lexeme) : Prop :=
  ∃ front, input = front ++ rest ∧ Begun (front.map Lexeme.token) ∧
    ∀ wrong later, rest = wrong :: later → ¬ Begun (front.map Lexeme.token ++ [wrong.token])

theorem Refused.broken (refused : Refused .disjunction (IsPhrase .disjunction) input rest) :
    BrokenAt input rest := by
  obtain ⟨front, rfl, goes_on, wrong⟩ := refused
  obtain ⟨more, whole⟩ := goes_on
  refine ⟨front, rfl, ⟨more, is_expression_iff.mpr whole⟩, ?_⟩
  rintro lexeme later rfl ⟨others, also⟩
  exact wrong _ _ rfl _ [] others (is_expression_iff.mp also) stops_nil (by simp)

/-- Behind a whole expression, at a token with which it cannot go on. -/
theorem broken_behind (phrase : Phrase .disjunction) {front : List Lexeme}
    (spelled : phrase.tokens = front.map Lexeme.token)
    (stops : Stops .disjunction (rest.map Lexeme.token)) : BrokenAt (front ++ rest) rest := by
  refine ⟨front, rfl, ⟨[], is_expression_iff.mpr ⟨phrase, by simp [spelled]⟩⟩, ?_⟩
  rintro wrong later rfl ⟨more, also⟩
  obtain ⟨other, whole⟩ := is_expression_iff.mp also
  have ends : Stops .disjunction (wrong.token :: more) := by simpa using stops
  have ⟨_, nothing⟩ := phrase_unique other phrase [] (wrong.token :: more)
    (by simp [whole, spelled]) stops_nil ends
  cases nothing

theorem of_lexemes_broken {stuck : Stuck} (failed : ofLexemes input = .error stuck) :
    BrokenAt input stuck.rest := by
  have enough : 7 * input.length + Level.disjunction.rank < enoughFuel input := by
    simp only [enoughFuel, Level.rank]
    omega
  have answers := read_answers _ _ _ enough
  rcases bind_eq_error.mp failed with stopped | ⟨⟨tree, rest⟩, taken, behind⟩
  · rw [readDisjunction] at stopped
    rw [stopped] at answers
    exact answers.broken
  · have left_over : stuck.rest = rest := by
      have unended := error_of_return behind
      unfold expectEnd at unended
      split at unended
      · cases unended
      · cases unended
        rfl
    rw [readDisjunction] at taken
    rw [taken] at answers
    rw [left_over]
    rcases answers with stops | ⟨-, -, refused⟩
    · obtain ⟨front, rfl, phrase, spelled⟩ := read_taken taken stops enough
      exact broken_behind phrase spelled stops
    · exact refused.broken

/-- Where a text goes wrong of which the lexemes are given: at the first of them with which those
up to it begin no expression, or behind all of them if an expression goes on with more. -/
inductive FaultyAt (source : String) (lexemes : List Lexeme) : Nat → Prop
  | wrong {front later : List Lexeme} {wrong : Lexeme} (parts : lexemes = front ++ wrong :: later)
      (stands : StandsIn source.toList 0 wrong) (begun : Begun (front.map Lexeme.token))
      (broken : ¬ Begun (front.map Lexeme.token ++ [wrong.token])) :
      FaultyAt source lexemes wrong.offset
  | missing {more : List Token} (some_more : more ≠ [])
      (whole : IsExpression (lexemes.map Lexeme.token ++ more)) :
      FaultyAt source lexemes source.utf8ByteSize

theorem begun_before_wrong {front other later behind : List Lexeme} {wrong : Lexeme}
    (broken : ¬ Begun (front.map Lexeme.token ++ [wrong.token]))
    (same : front ++ wrong :: later = other ++ behind)
    (begun : Begun (other.map Lexeme.token)) : other.length ≤ front.length := by
  by_contra longer
  have whole : front ++ [wrong] <+: other := by
    apply List.prefix_of_prefix_length_le ⟨later, List.append_cons .. |>.symm⟩ ⟨behind, same.symm⟩
    rw [List.length_append, List.length_singleton]
    omega
  obtain ⟨between, rfl⟩ := whole
  rw [List.map_append, List.map_append] at begun
  exact broken begun.front

theorem faulty_at_unique {source : String} {lexemes : List Lexeme} {offset other : Nat}
    (faulty : FaultyAt source lexemes offset) (also : FaultyAt source lexemes other) :
    offset = other := by
  have not_missing {front later : List Lexeme} {wrong : Lexeme} {more : List Token}
      (broken : ¬ Begun (front.map Lexeme.token ++ [wrong.token]))
      (whole : IsExpression ((front ++ wrong :: later).map Lexeme.token ++ more)) : False := by
    have short := begun_before_wrong broken (List.append_nil _).symm ⟨more, whole⟩
    rw [List.length_append, List.length_cons] at short
    omega
  cases faulty with
  | @wrong front later wrong parts stands begun broken =>
      subst parts
      cases also with
      | @wrong otherFront otherLater otherWrong same otherStands otherBegun otherBroken =>
          have lengths : front.length = otherFront.length :=
            Nat.le_antisymm (begun_before_wrong otherBroken same.symm begun)
              (begun_before_wrong broken same otherBegun)
          rw [(List.cons.inj (List.append_inj_right same lengths)).1]
      | missing some_more whole => exact (not_missing broken whole).elim
  | missing some_more whole =>
      cases also with
      | wrong parts stands begun broken =>
          subst parts
          exact (not_missing broken whole).elim
      | missing => rfl

/-- The place where a refused text goes wrong is the one that its error points at. -/
theorem faulty_at_error {source : String} {lexemes : List Lexeme} {error : SyntaxError}
    (lexed : lex source = .ok lexemes) (refused : Expr.parse source = .error error) :
    FaultyAt source lexemes error.offset := by
  rw [Expr.parse, lexed] at refused
  obtain ⟨stuck, failed, located⟩ := mapError_eq_error.mp refused
  obtain ⟨front, parts, begun, broken⟩ := of_lexemes_broken failed
  cases ahead : stuck.rest with
  | nil =>
      rw [ahead, List.append_nil] at parts
      subst parts
      have at_end : source.utf8ByteSize = error.offset := by
        rw [← located, Stuck.locate, ahead]
      obtain ⟨more, whole⟩ := begun
      have some_more : more ≠ [] := by
        rintro rfl
        rw [List.append_nil, is_expression_iff] at whole
        obtain ⟨phrase, spelled⟩ := whole
        rw [of_lexemes_iff.mpr ⟨phrase, spelled, rfl⟩] at failed
        cases failed
      exact at_end ▸ .missing some_more whole
  | cons wrong later =>
      rw [ahead] at parts
      have at_wrong : wrong.offset = error.offset := by
        rw [← located, Stuck.locate, ahead]
      have stands := lexed_stand lexed wrong (by simp [parts])
      exact at_wrong ▸ .wrong parts stands begun (broken wrong later ahead)

/-- A text goes wrong between two of its characters, or at its end. -/
theorem FaultyAt.boundary {source : String} {lexemes : List Lexeme} {offset : Nat}
    (faulty : FaultyAt source lexemes offset) :
    ∃ before after : String, source = before ++ after ∧ before.utf8ByteSize = offset := by
  cases faulty with
  | wrong parts stands begun broken =>
      obtain ⟨before, first, rest, after, chars, place, -⟩ := stands
      refine ⟨.ofList before, .ofList (first :: rest), ?_, ?_⟩
      · rw [← String.ofList_append, ← chars, String.ofList_toList]
      · rw [Text.byteSize_eq, String.toList_ofList, ← place, Nat.zero_add]
  | missing some_more whole => exact ⟨source, "", by simp, rfl⟩

/-- A text that falls into lexemes but is refused is refused at the first wrong one of them, or
at its end if they could go on. Either way that is a place between two characters. -/
theorem refused_where_faulty {source : String} {lexemes : List Lexeme} {error : SyntaxError}
    (lexed : lex source = .ok lexemes) (refused : Expr.parse source = .error error) :
    (∀ offset, FaultyAt source lexemes offset ↔ error.offset = offset) ∧
      ∃ before after : String, source = before ++ after ∧ before.utf8ByteSize = error.offset := by
  have faulty := faulty_at_error lexed refused
  refine ⟨fun offset => ⟨faulty_at_unique faulty, ?_⟩, faulty.boundary⟩
  rintro rfl
  exact faulty

/-- A second comparison in a row, at its sign. -/
theorem refused_at_second_sign : ∃ (lexemes : List Lexeme) (error : SyntaxError),
    lex "a == b == c" = .ok lexemes ∧ Expr.parse "a == b == c" = .error error ∧
      error = ⟨.trailingInput, 7⟩ ∧
      (∀ offset, FaultyAt "a == b == c" lexemes offset ↔ error.offset = offset) ∧
      ∃ before after : String, "a == b == c" = before ++ after ∧
        before.utf8ByteSize = error.offset :=
  ⟨_, _, rfl, rfl, rfl, refused_where_faulty rfl rfl⟩

end Texts

end Letterpress.Expr
