import Letterpress.Proofs.Expr.Grammar
import Letterpress.Proofs.Outcome

/-!
The readers against the grammar. What a reader answers is the tree of a phrase that it has
read; and before any lexeme at which a phrase has to end, the reader of its level reads that
phrase, since it goes on for as long as it can and a phrase could not go on either. The
fuel that a phrase needs grows with its tokens: seven levels may lie between two of them.
-/

namespace Letterpress.Expr

variable {level operand : Level}

section Tables

def Joins.operator? : Joins level operand → Token → Option (Expr → Expr → Expr)
  | .or => orOperator?
  | .and => andOperator?
  | .signs => sumOperator?

theorem operator_iff {rule : Joins level operand} {token : Token}
    {combine : Expr → Expr → Expr} :
    rule.operator? token = some combine ↔ (token, combine) ∈ rule.words := by
  cases rule with
  | or =>
      simp only [Joins.operator?, Joins.words, List.mem_cons, Prod.mk.injEq, List.not_mem_nil]
      unfold orOperator?
      split <;> simp_all [eq_comm]
  | and =>
      simp only [Joins.operator?, Joins.words, List.mem_cons, Prod.mk.injEq, List.not_mem_nil]
      unfold andOperator?
      split <;> simp_all [eq_comm]
  | signs =>
      simp only [Joins.operator?, Joins.words, List.mem_cons, Prod.mk.injEq, List.not_mem_nil]
      unfold sumOperator?
      split <;> simp_all [eq_comm]

theorem comparison_iff {token : Token} {operator : BinaryOperator} :
    comparison? token = some operator ↔ (token, operator) ∈ comparisons := by
  simp only [comparisons, List.mem_cons, Prod.mk.injEq, List.not_mem_nil]
  unfold comparison?
  split <;> simp_all [eq_comm]

theorem negation_iff {token : Token} : isNegation token = true ↔ token ∈ negations := by
  simp only [negations, List.mem_cons, List.not_mem_nil]
  unfold isNegation
  split <;> simp_all

theorem word_iff {word : String} {tree : Expr} : ofWord word = .ok tree ↔
    (∃ value, (word, value) ∈ constants ∧ tree = .literal value) ∨
      word ∉ reserved ∧ tree = .var word := by
  unfold ofWord
  split
  · next yes => simp [yes, constants, reserved, eq_comm]
  · next yes =>
      split
      · next no => simp [no, constants, reserved, eq_comm]
      · next no =>
          split
          · next null => rcases null with rfl | rfl <;> simp [constants, reserved, eq_comm]
          · next null =>
              rw [not_or] at null
              split
              · next keyword => simp [constants, yes, no, null, keyword]
              · next free => simp [constants, yes, no, null, free, eq_comm]

theorem expect_iff {symbol : Symbol} {input rest : List Lexeme} :
    expect symbol input = .ok rest ↔ ∃ offset, input = ⟨.symbol symbol, offset⟩ :: rest := by
  unfold expect
  split
  · split <;> simp_all
  · simp_all

theorem no_operator (rule : Joins level operand) {token : Token}
    (beyond : level.rank < token.rank) :
    rule.operator? token = none := by
  cases found : rule.operator? token with
  | none => rfl
  | some combine => exact absurd (rank_of_joint (operator_iff.mp found)) (Nat.ne_of_gt beyond)

theorem no_comparison {token : Token} (beyond : Level.comparison.rank < token.rank) :
    comparison? token = none := by
  cases found : comparison? token with
  | none => rfl
  | some operator =>
      exact absurd (rank_of_comparison (comparison_iff.mp found)) (Nat.ne_of_gt beyond)

end Tables

section Soundness

/-- What a reader takes is a phrase of the level, and what it answers is the phrase's tree. -/
def Sound (level : Level) (reader : List Lexeme → Outcome) : Prop :=
  ∀ (input rest : List Lexeme) (tree : Expr), reader input = .ok (tree, rest) →
    ∃ phrase : Phrase level, phrase.tree = tree ∧
      input.map Lexeme.token = phrase.tokens ++ rest.map Lexeme.token

theorem join_left_sound (rule : Joins level operand) {reader : List Lexeme → Outcome}
    (sound : Sound operand reader) (fuel : Nat) {left tree : Expr} {input rest : List Lexeme}
    (joined : joinLeft rule.operator? reader fuel left input = .ok (tree, rest)) :
    ∃ further : Further level, further.extend left = tree ∧
      input.map Lexeme.token = further.tokens ++ rest.map Lexeme.token := by
  induction fuel generalizing left input with
  | zero =>
      cases joined
      exact ⟨.nothing, rfl, rfl⟩
  | succ fuel joins =>
      cases input with
      | nil =>
          cases joined
          exact ⟨.nothing, rfl, rfl⟩
      | cons lexeme after =>
          simp only [joinLeft] at joined
          split at joined
          · cases joined
            exact ⟨.nothing, rfl, rfl⟩
          · next combine found =>
              split at joined
              · cases joined
              · next right behind read =>
                  obtain ⟨next, rfl, taken⟩ := sound _ _ _ read
                  obtain ⟨further, extends_to, others⟩ := joins joined
                  refine ⟨.operand rule lexeme.token combine (operator_iff.mp found) next further,
                    extends_to, ?_⟩
                  simp [Further.tokens, taken, others]

theorem join_access_sound {index : List Lexeme → Outcome} (sound : Sound .disjunction index)
    (fuel : Nat) {base tree : Expr} {input rest : List Lexeme}
    (joined : joinAccess index fuel base input = .ok (tree, rest)) :
    ∃ further : Further .access, further.extend base = tree ∧
      input.map Lexeme.token = further.tokens ++ rest.map Lexeme.token := by
  induction fuel generalizing base input with
  | zero =>
      cases joined
      exact ⟨.nothing, rfl, rfl⟩
  | succ fuel joins =>
      unfold joinAccess at joined
      split at joined
      · split at joined
        · next name _ after =>
            obtain ⟨further, extends_to, others⟩ := joins joined
            exact ⟨.field name further, extends_to, by simp [Further.tokens, others]⟩
        · cases joined
      · split at joined
        · cases joined
        · next key behind read =>
            obtain ⟨key, rfl, taken⟩ := sound _ _ _ read
            split at joined
            · cases joined
            · next after closed =>
                obtain ⟨offset, rfl⟩ := expect_iff.mp closed
                obtain ⟨further, extends_to, others⟩ := joins joined
                exact ⟨.index key further, extends_to, by simp [Further.tokens, taken, others]⟩
      · cases joined
        exact ⟨.nothing, rfl, rfl⟩

theorem read_joined (rule : Joins level operand) (fuel : Nat) (input : List Lexeme) :
    read (fuel + 1) level input =
      match read fuel operand input with
      | .error stuck => .error stuck
      | .ok (left, rest) =>
          joinLeft rule.operator? (read fuel operand) rest.length left rest := by
  cases rule <;> rfl

theorem joined_sound (rule : Joins level operand) {fuel : Nat}
    (sound : Sound operand (read fuel operand)) : Sound level (read (fuel + 1) level) := by
  intro input rest tree taken
  rw [read_joined rule] at taken
  split at taken
  · cases taken
  · next left after read =>
      obtain ⟨first, rfl, firstTaken⟩ := sound _ _ _ read
      obtain ⟨further, extends_to, others⟩ := join_left_sound rule sound _ taken
      exact ⟨.joined rule first further, extends_to, by simp [Phrase.tokens, firstTaken, others]⟩

theorem primary_sound {fuel : Nat} (sound : ∀ level, Sound level (read fuel level)) :
    Sound .primary (read (fuel + 1) .primary) := by
  intro input rest tree taken
  unfold read at taken
  split at taken
  · cases taken
  · next content _ after =>
      cases taken
      exact ⟨.literal _ _ (.str content), rfl, rfl⟩
  · next number _ after =>
      cases taken
      exact ⟨.literal _ _ (.int number), rfl, rfl⟩
  · next number _ after =>
      cases taken
      exact ⟨.literal _ _ (.float number), rfl, rfl⟩
  · next word _ after =>
      split at taken
      · cases taken
      · next meant =>
          cases taken
          rcases word_iff.mp meant with ⟨value, constant, rfl⟩ | ⟨free, rfl⟩
          · exact ⟨.literal _ value (.word constant), rfl, rfl⟩
          · exact ⟨.named word free, rfl, rfl⟩
  · split at taken
    · cases taken
    · next read =>
        obtain ⟨inner, rfl, innerTaken⟩ := sound _ _ _ _ read
        split at taken
        · cases taken
        · next closed =>
            cases taken
            obtain ⟨offset, rfl⟩ := expect_iff.mp closed
            exact ⟨.grouped inner, rfl, by simp [Phrase.tokens, innerTaken]⟩
  · split at taken
    · cases taken
    · next read =>
        cases taken
        obtain ⟨operand, rfl, operandTaken⟩ := sound _ _ _ _ read
        exact ⟨.negative operand, rfl, by simp [Phrase.tokens, operandTaken]⟩
  · cases taken

theorem read_sound (fuel : Nat) (level : Level) : Sound level (read fuel level) := by
  induction fuel generalizing level with
  | zero =>
      intro input rest tree taken
      cases taken
  | succ fuel sound =>
      cases level with
      | disjunction => exact joined_sound .or (sound _)
      | conjunction => exact joined_sound .and (sound _)
      | negation =>
          intro input rest tree taken
          unfold read at taken
          split at taken
          · obtain ⟨inner, rfl, innerTaken⟩ := sound _ _ _ _ taken
            exact ⟨.positive inner, rfl, innerTaken⟩
          · next lexeme after =>
              split at taken
              · next negates =>
                  split at taken
                  · cases taken
                  · next read =>
                      cases taken
                      obtain ⟨operand, rfl, operandTaken⟩ := sound _ _ _ _ read
                      exact ⟨.not lexeme.token (negation_iff.mp negates) operand, rfl,
                        by simp [Phrase.tokens, operandTaken]⟩
              · obtain ⟨inner, rfl, innerTaken⟩ := sound _ _ _ _ taken
                exact ⟨.positive inner, rfl, innerTaken⟩
      | comparison =>
          intro input rest tree taken
          unfold read at taken
          split at taken
          · cases taken
          · next read =>
              cases taken
              obtain ⟨inner, rfl, innerTaken⟩ := sound _ _ _ _ read
              exact ⟨.single inner, rfl, innerTaken⟩
          · next lexeme after read =>
              obtain ⟨left, rfl, leftTaken⟩ := sound _ _ _ _ read
              split at taken
              · cases taken
                exact ⟨.single left, rfl, leftTaken⟩
              · next operator found =>
                  split at taken
                  · cases taken
                  · next readRight =>
                      cases taken
                      obtain ⟨right, rfl, rightTaken⟩ := sound _ _ _ _ readRight
                      exact ⟨.compared left lexeme.token operator (comparison_iff.mp found) right,
                        rfl, by simp [Phrase.tokens, leftTaken, rightTaken]⟩
      | sum => exact joined_sound .signs (sound _)
      | access =>
          intro input rest tree taken
          unfold read at taken
          split at taken
          · cases taken
          · next read =>
              obtain ⟨base, rfl, baseTaken⟩ := sound _ _ _ _ read
              obtain ⟨further, extends_to, others⟩ := join_access_sound (sound _) _ taken
              exact ⟨.access base further, extends_to, by simp [Phrase.tokens, baseTaken, others]⟩
      | primary => exact primary_sound sound

end Soundness

section Completeness

def goOn (fuel : Nat) : Level → Nat → Expr → List Lexeme → Outcome
  | .disjunction => joinLeft orOperator? (read fuel .conjunction)
  | .conjunction => joinLeft andOperator? (read fuel .negation)
  | .sum => joinLeft sumOperator? (read fuel .access)
  | .access => joinAccess (read fuel .disjunction)
  | _ => fun _ left input => .ok (left, input)

theorem go_on_joined (rule : Joins level operand) (fuel : Nat) :
    goOn fuel level = joinLeft rule.operator? (read fuel operand) := by
  cases rule <;> rfl

theorem join_left_stops (rule : Joins level operand) {reader : List Lexeme → Outcome} (bound : Nat)
    (left : Expr) {rest : List Lexeme} (stops : Stops level (rest.map Lexeme.token)) :
    joinLeft rule.operator? reader bound left rest = .ok (left, rest) := by
  cases bound with
  | zero => rfl
  | succ bound =>
      cases rest with
      | nil => rfl
      | cons lexeme rest => simp [joinLeft, no_operator rule (stops_cons.mp stops)]

theorem join_access_stops {index : List Lexeme → Outcome} (bound : Nat) (base : Expr)
    {rest : List Lexeme} (stops : Stops .access (rest.map Lexeme.token)) :
    joinAccess index bound base rest = .ok (base, rest) := by
  cases bound with
  | zero => rfl
  | succ bound =>
      unfold joinAccess
      split
      · cases Nat.lt_irrefl _ (stops_cons.mp stops)
      · cases Nat.lt_irrefl _ (stops_cons.mp stops)
      · rfl

theorem go_on_stops (fuel bound : Nat) (left : Expr) {rest : List Lexeme}
    (stops : Stops level (rest.map Lexeme.token)) :
    goOn fuel level bound left rest = .ok (left, rest) := by
  cases level with
  | disjunction => exact join_left_stops .or bound left stops
  | conjunction => exact join_left_stops .and bound left stops
  | sum => exact join_left_stops .signs bound left stops
  | access => exact join_access_stops bound left stops
  | negation => rfl
  | comparison => rfl
  | primary => rfl

theorem expect_found (symbol : Symbol) (offset : Nat) (rest : List Lexeme) :
    expect symbol (⟨.symbol symbol, offset⟩ :: rest) = .ok rest :=
  expect_iff.mpr ⟨offset, rfl⟩

mutual

/-- Before a lexeme at which a phrase has to end, the reader reads just the phrase. -/
theorem phrase_read : {level : Level} → (phrase : Phrase level) → (front rest : List Lexeme) →
    (fuel : Nat) → front.map Lexeme.token = phrase.tokens →
    Stops level (rest.map Lexeme.token) → 7 * front.length + level.rank < fuel →
    read fuel level (front ++ rest) = .ok (phrase.tree, rest)
  | level, @Phrase.joined _ operand rule first further, front, rest, fuel + 1, spelled, stops,
      enough => by
    obtain ⟨firstFront, otherFront, rfl, firstSpelled, othersSpelled⟩ :=
      List.map_eq_append_iff.mp spelled
    have below := rule.below
    rw [List.length_append] at enough
    have ends : Stops operand ((otherFront ++ rest).map Lexeme.token) := by
      rw [List.map_append, othersSpelled]
      exact further_stops rule further stops
    have reads := phrase_read first firstFront (otherFront ++ rest) fuel firstSpelled ends
      (by omega)
    have goes := further_read further otherFront rest fuel (otherFront ++ rest).length first.tree
      othersSpelled stops (by omega) (by simp)
    rw [go_on_joined rule] at goes
    simpa [read_joined rule, reads, Phrase.tree] using goes
  | _, .not word negates operand, front, rest, fuel + 1, spelled, stops, enough => by
    obtain ⟨lexeme, others, rfl, rfl, othersSpelled⟩ := List.map_eq_cons_iff.mp spelled
    simp only [List.length_cons] at enough
    have reads := phrase_read operand others rest fuel othersSpelled stops (by omega)
    simp [read, negation_iff.mpr negates, reads, Phrase.tree]
  | _, .positive inner, front, rest, fuel + 1, spelled, stops, enough => by
    obtain ⟨first, more, starts, fine⟩ := starts_positive inner (by decide)
    have reads := phrase_read inner front rest fuel spelled (stops.tighter (by decide))
      (by simp only [Level.rank] at enough ⊢; omega)
    rw [Phrase.tokens, starts] at spelled
    obtain ⟨lexeme, others, rfl, rfl, -⟩ := List.map_eq_cons_iff.mp spelled
    simpa [read, negation_iff, fine, Phrase.tree] using reads
  | _, .single inner, front, rest, fuel + 1, spelled, stops, enough => by
    have reads := phrase_read inner front rest fuel spelled (stops.tighter (by decide))
      (by simp only [Level.rank] at enough ⊢; omega)
    cases rest with
    | nil => simp only [read, reads, Phrase.tree]
    | cons lexeme rest =>
        simp only [read, reads, no_comparison (stops_cons.mp stops), Phrase.tree]
  | _, .compared left sign operator compares right, front, rest, fuel + 1, spelled, stops,
      enough => by
    obtain ⟨leftFront, others, rfl, leftSpelled, othersSpelled⟩ :=
      List.map_eq_append_iff.mp spelled
    obtain ⟨lexeme, rightFront, rfl, rfl, rightSpelled⟩ := List.map_eq_cons_iff.mp othersSpelled
    simp only [List.length_append, List.length_cons, Level.rank] at enough
    have reads := phrase_read left leftFront (lexeme :: (rightFront ++ rest)) fuel leftSpelled
      (compared_stops compares) (by simp only [Level.rank]; omega)
    have readsRight := phrase_read right rightFront rest fuel rightSpelled
      (stops.tighter (by decide)) (by simp only [Level.rank]; omega)
    simp [read, reads, comparison_iff.mpr compares, readsRight, Phrase.tree]
  | _, .access base further, front, rest, fuel + 1, spelled, stops, enough => by
    obtain ⟨baseFront, otherFront, rfl, baseSpelled, othersSpelled⟩ :=
      List.map_eq_append_iff.mp spelled
    simp only [List.length_append, Level.rank] at enough
    have reads := phrase_read base baseFront (otherFront ++ rest) fuel baseSpelled
      (stops_primary _) (by simp only [Level.rank]; omega)
    have goes := further_read further otherFront rest fuel (otherFront ++ rest).length base.tree
      othersSpelled stops (by omega) (by simp)
    simpa [read, reads, goOn, Phrase.tree] using goes
  | _, .literal token value spells, front, rest, fuel + 1, spelled, _, _ => by
    obtain ⟨⟨_, offset⟩, others, rfl, rfl, none⟩ := List.map_eq_cons_iff.mp spelled
    obtain rfl := List.map_eq_nil_iff.mp none
    cases spells with
    | str content => rfl
    | int number => rfl
    | float number => rfl
    | word constant =>
        simp [read, word_iff.mpr (.inl ⟨value, constant, rfl⟩), Phrase.tree]
  | _, .named name free, front, rest, fuel + 1, spelled, _, _ => by
    obtain ⟨⟨_, offset⟩, others, rfl, rfl, none⟩ := List.map_eq_cons_iff.mp spelled
    obtain rfl := List.map_eq_nil_iff.mp none
    simp [read, word_iff.mpr (.inr ⟨free, rfl⟩), Phrase.tree]
  | _, .grouped inner, front, rest, fuel + 1, spelled, _, enough => by
    obtain ⟨⟨_, offset⟩, others, rfl, rfl, othersSpelled⟩ := List.map_eq_cons_iff.mp spelled
    obtain ⟨innerFront, last, rfl, innerSpelled, lastSpelled⟩ :=
      List.map_eq_append_iff.mp othersSpelled
    obtain ⟨⟨_, closing⟩, none, rfl, rfl, empty⟩ := List.map_eq_cons_iff.mp lastSpelled
    obtain rfl := List.map_eq_nil_iff.mp empty
    simp only [List.length_append, List.length_cons, Level.rank] at enough
    have reads := phrase_read inner innerFront (⟨.symbol .closeParen, closing⟩ :: rest) fuel
      innerSpelled (by simp [Level.rank, Token.rank]) (by simp only [Level.rank]; omega)
    simp [read, reads, expect_found, Phrase.tree]
  | _, .negative operand, front, rest, fuel + 1, spelled, _, enough => by
    obtain ⟨⟨_, offset⟩, others, rfl, rfl, othersSpelled⟩ := List.map_eq_cons_iff.mp spelled
    simp only [List.length_cons] at enough
    have reads := phrase_read operand others rest fuel othersSpelled (stops_primary _) (by omega)
    simp [read, reads, Phrase.tree]

theorem further_read : {level : Level} → (further : Further level) →
    (front rest : List Lexeme) → (fuel bound : Nat) → (left : Expr) →
    front.map Lexeme.token = further.tokens → Stops level (rest.map Lexeme.token) →
    7 * front.length ≤ fuel → front.length ≤ bound →
    goOn fuel level bound left (front ++ rest) = .ok (further.extend left, rest)
  | _, .nothing, front, rest, fuel, bound, left, spelled, stops, _, _ => by
    obtain rfl := List.map_eq_nil_iff.mp spelled
    exact go_on_stops fuel bound left stops
  | level, @Further.operand _ operand rule word combine joins next further, front, rest, fuel,
      bound, left, spelled, stops, enough, bounded => by
    obtain ⟨lexeme, others, rfl, rfl, othersSpelled⟩ := List.map_eq_cons_iff.mp spelled
    obtain ⟨nextFront, otherFront, rfl, nextSpelled, furtherSpelled⟩ :=
      List.map_eq_append_iff.mp othersSpelled
    simp only [List.length_append, List.length_cons] at enough bounded
    obtain ⟨bound, rfl⟩ := Nat.exists_eq_succ_of_ne_zero (by omega : bound ≠ 0)
    have ends : Stops operand ((otherFront ++ rest).map Lexeme.token) := by
      rw [List.map_append, furtherSpelled]
      exact further_stops rule further stops
    have tight : operand.rank < 7 := by cases operand <;> decide
    have reads := phrase_read next nextFront (otherFront ++ rest) fuel nextSpelled ends
      (by omega)
    have goes := further_read further otherFront rest fuel bound (combine left next.tree)
      furtherSpelled stops (by omega) (by omega)
    rw [go_on_joined rule] at goes ⊢
    simpa [joinLeft, operator_iff.mpr joins, reads, Further.extend] using goes
  | _, .field name further, front, rest, fuel, bound, base, spelled, stops, enough,
      bounded => by
    obtain ⟨⟨_, offset⟩, named, rfl, rfl, othersSpelled⟩ := List.map_eq_cons_iff.mp spelled
    obtain ⟨⟨_, place⟩, others, rfl, rfl, furtherSpelled⟩ :=
      List.map_eq_cons_iff.mp othersSpelled
    simp only [List.length_cons] at enough bounded
    obtain ⟨bound, rfl⟩ := Nat.exists_eq_succ_of_ne_zero (by omega : bound ≠ 0)
    exact further_read further others rest fuel bound (.member base (.literal (.str name)))
      furtherSpelled stops (by omega) (by omega)
  | _, .index key further, front, rest, fuel, bound, base, spelled, stops, enough,
      bounded => by
    obtain ⟨⟨_, offset⟩, others, rfl, rfl, othersSpelled⟩ := List.map_eq_cons_iff.mp spelled
    obtain ⟨keyFront, behind, rfl, keySpelled, behindSpelled⟩ :=
      List.map_eq_append_iff.mp othersSpelled
    obtain ⟨⟨_, closing⟩, otherFront, rfl, rfl, furtherSpelled⟩ :=
      List.map_eq_cons_iff.mp behindSpelled
    simp only [List.length_append, List.length_cons] at enough bounded
    obtain ⟨bound, rfl⟩ := Nat.exists_eq_succ_of_ne_zero (by omega : bound ≠ 0)
    have reads := phrase_read key keyFront
      (⟨.symbol .closeBracket, closing⟩ :: (otherFront ++ rest)) fuel keySpelled
      (by simp [Level.rank, Token.rank]) (by simp only [Level.rank]; omega)
    have goes := further_read further otherFront rest fuel bound (.member base key.tree)
      furtherSpelled stops (by omega) (by omega)
    simpa [goOn, joinAccess, reads, expect_found, Further.extend] using goes

end

end Completeness

theorem read_phrase (phrase : Phrase .disjunction) {front rest : List Lexeme}
    (spelled : front.map Lexeme.token = phrase.tokens)
    (stops : Stops .disjunction (rest.map Lexeme.token)) :
    readDisjunction (front ++ rest) = .ok (phrase.tree, rest) :=
  phrase_read phrase front rest _ spelled stops (by simp [enoughFuel, Level.rank]; omega)

theorem expect_end_iff {input : List Lexeme} : expectEnd input = .ok () ↔ input = [] := by
  unfold expectEnd
  cases input <;> simp

theorem of_lexemes_iff {input : List Lexeme} {tree : Expr} : ofLexemes input = .ok tree ↔
    ∃ phrase : Phrase .disjunction, phrase.tokens = input.map Lexeme.token ∧
      phrase.tree = tree := by
  constructor
  · intro read
    simp only [ofLexemes, bind_eq_ok] at read
    obtain ⟨⟨found, rest⟩, taken, _, ended, same⟩ := read
    obtain rfl := expect_end_iff.mp ended
    cases same
    obtain ⟨phrase, means, spelled⟩ := read_sound _ _ _ _ _ taken
    exact ⟨phrase, by simp [spelled], means⟩
  · rintro ⟨phrase, spelled, rfl⟩
    have taken : readDisjunction (input ++ []) = .ok (phrase.tree, []) :=
      read_phrase phrase spelled.symm stops_nil
    rw [List.append_nil] at taken
    simp only [ofLexemes, bind_eq_ok]
    exact ⟨_, taken, (), expect_end_iff.mpr rfl, rfl⟩

end Letterpress.Expr
