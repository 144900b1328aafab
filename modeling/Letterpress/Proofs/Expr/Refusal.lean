import Letterpress.Proofs.Expr.Reading

/-!
Where tokens are refused, told by the grammar alone. They are refused at the next token if they go
on to a phrase but no phrase goes on from them with that one, unless it has ended before. What is
refused within a part of a phrase is refused within the phrase as well: phrases that have to end
before some token are read in one way only, so every phrase that starts with the tokens before the
part has such a part there.
-/

namespace Letterpress.Expr

variable {level operand : Level}

section Ranks

variable {token : Token}

theorem operator_of_rank (rule : Joins level operand) (rank : token.rank = level.rank) :
    rule.operator? token ≠ none := by
  unfold Token.rank at rank
  cases rule <;> split at rank <;> simp_all [Level.rank, Joins.operator?, orOperator?,
    andOperator?, sumOperator?]

theorem comparison_of_rank (rank : token.rank = Level.comparison.rank) :
    comparison? token ≠ none := by
  unfold Token.rank at rank
  split at rank <;> simp_all [Level.rank, comparison?]

theorem access_of_rank (rank : token.rank = Level.access.rank) :
    token = .symbol .dot ∨ token = .symbol .openBracket := by
  unfold Token.rank at rank
  split at rank <;> simp_all [Level.rank]

theorem rank_ne_negation (token : Token) : token.rank ≠ Level.negation.rank := by
  unfold Token.rank
  split <;> decide

theorem next_rank (rule : Joins level operand) : level.rank = operand.rank + 1 := by
  cases rule <;> rfl

end Ranks

section Languages

def IsPhrase (level : Level) (tokens : List Token) : Prop :=
  ∃ phrase : Phrase level, phrase.tokens = tokens

def IsFurther (level : Level) (tokens : List Token) : Prop :=
  ∃ further : Further level, further.tokens = tokens

/-- Tokens that go on to one of a language, while none of it that ends before what may follow the
level goes on from them with the token that comes next. -/
structure RefusedAt (level : Level) (language : List Token → Prop) (front rest : List Token) :
    Prop where
  goes_on : ∃ more, language (front ++ more)
  wrong : ∀ token later, rest = token :: later → ∀ whole after more, language whole →
    Stops level after → whole ++ after ≠ front ++ token :: more

variable {inner outer : Level} {part whole : List Token → Prop} {front rest : List Token}

/-- A part is refused in a whole where it is refused, if the whole has to have such a part behind
its lead. -/
theorem RefusedAt.within (refused : RefusedAt inner part front rest) (lead : List Token)
    (extends_to : ∀ tokens, part tokens → ∃ more, whole (lead ++ tokens ++ more))
    (determined : ∀ token later more, rest = token :: later → ∀ tokens after, whole tokens →
      Stops outer after → tokens ++ after = lead ++ (front ++ token :: more) →
      ∃ middle behind, part middle ∧ Stops inner behind ∧
        middle ++ behind = front ++ token :: more) :
    RefusedAt outer whole (lead ++ front) rest where
  goes_on := by
    obtain ⟨more, complete⟩ := refused.goes_on
    obtain ⟨others, also⟩ := extends_to _ complete
    exact ⟨more ++ others, by simpa using also⟩
  wrong := by
    intro token later same tokens after more complete stops equal
    rw [List.append_assoc] at equal
    obtain ⟨middle, behind, inside, ends, parts⟩ :=
      determined token later more same tokens after complete stops equal
    exact refused.wrong token later same middle behind more inside ends parts

theorem stops_head {token : Token} {later : List Token} (same : rest = token :: later)
    (stops : Stops level rest) (more : List Token) : Stops level (token :: more) := by
  simpa [same] using stops

theorem stops_first {token : Token} {later : List Token} (same : rest = token :: later)
    (stops : Stops level (front ++ rest)) (more : List Token) :
    Stops level (front ++ token :: more) := by
  cases front with
  | nil => exact stops_head same stops more
  | cons first front => simpa using stops

theorem refused_first (rule : Joins level operand)
    (refused : RefusedAt operand (IsPhrase operand) front rest) :
    RefusedAt level (IsPhrase level) front rest := by
  apply refused.within []
  · rintro _ ⟨phrase, rfl⟩
    exact ⟨[], .joined rule phrase .nothing, rfl⟩
  · rintro token later more same _ after ⟨phrase, rfl⟩ stops equal
    obtain ⟨first, further, rfl⟩ := phrase_of_joining rule phrase
    exact ⟨_, _, ⟨first, rfl⟩, further_stops rule further stops,
      by simpa [Phrase.tokens] using equal⟩

theorem refused_further (rule : Joins level operand) (phrase : Phrase operand)
    (ends : Stops operand (front ++ rest))
    (refused : RefusedAt level (IsFurther level) front rest) :
    RefusedAt level (IsPhrase level) (phrase.tokens ++ front) rest := by
  apply refused.within
  · rintro _ ⟨further, rfl⟩
    exact ⟨[], .joined rule phrase further, by simp [Phrase.tokens]⟩
  · rintro token later more same _ after ⟨other, rfl⟩ stops equal
    obtain ⟨first, further, rfl⟩ := phrase_of_joining rule other
    simp only [Phrase.tokens, List.append_assoc] at equal
    have ⟨_, behind⟩ := phrase_unique first phrase _ _ equal (further_stops rule further stops)
      (stops_first same ends more)
    exact ⟨_, after, ⟨further, rfl⟩, stops, behind⟩

/-- What goes on behind a joint is the operand that it joins and what follows that. -/
theorem further_of_joint {rule : Joins level operand} {word : Token}
    {combine : Expr → Expr → Expr} (joins : (word, combine) ∈ rule.words)
    {further : Further level} {after behind : List Token} (stops : Stops level after)
    (equal : further.tokens ++ after = word :: behind) :
    ∃ (next : Phrase operand) (later : Further level), next.tokens ++ (later.tokens ++ after) =
      behind ∧ Stops operand (later.tokens ++ after) := by
  cases further with
  | nothing =>
      simp only [Further.tokens, List.nil_append] at equal
      rw [equal, stops_cons, rank_of_joint joins] at stops
      exact absurd stops (Nat.lt_irrefl _)
  | operand otherRule otherWord otherCombine otherJoins next later =>
      obtain ⟨rfl, rfl⟩ := joins_unique rule otherRule
      simp only [Further.tokens, List.cons_append, List.append_assoc, List.cons.injEq] at equal
      exact ⟨next, later, equal.2, further_stops rule later stops⟩
  | field => cases rule
  | index => cases rule

theorem refused_operand {rule : Joins level operand} {word : Token}
    {combine : Expr → Expr → Expr} (joins : (word, combine) ∈ rule.words)
    (refused : RefusedAt operand (IsPhrase operand) front rest) :
    RefusedAt level (IsFurther level) (word :: front) rest := by
  apply refused.within [word]
  · rintro _ ⟨phrase, rfl⟩
    exact ⟨[], .operand rule word combine joins phrase .nothing, by simp [Further.tokens]⟩
  · rintro token later more same _ after ⟨further, rfl⟩ stops equal
    obtain ⟨next, others, behind, ends⟩ := further_of_joint joins stops equal
    exact ⟨_, _, ⟨next, rfl⟩, ends, behind⟩

theorem refused_behind_operand {rule : Joins level operand} {word : Token}
    {combine : Expr → Expr → Expr} (joins : (word, combine) ∈ rule.words)
    (phrase : Phrase operand) (ends : Stops operand (front ++ rest))
    (refused : RefusedAt level (IsFurther level) front rest) :
    RefusedAt level (IsFurther level) (word :: phrase.tokens ++ front) rest := by
  apply refused.within
  · rintro _ ⟨further, rfl⟩
    exact ⟨[], .operand rule word combine joins phrase further, by simp [Further.tokens]⟩
  · rintro token later more same _ after ⟨further, rfl⟩ stops equal
    rw [List.cons_append] at equal
    obtain ⟨next, others, parts, nextEnds⟩ := further_of_joint joins stops equal
    have ⟨_, behind⟩ := phrase_unique next phrase _ _ parts nextEnds (stops_first same ends more)
    exact ⟨_, after, ⟨others, rfl⟩, stops, behind⟩

theorem refused_base (refused : RefusedAt .primary (IsPhrase .primary) front rest) :
    RefusedAt .access (IsPhrase .access) front rest := by
  apply refused.within []
  · rintro _ ⟨base, rfl⟩
    exact ⟨[], .access base .nothing, rfl⟩
  · rintro token later more same _ after ⟨phrase, rfl⟩ stops equal
    cases phrase with
    | joined rule => cases rule
    | access base further =>
        exact ⟨_, _, ⟨base, rfl⟩, stops_primary _, by simpa [Phrase.tokens] using equal⟩

theorem refused_access (base : Phrase .primary)
    (refused : RefusedAt .access (IsFurther .access) front rest) :
    RefusedAt .access (IsPhrase .access) (base.tokens ++ front) rest := by
  apply refused.within
  · rintro _ ⟨further, rfl⟩
    exact ⟨[], .access base further, by simp [Phrase.tokens]⟩
  · rintro token later more same _ after ⟨phrase, rfl⟩ stops equal
    cases phrase with
    | joined rule => cases rule
    | access other further =>
        simp only [Phrase.tokens, List.append_assoc] at equal
        have ⟨_, behind⟩ := phrase_unique other base _ _ equal (stops_primary _) (stops_primary _)
        exact ⟨_, after, ⟨further, rfl⟩, stops, behind⟩

theorem further_of_bracket {further : Further .access} {after behind : List Token}
    (stops : Stops .access after)
    (equal : further.tokens ++ after = .symbol .openBracket :: behind) :
    ∃ (key : Phrase .disjunction) (later : Further .access),
      key.tokens ++ .symbol .closeBracket :: (later.tokens ++ after) = behind := by
  cases further with
  | nothing =>
      simp only [Further.tokens, List.nil_append] at equal
      rw [equal, stops_cons] at stops
      exact absurd stops (by decide)
  | operand rule => cases rule
  | field name later => cases (List.cons.inj equal).1
  | index key later => exact ⟨key, later, by simpa [Further.tokens] using equal⟩

theorem further_of_dot {further : Further .access} {after behind : List Token}
    (stops : Stops .access after) (equal : further.tokens ++ after = .symbol .dot :: behind) :
    ∃ (name : String) (later : Further .access),
      .name name :: (later.tokens ++ after) = behind := by
  cases further with
  | nothing =>
      simp only [Further.tokens, List.nil_append] at equal
      rw [equal, stops_cons] at stops
      exact absurd stops (by decide)
  | operand rule => cases rule
  | field name later => exact ⟨name, later, by simpa [Further.tokens] using equal⟩
  | index key later => cases (List.cons.inj equal).1

theorem close_stops (symbol : Symbol) (closes : symbol = .closeBracket ∨ symbol = .closeParen)
    (rest : List Token) : Stops .disjunction (.symbol symbol :: rest) := by
  rcases closes with rfl | rfl <;> exact stops_cons.mpr (by decide)

theorem refused_key (refused : RefusedAt .disjunction (IsPhrase .disjunction) front rest) :
    RefusedAt .access (IsFurther .access) (.symbol .openBracket :: front) rest := by
  apply refused.within [.symbol .openBracket]
  · rintro _ ⟨key, rfl⟩
    exact ⟨[.symbol .closeBracket], .index key .nothing, by simp [Further.tokens]⟩
  · rintro token later more same _ after ⟨further, rfl⟩ stops equal
    obtain ⟨key, others, behind⟩ := further_of_bracket stops equal
    exact ⟨_, _, ⟨key, rfl⟩, close_stops _ (.inl rfl) _, behind⟩

theorem refused_unclosed_key (key : Phrase .disjunction) (ends : Stops .disjunction rest)
    (other : ∀ later, rest ≠ .symbol .closeBracket :: later) :
    RefusedAt .access (IsFurther .access) (.symbol .openBracket :: key.tokens) rest where
  goes_on := ⟨[.symbol .closeBracket], .index key .nothing, by simp [Further.tokens]⟩
  wrong := by
    rintro token later same _ after more ⟨further, rfl⟩ stops equal
    obtain ⟨otherKey, others, parts⟩ := further_of_bracket stops equal
    have ⟨_, behind⟩ := phrase_unique otherKey key _ _ parts (close_stops _ (.inl rfl) _)
      (stops_head same ends more)
    exact other later ((List.cons.inj behind).1 ▸ same)

theorem refused_behind_key (key : Phrase .disjunction)
    (refused : RefusedAt .access (IsFurther .access) front rest) :
    RefusedAt .access (IsFurther .access)
      (.symbol .openBracket :: (key.tokens ++ [.symbol .closeBracket]) ++ front) rest := by
  apply refused.within
  · rintro _ ⟨further, rfl⟩
    exact ⟨[], .index key further, by simp [Further.tokens]⟩
  · rintro token later more same _ after ⟨further, rfl⟩ stops equal
    simp only [List.cons_append, List.append_assoc, List.nil_append] at equal
    obtain ⟨otherKey, others, parts⟩ := further_of_bracket stops equal
    have ⟨_, behind⟩ := phrase_unique otherKey key _ _ parts (close_stops _ (.inl rfl) _)
      (close_stops _ (.inl rfl) _)
    exact ⟨_, after, ⟨others, rfl⟩, stops, (List.cons.inj behind).2⟩

theorem refused_attribute (unnamed : ∀ name later, rest ≠ .name name :: later) :
    RefusedAt .access (IsFurther .access) [.symbol .dot] rest where
  goes_on := ⟨[.name "a"], .field "a" .nothing, rfl⟩
  wrong := by
    rintro token later same _ after more ⟨further, rfl⟩ stops equal
    obtain ⟨name, others, behind⟩ := further_of_dot stops equal
    exact unnamed name later ((List.cons.inj behind).1 ▸ same)

theorem refused_behind_attribute (name : String)
    (refused : RefusedAt .access (IsFurther .access) front rest) :
    RefusedAt .access (IsFurther .access) (.symbol .dot :: .name name :: front) rest := by
  apply refused.within [.symbol .dot, .name name]
  · rintro _ ⟨further, rfl⟩
    exact ⟨[], .field name further, by simp [Further.tokens]⟩
  · rintro token later more same _ after ⟨further, rfl⟩ stops equal
    obtain ⟨other, others, behind⟩ := further_of_dot stops equal
    exact ⟨_, after, ⟨others, rfl⟩, stops, (List.cons.inj behind).2⟩

theorem refused_left (refused : RefusedAt .sum (IsPhrase .sum) front rest) :
    RefusedAt .comparison (IsPhrase .comparison) front rest := by
  apply refused.within []
  · rintro _ ⟨inner, rfl⟩
    exact ⟨[], .single inner, by simp [Phrase.tokens]⟩
  · rintro token later more same _ after ⟨phrase, rfl⟩ stops equal
    cases phrase with
    | joined rule => cases rule
    | single inner => exact ⟨_, after, ⟨inner, rfl⟩, stops.tighter (by decide), equal⟩
    | compared left sign operator compares right =>
        exact ⟨_, _, ⟨left, rfl⟩, compared_stops compares, by simpa [Phrase.tokens] using equal⟩

theorem comparison_of_sign {phrase : Phrase .comparison} {left : Phrase .sum} {sign : Token}
    {operator : BinaryOperator} {after behind : List Token}
    (compares : (sign, operator) ∈ comparisons) (stops : Stops .comparison after)
    (equal : phrase.tokens ++ after = left.tokens ++ sign :: behind) :
    ∃ right : Phrase .sum, right.tokens ++ after = behind := by
  cases phrase with
  | joined rule => cases rule
  | single inner =>
      have ⟨_, ended⟩ := phrase_unique inner left _ _ equal (stops.tighter (by decide))
        (compared_stops compares)
      exact absurd (ended ▸ stops) (not_stops_compared compares)
  | compared other otherSign otherOperator otherCompares right =>
      simp only [Phrase.tokens, List.append_assoc, List.cons_append] at equal
      have ⟨_, behindLeft⟩ := phrase_unique other left _ _ equal (compared_stops otherCompares)
        (compared_stops compares)
      exact ⟨right, (List.cons.inj behindLeft).2⟩

theorem refused_right (left : Phrase .sum) {sign : Token} {operator : BinaryOperator}
    (compares : (sign, operator) ∈ comparisons)
    (refused : RefusedAt .sum (IsPhrase .sum) front rest) :
    RefusedAt .comparison (IsPhrase .comparison) (left.tokens ++ [sign] ++ front) rest := by
  apply refused.within
  · rintro _ ⟨right, rfl⟩
    exact ⟨[], .compared left sign operator compares right, by simp [Phrase.tokens]⟩
  · rintro token later more same _ after ⟨phrase, rfl⟩ stops equal
    rw [List.append_assoc, List.singleton_append] at equal
    obtain ⟨right, behind⟩ := comparison_of_sign compares stops equal
    exact ⟨_, after, ⟨right, rfl⟩, stops.tighter (by decide), behind⟩

/-- Comparisons do not chain. -/
theorem refused_chained (left right : Phrase .sum) {sign : Token} {operator : BinaryOperator}
    (compares : (sign, operator) ∈ comparisons) {again : Token}
    (chained : again.rank = Level.comparison.rank) (behind : List Token) :
    RefusedAt .comparison (IsPhrase .comparison) (left.tokens ++ sign :: right.tokens)
      (again :: behind) where
  goes_on := ⟨[], .compared left sign operator compares right, by simp [Phrase.tokens]⟩
  wrong := by
    rintro token later same _ after more ⟨phrase, rfl⟩ stops equal
    obtain ⟨rfl, -⟩ := List.cons.inj same
    rw [List.append_assoc, List.cons_append] at equal
    obtain ⟨other, parts⟩ := comparison_of_sign compares stops equal
    have ends : Stops .sum (again :: more) := stops_cons.mpr (by rw [chained]; decide)
    have ⟨_, ended⟩ := phrase_unique other right _ _ parts (stops.tighter (by decide)) ends
    rw [ended, stops_cons, chained] at stops
    exact Nat.lt_irrefl _ stops

theorem negation_of_word {phrase : Phrase .negation} {word : Token} {after behind : List Token}
    (negates : word ∈ negations) (equal : phrase.tokens ++ after = word :: behind) :
    ∃ operand : Phrase .negation, operand.tokens ++ after = behind := by
  cases phrase with
  | joined rule => cases rule
  | not other otherNegates operand => exact ⟨operand, (List.cons.inj equal).2⟩
  | positive inner =>
      obtain ⟨first, more, starts, fine⟩ := starts_positive inner (by decide)
      simp only [Phrase.tokens, starts, List.cons_append, List.cons.injEq] at equal
      exact absurd (equal.1 ▸ negates) fine

theorem refused_negated {word : Token} (negates : word ∈ negations)
    (refused : RefusedAt .negation (IsPhrase .negation) front rest) :
    RefusedAt .negation (IsPhrase .negation) (word :: front) rest := by
  apply refused.within [word]
  · rintro _ ⟨operand, rfl⟩
    exact ⟨[], .not word negates operand, by simp [Phrase.tokens]⟩
  · rintro token later more same _ after ⟨phrase, rfl⟩ stops equal
    obtain ⟨operand, behind⟩ := negation_of_word negates equal
    exact ⟨_, after, ⟨operand, rfl⟩, stops, behind⟩

theorem refused_positive (plain : ∀ first ∈ (front ++ rest).head?, first ∉ negations)
    (refused : RefusedAt .comparison (IsPhrase .comparison) front rest) :
    RefusedAt .negation (IsPhrase .negation) front rest := by
  apply refused.within []
  · rintro _ ⟨inner, rfl⟩
    exact ⟨[], .positive inner, by simp [Phrase.tokens]⟩
  · rintro token later more same _ after ⟨phrase, rfl⟩ stops equal
    cases phrase with
    | joined rule => cases rule
    | not word negates operand =>
        have first : (front ++ rest).head? = some word := by
          have heads := congrArg List.head? equal
          simp only [Phrase.tokens, List.cons_append, List.head?_cons, List.nil_append] at heads
          rw [heads, same]
          cases front <;> rfl
        exact absurd negates (plain word first)
    | positive inner => exact ⟨_, after, ⟨inner, rfl⟩, stops.tighter (by decide), equal⟩

def Begins (token : Token) : Prop :=
  (∃ value, Spells token value) ∨ (∃ name, name ∉ reserved ∧ token = .name name) ∨
    token = .symbol .openParen ∨ token = .symbol .minus

theorem primary_begins (phrase : Phrase .primary) :
    ∃ first more, phrase.tokens = first :: more ∧ Begins first := by
  cases phrase with
  | joined rule => cases rule
  | literal token value spells => exact ⟨token, [], rfl, .inl ⟨value, spells⟩⟩
  | named name free => exact ⟨_, [], rfl, .inr (.inl ⟨name, free, rfl⟩)⟩
  | grouped inner => exact ⟨_, _, rfl, .inr (.inr (.inl rfl))⟩
  | negative operand => exact ⟨_, _, rfl, .inr (.inr (.inr rfl))⟩

theorem refused_beginning (fails : ∀ first ∈ rest.head?, ¬ Begins first) :
    RefusedAt .primary (IsPhrase .primary) [] rest where
  goes_on := ⟨[.name "a"], .named "a" (by decide), rfl⟩
  wrong := by
    rintro token later same _ after more ⟨phrase, rfl⟩ stops equal
    obtain ⟨first, others, starts, begins⟩ := primary_begins phrase
    rw [starts] at equal
    obtain ⟨rfl, -⟩ := List.cons.inj equal
    exact fails first (by simp [same]) begins

theorem primary_of_paren {phrase : Phrase .primary} {after behind : List Token}
    (equal : phrase.tokens ++ after = .symbol .openParen :: behind) :
    ∃ inner : Phrase .disjunction, inner.tokens ++ .symbol .closeParen :: after = behind := by
  cases phrase with
  | joined rule => cases rule
  | literal token value spells =>
      obtain ⟨rfl, -⟩ := List.cons.inj equal
      exact absurd spells not_spells_symbol
  | named name free => cases (List.cons.inj equal).1
  | grouped inner => exact ⟨inner, by simpa [Phrase.tokens] using equal⟩
  | negative operand => cases (List.cons.inj equal).1

theorem primary_of_minus {phrase : Phrase .primary} {after behind : List Token}
    (equal : phrase.tokens ++ after = .symbol .minus :: behind) :
    ∃ operand : Phrase .primary, operand.tokens ++ after = behind := by
  cases phrase with
  | joined rule => cases rule
  | literal token value spells =>
      obtain ⟨rfl, -⟩ := List.cons.inj equal
      exact absurd spells not_spells_symbol
  | named name free => cases (List.cons.inj equal).1
  | grouped inner => cases (List.cons.inj equal).1
  | negative operand => exact ⟨operand, (List.cons.inj equal).2⟩

theorem refused_inner (refused : RefusedAt .disjunction (IsPhrase .disjunction) front rest) :
    RefusedAt .primary (IsPhrase .primary) (.symbol .openParen :: front) rest := by
  apply refused.within [.symbol .openParen]
  · rintro _ ⟨inner, rfl⟩
    exact ⟨[.symbol .closeParen], .grouped inner, by simp [Phrase.tokens]⟩
  · rintro token later more same _ after ⟨phrase, rfl⟩ stops equal
    obtain ⟨inner, behind⟩ := primary_of_paren equal
    exact ⟨_, _, ⟨inner, rfl⟩, close_stops _ (.inr rfl) _, behind⟩

theorem refused_unclosed (inner : Phrase .disjunction) (ends : Stops .disjunction rest)
    (other : ∀ later, rest ≠ .symbol .closeParen :: later) :
    RefusedAt .primary (IsPhrase .primary) (.symbol .openParen :: inner.tokens) rest where
  goes_on := ⟨[.symbol .closeParen], .grouped inner, by simp [Phrase.tokens]⟩
  wrong := by
    rintro token later same _ after more ⟨phrase, rfl⟩ stops equal
    obtain ⟨otherInner, parts⟩ := primary_of_paren equal
    have ⟨_, behind⟩ := phrase_unique otherInner inner _ _ parts (close_stops _ (.inr rfl) _)
      (stops_head same ends more)
    exact other later ((List.cons.inj behind).1 ▸ same)

theorem refused_negative (refused : RefusedAt .primary (IsPhrase .primary) front rest) :
    RefusedAt .primary (IsPhrase .primary) (.symbol .minus :: front) rest := by
  apply refused.within [.symbol .minus]
  · rintro _ ⟨operand, rfl⟩
    exact ⟨[], .negative operand, by simp [Phrase.tokens]⟩
  · rintro token later more same _ after ⟨phrase, rfl⟩ stops equal
    obtain ⟨operand, behind⟩ := primary_of_minus equal
    exact ⟨_, after, ⟨operand, rfl⟩, stops_primary _, behind⟩

end Languages

end Letterpress.Expr
