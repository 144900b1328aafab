import Letterpress.Expr.Parser

/-!
The grammar of expressions, without a reader. A phrase is a derivation: it has the tokens
that it derives and the tree that they mean. Every level but the tightest is a first operand
and what may follow it, so no phrase goes on where it could have ended: whatever follows it
tells where it ends, and no list of tokens has two derivations.
-/

namespace Letterpress.Expr

/-- The levels that join operands of the next level, from left to right. -/
inductive Joins : Level → Level → Type
  | or : Joins .disjunction .conjunction
  | and : Joins .conjunction .negation
  | signs : Joins .sum .access

def Joins.words {level operand : Level} : Joins level operand →
    List (Token × (Expr → Expr → Expr))
  | .or => [(.name "or", .or), (.symbol .either, .or)]
  | .and => [(.name "and", .and), (.symbol .both, .and)]
  | .signs => [(.symbol .plus, .binary .add), (.symbol .minus, .binary .sub)]

def negations : List Token := [.name "not", .symbol .bang]

def comparisons : List (Token × BinaryOperator) :=
  [(.symbol .equal, .eq), (.symbol .identical, .eq), (.symbol .unequal, .ne),
    (.symbol .different, .ne), (.symbol .less, .lt), (.symbol .atMost, .le),
    (.symbol .greater, .gt), (.symbol .atLeast, .ge)]

def constants : List (String × Value) :=
  [("true", .bool true), ("false", .bool false), ("null", .null), ("undefined", .null)]

/-- A token that is a value by itself. -/
inductive Spells : Token → Value → Prop
  | str (content : String) : Spells (.str content) (.str content)
  | int (number : Int64) : Spells (.int number) (.int number)
  | float (number : Float) : Spells (.float number) (.float number)
  | word {name : String} {value : Value} (constant : (name, value) ∈ constants) :
      Spells (.name name) value

mutual

inductive Phrase : Level → Type
  | joined {level operand : Level} (rule : Joins level operand) (first : Phrase operand)
      (further : Further level) : Phrase level
  | not (word : Token) (negates : word ∈ negations) (operand : Phrase .negation) :
      Phrase .negation
  | positive (inner : Phrase .comparison) : Phrase .negation
  | single (inner : Phrase .sum) : Phrase .comparison
  | compared (left : Phrase .sum) (sign : Token) (operator : BinaryOperator)
      (compares : (sign, operator) ∈ comparisons) (right : Phrase .sum) : Phrase .comparison
  | access (base : Phrase .primary) (further : Further .access) : Phrase .access
  | literal (token : Token) (value : Value) (spells : Spells token value) : Phrase .primary
  | named (name : String) (free : name ∉ reserved) : Phrase .primary
  | grouped (inner : Phrase .disjunction) : Phrase .primary
  | negative (operand : Phrase .primary) : Phrase .primary

/-- What follows the first operand of a level, up to the end of the phrase. -/
inductive Further : Level → Type
  | nothing {level : Level} : Further level
  | operand {level operand : Level} (rule : Joins level operand) (word : Token)
      (combine : Expr → Expr → Expr) (joins : (word, combine) ∈ rule.words)
      (next : Phrase operand) (further : Further level) : Further level
  | field (name : String) (further : Further .access) : Further .access
  | index (key : Phrase .disjunction) (further : Further .access) : Further .access

end

mutual

def Phrase.tokens {level : Level} : Phrase level → List Token
  | .joined _ first further => first.tokens ++ further.tokens
  | .not word _ operand => word :: operand.tokens
  | .positive inner => inner.tokens
  | .single inner => inner.tokens
  | .compared left sign _ _ right => left.tokens ++ sign :: right.tokens
  | .access base further => base.tokens ++ further.tokens
  | .literal token _ _ => [token]
  | .named name _ => [.name name]
  | .grouped inner => .symbol .openParen :: (inner.tokens ++ [.symbol .closeParen])
  | .negative operand => .symbol .minus :: operand.tokens

def Further.tokens {level : Level} : Further level → List Token
  | .nothing => []
  | .operand _ word _ _ next further => word :: (next.tokens ++ further.tokens)
  | .field name further => .symbol .dot :: .name name :: further.tokens
  | .index key further =>
      .symbol .openBracket :: (key.tokens ++ .symbol .closeBracket :: further.tokens)

end

mutual

def Phrase.tree {level : Level} : Phrase level → Expr
  | .joined _ first further => further.extend first.tree
  | .not _ _ operand => .not operand.tree
  | .positive inner => inner.tree
  | .single inner => inner.tree
  | .compared left _ operator _ right => .binary operator left.tree right.tree
  | .access base further => further.extend base.tree
  | .literal _ value _ => .literal value
  | .named name _ => .var name
  | .grouped inner => inner.tree
  | .negative operand => .neg operand.tree

/-- Everything so far is the left operand of what comes next, or its base. -/
def Further.extend {level : Level} : Further level → Expr → Expr
  | .nothing, left => left
  | .operand _ _ combine _ next further, left => further.extend (combine left next.tree)
  | .field name further, base => further.extend (.member base (.literal (.str name)))
  | .index key further, base => further.extend (.member base key.tree)

end

def Level.rank : Level → Nat
  | .primary => 0
  | .access => 1
  | .sum => 2
  | .comparison => 3
  | .negation => 4
  | .conjunction => 5
  | .disjunction => 6

def Token.rank : Token → Nat
  | .symbol .dot => 1
  | .symbol .openBracket => 1
  | .symbol .plus => 2
  | .symbol .minus => 2
  | .symbol .equal => 3
  | .symbol .identical => 3
  | .symbol .unequal => 3
  | .symbol .different => 3
  | .symbol .less => 3
  | .symbol .atMost => 3
  | .symbol .greater => 3
  | .symbol .atLeast => 3
  | .name "and" => 5
  | .symbol .both => 5
  | .name "or" => 6
  | .symbol .either => 6
  | _ => 7

def Stops (level : Level) (rest : List Token) : Prop :=
  ∀ token ∈ rest.head?, level.rank < token.rank

section Stops

variable {level operand : Level} {token : Token} {rest : List Token}

@[simp] theorem stops_nil : Stops level [] := by simp [Stops]

@[simp] theorem stops_cons : Stops level (token :: rest) ↔ level.rank < token.rank := by
  simp [Stops]

theorem Stops.tighter (stops : Stops level rest) (below : operand.rank ≤ level.rank) :
    Stops operand rest :=
  fun token member => Nat.lt_of_le_of_lt below (stops token member)

theorem Joins.below (rule : Joins level operand) : operand.rank < level.rank := by
  cases rule <;> decide

theorem rank_of_joint {rule : Joins level operand} {combine : Expr → Expr → Expr}
    (joins : (token, combine) ∈ rule.words) : token.rank = level.rank := by
  cases rule <;> simp only [Joins.words, List.mem_cons, Prod.mk.injEq, List.not_mem_nil,
    or_false] at joins <;> rcases joins with ⟨rfl, -⟩ | ⟨rfl, -⟩ <;> rfl

theorem rank_of_comparison {operator : BinaryOperator}
    (compares : (token, operator) ∈ comparisons) : token.rank = Level.comparison.rank :=
  (by decide : ∀ entry ∈ comparisons, entry.1.rank = Level.comparison.rank) _ compares

theorem rank_positive (token : Token) : 0 < token.rank := by
  unfold Token.rank
  split <;> decide

theorem stops_primary (rest : List Token) : Stops .primary rest :=
  fun token _ => rank_positive token

/-- A joint ends the operand before it, and the end of the phrase ends the last one. -/
theorem further_stops (rule : Joins level operand) (further : Further level)
    (stops : Stops level rest) : Stops operand (further.tokens ++ rest) := by
  cases further with
  | nothing => exact stops.tighter (Nat.le_of_lt rule.below)
  | operand other word combine joins next further =>
      simp only [Further.tokens, List.cons_append, stops_cons, rank_of_joint joins]
      exact rule.below
  | field => cases rule
  | index => cases rule

end Stops

section Unambiguity

variable {level operand : Level}

theorem phrase_of_joining (rule : Joins level operand) (phrase : Phrase level) :
    ∃ first further, phrase = .joined rule first further := by
  cases rule with
  | or =>
      cases phrase with
      | joined rule first further =>
          cases rule
          exact ⟨first, further, rfl⟩
  | and =>
      cases phrase with
      | joined rule first further =>
          cases rule
          exact ⟨first, further, rfl⟩
  | signs =>
      cases phrase with
      | joined rule first further =>
          cases rule
          exact ⟨first, further, rfl⟩

/-- A level joins operands of one level only, in one way. -/
theorem joins_unique {other : Level} (rule : Joins level operand) (again : Joins level other) :
    ∃ same : operand = other, same ▸ rule = again := by
  cases rule <;> cases again <;> exact ⟨rfl, rfl⟩

theorem combine_unique {rule : Joins level operand} {word : Token}
    {combine other : Expr → Expr → Expr} (joins : (word, combine) ∈ rule.words)
    (again : (word, other) ∈ rule.words) : combine = other := by
  cases rule <;> simp only [Joins.words, List.mem_cons, Prod.mk.injEq, List.not_mem_nil,
    or_false] at joins again <;> rcases joins with ⟨rfl, rfl⟩ | ⟨rfl, rfl⟩ <;>
    simpa [eq_comm] using again

theorem operator_unique {sign : Token} {operator other : BinaryOperator}
    (compares : (sign, operator) ∈ comparisons) (again : (sign, other) ∈ comparisons) :
    operator = other := by
  simp only [comparisons, List.mem_cons, Prod.mk.injEq, List.not_mem_nil, or_false] at compares
  rcases compares with ⟨rfl, rfl⟩ | ⟨rfl, rfl⟩ | ⟨rfl, rfl⟩ | ⟨rfl, rfl⟩ | ⟨rfl, rfl⟩ |
    ⟨rfl, rfl⟩ | ⟨rfl, rfl⟩ | ⟨rfl, rfl⟩ <;> simpa [comparisons, eq_comm] using again

theorem constant_unique {name : String} {value other : Value}
    (constant : (name, value) ∈ constants) (again : (name, other) ∈ constants) :
    value = other := by
  simp only [constants, List.mem_cons, Prod.mk.injEq, List.not_mem_nil, or_false] at constant
  rcases constant with ⟨rfl, rfl⟩ | ⟨rfl, rfl⟩ | ⟨rfl, rfl⟩ | ⟨rfl, rfl⟩ <;>
    simpa [constants, eq_comm] using again

theorem value_unique {token : Token} {value other : Value} (spells : Spells token value)
    (again : Spells token other) : value = other := by
  cases spells with
  | word constant =>
      cases again with
      | word twin => exact constant_unique constant twin
  | str => cases again; rfl
  | int => cases again; rfl
  | float => cases again; rfl

theorem constant_reserved {name : String} {value : Value} (constant : (name, value) ∈ constants) :
    name ∈ reserved :=
  (by decide : ∀ entry ∈ constants, entry.1 ∈ reserved) _ constant

theorem reserved_of_spells {name : String} {value : Value} (spells : Spells (.name name) value) :
    name ∈ reserved := by
  cases spells with
  | word constant => exact constant_reserved constant

theorem not_spells_symbol {symbol : Symbol} {value : Value} : ¬ Spells (.symbol symbol) value :=
  nofun

theorem name_negates {name : String} : .name name ∈ negations ↔ name = "not" := by
  simp [negations]

theorem starts_positive {level : Level} (phrase : Phrase level)
    (tight : level.rank < Level.negation.rank) :
    ∃ first rest, phrase.tokens = first :: rest ∧ first ∉ negations := by
  cases phrase with
  | joined rule first further =>
      obtain ⟨token, rest, starts, fine⟩ := starts_positive first (Nat.lt_trans rule.below tight)
      exact ⟨token, rest ++ further.tokens, by simp [Phrase.tokens, starts], fine⟩
  | not => exact absurd tight (Nat.lt_irrefl _)
  | positive => exact absurd tight (Nat.lt_irrefl _)
  | single inner => exact starts_positive inner (by decide)
  | compared left sign operator compares right =>
      obtain ⟨token, rest, starts, fine⟩ := starts_positive left (by decide)
      exact ⟨token, rest ++ sign :: right.tokens, by simp [Phrase.tokens, starts], fine⟩
  | access base further =>
      obtain ⟨token, rest, starts, fine⟩ := starts_positive base (by decide)
      exact ⟨token, rest ++ further.tokens, by simp [Phrase.tokens, starts], fine⟩
  | literal token value spells =>
      refine ⟨token, [], rfl, ?_⟩
      cases spells with
      | word constant =>
          rw [name_negates]
          exact (by decide : ∀ entry ∈ constants, entry.1 ≠ "not") _ constant
      | str => simp [negations]
      | int => simp [negations]
      | float => simp [negations]
  | named name free =>
      refine ⟨.name name, [], rfl, ?_⟩
      rw [name_negates]
      rintro rfl
      exact free (by decide)
  | grouped inner => exact ⟨_, _, rfl, by simp [negations]⟩
  | negative operand => exact ⟨_, _, rfl, by simp [negations]⟩

theorem further_starts (further : Further level) : further = .nothing ∨
    ∃ first rest, further.tokens = first :: rest ∧ first.rank = level.rank := by
  cases further with
  | nothing => exact .inl rfl
  | operand rule word combine joins next more => exact .inr ⟨_, _, rfl, rank_of_joint joins⟩
  | field name more => exact .inr ⟨_, _, rfl, rfl⟩
  | index key more => exact .inr ⟨_, _, rfl, rfl⟩

theorem nothing_further {further : Further level} {rest after : List Token}
    (stops : Stops level rest) (same : rest = further.tokens ++ after) : further = .nothing := by
  rcases further_starts further with nothing | ⟨first, more, starts, rank⟩
  · exact nothing
  · simp [same, starts, rank] at stops

/-- A comparison of two sums is not one sum with something after it. -/
theorem compared_stops {sign : Token} {operator : BinaryOperator} {rest : List Token}
    (compares : (sign, operator) ∈ comparisons) : Stops .sum (sign :: rest) := by
  simp [rank_of_comparison compares, Level.rank]

theorem not_stops_compared {sign : Token} {operator : BinaryOperator} {rest : List Token}
    (compares : (sign, operator) ∈ comparisons) : ¬ Stops .comparison (sign :: rest) := by
  simp [rank_of_comparison compares, Level.rank]

mutual

/-- Two phrases that end where they have to are one if their tokens are. -/
theorem phrase_unique : {level : Level} → (phrase other : Phrase level) →
    (rest after : List Token) → phrase.tokens ++ rest = other.tokens ++ after →
    Stops level rest → Stops level after → phrase = other ∧ rest = after
  | _, .joined rule first further, other, rest, after, same, stops, otherStops => by
    obtain ⟨otherFirst, otherFurther, rfl⟩ := phrase_of_joining rule other
    simp only [Phrase.tokens, List.append_assoc] at same
    have ⟨firsts, behind⟩ := phrase_unique first otherFirst _ _ same
      (further_stops rule further stops) (further_stops rule otherFurther otherStops)
    have ⟨furthers, ended⟩ := further_unique further otherFurther _ _ behind stops otherStops
    exact ⟨by rw [firsts, furthers], ended⟩
  | _, .not word negates operand, other, rest, after, same, stops, otherStops => by
    cases other with
    | joined rule => cases rule
    | not otherWord otherNegates otherOperand =>
        have ⟨words, behind⟩ := List.cons.inj same
        have ⟨operands, ended⟩ := phrase_unique operand otherOperand _ _ behind stops otherStops
        exact ⟨by simp [words, operands], ended⟩
    | positive inner =>
        have ⟨first, more, starts, fine⟩ := starts_positive inner (by decide)
        simp only [Phrase.tokens, starts, List.cons_append, List.cons.injEq] at same
        exact absurd (same.1 ▸ negates) fine
  | _, .positive inner, other, rest, after, same, stops, otherStops => by
    cases other with
    | joined rule => cases rule
    | not word negates operand =>
        have ⟨first, more, starts, fine⟩ := starts_positive inner (by decide)
        simp only [Phrase.tokens, starts, List.cons_append, List.cons.injEq] at same
        exact absurd (same.1 ▸ negates) fine
    | positive otherInner =>
        have ⟨inners, ended⟩ := phrase_unique inner otherInner _ _ same
          (stops.tighter (by decide)) (otherStops.tighter (by decide))
        exact ⟨by rw [inners], ended⟩
  | _, .single inner, other, rest, after, same, stops, otherStops => by
    cases other with
    | joined rule => cases rule
    | single otherInner =>
        have ⟨inners, ended⟩ := phrase_unique inner otherInner _ _ same
          (stops.tighter (by decide)) (otherStops.tighter (by decide))
        exact ⟨by rw [inners], ended⟩
    | compared left sign operator compares right =>
        simp only [Phrase.tokens, List.append_assoc, List.cons_append] at same
        have ⟨_, behind⟩ := phrase_unique inner left _ _ same (stops.tighter (by decide))
          (compared_stops compares)
        exact absurd (behind ▸ stops) (not_stops_compared compares)
  | _, .compared left sign operator compares right, other, rest, after, same, stops,
      otherStops => by
    cases other with
    | joined rule => cases rule
    | single inner =>
        simp only [Phrase.tokens, List.append_assoc, List.cons_append] at same
        have ⟨_, behind⟩ := phrase_unique left inner _ _ same (compared_stops compares)
          (otherStops.tighter (by decide))
        exact absurd (behind ▸ otherStops) (not_stops_compared compares)
    | compared otherLeft otherSign otherOperator otherCompares otherRight =>
        simp only [Phrase.tokens, List.append_assoc, List.cons_append] at same
        have ⟨lefts, behind⟩ := phrase_unique left otherLeft _ _ same (compared_stops compares)
          (compared_stops otherCompares)
        have ⟨signs, behindSigns⟩ := List.cons.inj behind
        have ⟨rights, ended⟩ := phrase_unique right otherRight _ _ behindSigns
          (stops.tighter (by decide)) (otherStops.tighter (by decide))
        have operators := operator_unique (signs ▸ compares) otherCompares
        exact ⟨by simp [lefts, signs, rights, operators], ended⟩
  | _, .access base further, other, rest, after, same, stops, otherStops => by
    cases other with
    | joined rule => cases rule
    | access otherBase otherFurther =>
        simp only [Phrase.tokens, List.append_assoc] at same
        have ⟨bases, behind⟩ := phrase_unique base otherBase _ _ same (stops_primary _)
          (stops_primary _)
        have ⟨furthers, ended⟩ := further_unique further otherFurther _ _ behind stops otherStops
        exact ⟨by rw [bases, furthers], ended⟩
  | _, .literal token value spells, other, rest, after, same, stops, otherStops => by
    cases other with
    | joined rule => cases rule
    | literal otherToken otherValue otherSpells =>
        obtain ⟨rfl, ended⟩ := List.cons.inj same
        obtain rfl := value_unique spells otherSpells
        exact ⟨rfl, ended⟩
    | named name free =>
        obtain ⟨rfl, -⟩ := List.cons.inj same
        exact absurd (reserved_of_spells spells) free
    | grouped inner =>
        obtain ⟨rfl, -⟩ := List.cons.inj same
        exact absurd spells not_spells_symbol
    | negative operand =>
        obtain ⟨rfl, -⟩ := List.cons.inj same
        exact absurd spells not_spells_symbol
  | _, .named name free, other, rest, after, same, stops, otherStops => by
    cases other with
    | joined rule => cases rule
    | literal token value spells =>
        obtain ⟨rfl, -⟩ := List.cons.inj same
        exact absurd (reserved_of_spells spells) free
    | named otherName otherFree =>
        have ⟨names, ended⟩ := List.cons.inj same
        exact ⟨by simp [Token.name.inj names], ended⟩
    | grouped inner => cases (List.cons.inj same).1
    | negative operand => cases (List.cons.inj same).1
  | _, .grouped inner, other, rest, after, same, stops, otherStops => by
    cases other with
    | joined rule => cases rule
    | literal token value spells =>
        obtain ⟨rfl, -⟩ := List.cons.inj same
        exact absurd spells not_spells_symbol
    | named name free => cases (List.cons.inj same).1
    | grouped otherInner =>
        simp only [Phrase.tokens, List.append_assoc, List.cons_append, List.nil_append,
          List.cons.injEq, true_and] at same
        have ⟨inners, ended⟩ := phrase_unique inner otherInner _ _ same
          (stops_cons.mpr (by decide)) (stops_cons.mpr (by decide))
        exact ⟨by rw [inners], (List.cons.inj ended).2⟩
    | negative operand => cases (List.cons.inj same).1
  | _, .negative operand, other, rest, after, same, stops, otherStops => by
    cases other with
    | joined rule => cases rule
    | literal token value spells =>
        obtain ⟨rfl, -⟩ := List.cons.inj same
        exact absurd spells not_spells_symbol
    | named name free => cases (List.cons.inj same).1
    | grouped inner => cases (List.cons.inj same).1
    | negative otherOperand =>
        have ⟨operands, ended⟩ := phrase_unique operand otherOperand _ _ (List.cons.inj same).2
          (stops_primary _) (stops_primary _)
        exact ⟨by rw [operands], ended⟩

theorem further_unique : {level : Level} → (further other : Further level) →
    (rest after : List Token) → further.tokens ++ rest = other.tokens ++ after →
    Stops level rest → Stops level after → further = other ∧ rest = after
  | _, .nothing, other, rest, after, same, stops, otherStops => by
    obtain rfl := nothing_further stops same
    exact ⟨rfl, same⟩
  | _, .operand rule word combine joins next more, other, rest, after, same, stops, otherStops => by
    cases other with
    | nothing => cases nothing_further otherStops same.symm
    | operand otherRule otherWord otherCombine otherJoins otherNext otherMore =>
        obtain ⟨rfl, rfl⟩ := joins_unique rule otherRule
        simp only [Further.tokens, List.cons_append, List.append_assoc, List.cons.injEq] at same
        have ⟨nexts, behind⟩ := phrase_unique next otherNext _ _ same.2
          (further_stops rule more stops) (further_stops rule otherMore otherStops)
        have ⟨mores, ended⟩ := further_unique more otherMore _ _ behind stops otherStops
        have combines := combine_unique (same.1 ▸ joins) otherJoins
        exact ⟨by simp [same.1, combines, nexts, mores], ended⟩
    | field => cases rule
    | index => cases rule
  | _, .field name more, other, rest, after, same, stops, otherStops => by
    cases other with
    | nothing => cases nothing_further otherStops same.symm
    | operand rule => cases rule
    | field otherName otherMore =>
        simp only [Further.tokens, List.cons_append, List.cons.injEq, Token.name.injEq,
          true_and] at same
        have ⟨mores, ended⟩ := further_unique more otherMore _ _ same.2 stops otherStops
        exact ⟨by rw [same.1, mores], ended⟩
    | index key otherMore => cases (List.cons.inj same).1
  | _, .index key more, other, rest, after, same, stops, otherStops => by
    cases other with
    | nothing => cases nothing_further otherStops same.symm
    | operand rule => cases rule
    | field name otherMore => cases (List.cons.inj same).1
    | index otherKey otherMore =>
        simp only [Further.tokens, List.cons_append, List.append_assoc, List.cons.injEq,
          true_and] at same
        have ⟨keys, behind⟩ := phrase_unique key otherKey _ _ same
          (stops_cons.mpr (by decide)) (stops_cons.mpr (by decide))
        have ⟨mores, ended⟩ := further_unique more otherMore _ _ (List.cons.inj behind).2 stops
          otherStops
        exact ⟨by rw [keys, mores], ended⟩

end

/-- No list of tokens has two derivations. -/
theorem tokens_injective (level : Level) :
    Function.Injective (fun phrase : Phrase level => phrase.tokens) :=
  fun phrase other same =>
    (phrase_unique phrase other [] [] (by simpa using same) stops_nil stops_nil).1

end Unambiguity

end Letterpress.Expr
