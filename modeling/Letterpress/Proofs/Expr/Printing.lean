import Letterpress.Proofs.Expr.Reading
import Letterpress.Proofs.Expr.Spelling

/-!
Expressions written out and read back. With parentheses around all that operators join, the
tokens of a tree are a phrase that means the tree, whichever of its spellings an operator has; and
laid out in any way, a text of these tokens is read as the tree.
-/

namespace Letterpress.Expr

variable {tree : Expr} {level inner outer : Level} {tokens : List Token}

def IsVariable (name : String) : Prop :=
  (∃ first rest, name.toList = first :: rest ∧ startsName first = true ∧
    ∀ char ∈ rest, continuesName char = true) ∧ name ∉ reserved

/-- Values with a text of one token that is no double. -/
def IsWritable : Value → Prop
  | .null => True
  | .bool _ => True
  | .int number => 0 ≤ number.toInt
  | .str _ => True
  | _ => False

def Printable : Expr → Prop
  | .literal value => IsWritable value
  | .var name => IsVariable name
  | .member base key => base.Printable ∧ key.Printable
  | .neg operand => operand.Printable
  | .not operand => operand.Printable
  | .and left right => left.Printable ∧ right.Printable
  | .or left right => left.Printable ∧ right.Printable
  | .binary _ left right => left.Printable ∧ right.Printable

def inParens (tokens : List Token) : List Token :=
  .symbol .openParen :: (tokens ++ [.symbol .closeParen])

/-- The tokens of a tree with parentheses around everything that operators join, in any spelling
of its words and signs, and with any further parentheses. -/
inductive Written : Expr → List Token → Prop
  | literal {token : Token} {value : Value} (spells : Spells token value) :
      Written (.literal value) [token]
  | var {name : String} (free : name ∉ reserved) : Written (.var name) [.name name]
  | member {base key : Expr} {baseTokens keyTokens : List Token} (first : Written base baseTokens)
      (index : Written key keyTokens) : Written (.member base key)
        (baseTokens ++ .symbol .openBracket :: (keyTokens ++ [.symbol .closeBracket]))
  | neg {operand : Expr} {tokens : List Token} (inner : Written operand tokens) :
      Written (.neg operand) (.symbol .minus :: inParens tokens)
  | not {operand : Expr} {word : Token} {tokens : List Token} (negates : word ∈ negations)
      (inner : Written operand tokens) : Written (.not operand) (inParens (word :: tokens))
  | joined {level operand : Level} (rule : Joins level operand) {word : Token}
      {combine : Expr → Expr → Expr} {left right : Expr} {leftTokens rightTokens : List Token}
      (joins : (word, combine) ∈ rule.words) (first : Written left leftTokens)
      (second : Written right rightTokens) :
      Written (combine left right) (inParens (leftTokens ++ word :: rightTokens))
  | compared {sign : Token} {operator : BinaryOperator} {left right : Expr}
      {leftTokens rightTokens : List Token} (compares : (sign, operator) ∈ comparisons)
      (first : Written left leftTokens) (second : Written right rightTokens) :
      Written (.binary operator left right) (inParens (leftTokens ++ sign :: rightTokens))
  | inside {tree : Expr} {tokens : List Token} (inner : Written tree tokens) :
      Written tree (inParens tokens)

section Phrases

def Means (level : Level) (tokens : List Token) (tree : Expr) : Prop :=
  ∃ phrase : Phrase level, phrase.tokens = tokens ∧ phrase.tree = tree

def Level.looser : Level → Level
  | .primary => .access
  | .access => .sum
  | .sum => .comparison
  | .comparison => .negation
  | .negation => .conjunction
  | .conjunction => .disjunction
  | .disjunction => .disjunction

theorem Means.next (means : Means level tokens tree) : Means level.looser tokens tree := by
  obtain ⟨phrase, rfl, rfl⟩ := means
  cases level with
  | primary => exact ⟨.access phrase .nothing, by simp [Phrase.tokens, Further.tokens], rfl⟩
  | access => exact ⟨.joined .signs phrase .nothing, by simp [Phrase.tokens, Further.tokens], rfl⟩
  | sum => exact ⟨.single phrase, rfl, rfl⟩
  | comparison => exact ⟨.positive phrase, rfl, rfl⟩
  | negation => exact ⟨.joined .and phrase .nothing, by simp [Phrase.tokens, Further.tokens], rfl⟩
  | conjunction => exact ⟨.joined .or phrase .nothing, by simp [Phrase.tokens, Further.tokens], rfl⟩
  | disjunction => exact ⟨phrase, rfl, rfl⟩

theorem rank_le (level : Level) : level.rank ≤ Level.disjunction.rank := by
  cases level <;> decide

theorem looser_rank (tight : level.rank < Level.disjunction.rank) :
    level.looser.rank = level.rank + 1 := by
  cases level <;> first | rfl | exact absurd tight (by decide)

theorem rank_injective (same : level.rank = outer.rank) : level = outer := by
  cases level <;> cases outer <;> first | rfl | cases same

theorem Means.loosen (means : Means inner tokens tree) (outer : Level)
    (below : inner.rank ≤ outer.rank) :
    Means outer tokens tree := by
  induction gap : outer.rank - inner.rank generalizing inner with
  | zero =>
      obtain rfl := rank_injective (Nat.le_antisymm below (Nat.sub_eq_zero_iff_le.mp gap))
      exact means
  | succ gap loosens =>
      have looser := looser_rank (Nat.lt_of_lt_of_le (by omega : inner.rank < outer.rank)
        (rank_le outer))
      exact loosens means.next (by omega) (by omega)

theorem Means.inParens (means : Means .disjunction tokens tree) :
    Means .access (inParens tokens) tree := by
  obtain ⟨phrase, rfl, rfl⟩ := means
  exact Means.next ⟨.grouped phrase, rfl, rfl⟩

theorem index_behind (further : Further .access) (key : Phrase .disjunction) :
    ∃ longer : Further .access,
      longer.tokens = further.tokens ++
        .symbol .openBracket :: (key.tokens ++ [.symbol .closeBracket]) ∧
      ∀ base, longer.extend base = .member (further.extend base) key.tree := by
  cases further with
  | nothing =>
      exact ⟨.index key .nothing, by simp [Further.tokens], fun base => rfl⟩
  | operand rule => cases rule
  | field name more =>
      obtain ⟨longer, spelled, extends_to⟩ := index_behind more key
      exact ⟨.field name longer, by simp [Further.tokens, spelled],
        fun base => extends_to _⟩
  | index other more =>
      obtain ⟨longer, spelled, extends_to⟩ := index_behind more key
      exact ⟨.index other longer, by simp [Further.tokens, spelled],
        fun base => extends_to _⟩

/-- What is written for a tree is an access that means the tree. -/
theorem Written.means (written : Written tree tokens) : Means .access tokens tree := by
  induction written with
  | literal spells => exact Means.next ⟨.literal _ _ spells, rfl, rfl⟩
  | var free => exact Means.next ⟨.named _ free, rfl, rfl⟩
  | member first index base key =>
      obtain ⟨phrase, rfl, rfl⟩ := base
      obtain ⟨keyPhrase, rfl, rfl⟩ := key.loosen .disjunction (by decide)
      cases phrase with
      | joined rule => cases rule
      | access base further =>
          obtain ⟨longer, spelled, extends_to⟩ := index_behind further keyPhrase
          exact ⟨.access base longer, by simp [Phrase.tokens, spelled], extends_to _⟩
  | neg inner operand =>
      obtain ⟨phrase, rfl, rfl⟩ := operand.loosen .disjunction (by decide)
      exact Means.next ⟨.negative (.grouped phrase), rfl, rfl⟩
  | not negates inner operand =>
      obtain ⟨phrase, rfl, rfl⟩ := operand.loosen .negation (by decide)
      have negation : Means .negation _ _ := ⟨.not _ negates phrase, rfl, rfl⟩
      exact (negation.loosen _ (by decide)).inParens
  | @joined level operand rule word combine left right leftTokens rightTokens joins first second
      leftMeans rightMeans =>
      have above : Level.access.rank ≤ operand.rank := by cases rule <;> decide
      obtain ⟨leftPhrase, rfl, rfl⟩ := leftMeans.loosen operand above
      obtain ⟨rightPhrase, rfl, rfl⟩ := rightMeans.loosen operand above
      have whole : Means level (leftPhrase.tokens ++ word :: rightPhrase.tokens)
          (combine leftPhrase.tree rightPhrase.tree) :=
        ⟨.joined rule leftPhrase (.operand rule word combine joins rightPhrase .nothing),
          by simp [Phrase.tokens, Further.tokens], rfl⟩
      exact (whole.loosen _ (rank_le level)).inParens
  | compared compares first second leftMeans rightMeans =>
      obtain ⟨leftPhrase, rfl, rfl⟩ := leftMeans.loosen .sum (by decide)
      obtain ⟨rightPhrase, rfl, rfl⟩ := rightMeans.loosen .sum (by decide)
      have whole : Means .comparison _ _ :=
        ⟨.compared leftPhrase _ _ compares rightPhrase, rfl, rfl⟩
      exact (whole.loosen _ (by decide)).inParens
  | inside inner means => exact (means.loosen _ (by decide)).inParens

theorem written_reads_back {text : String} (written : Written tree tokens)
    (laid : Laid tokens text.toList) : Expr.parse text = .ok tree := by
  obtain ⟨lexemes, lexed, rfl⟩ := laid_lexed laid 0
  obtain ⟨phrase, spelled, means⟩ := written.means.loosen .disjunction (by decide)
  have read : ofLexemes lexemes = .ok tree := of_lexemes_iff.mpr ⟨phrase, spelled, means⟩
  have lexes : lex text = .ok lexemes := lexed
  simp only [Expr.parse, lexes, bind_eq_ok]
  exact ⟨lexemes, rfl, mapError_eq_ok.mpr read⟩

end Phrases

section Texts

def valueTokens : Value → List Token
  | .null => [.name "null"]
  | .bool flag => [.name (if flag then "true" else "false")]
  | .int number => [.int number]
  | .float number => [.float number]
  | .str content => [.str content]
  | .list _ => []
  | .map _ => []

def signOf : BinaryOperator → Symbol
  | .eq => .equal
  | .ne => .unequal
  | .lt => .less
  | .le => .atMost
  | .gt => .greater
  | .ge => .atLeast
  | .add => .plus
  | .sub => .minus

def spell : Expr → List Token
  | .literal value => valueTokens value
  | .var name => [.name name]
  | .member base key =>
      base.spell ++ .symbol .openBracket :: (key.spell ++ [.symbol .closeBracket])
  | .neg operand => .symbol .minus :: inParens operand.spell
  | .not operand => inParens (.symbol .bang :: operand.spell)
  | .and left right => inParens (left.spell ++ .symbol .both :: right.spell)
  | .or left right => inParens (left.spell ++ .symbol .either :: right.spell)
  | .binary operator left right =>
      inParens (left.spell ++ .symbol (signOf operator) :: right.spell)

def Token.text : Token → List Char
  | .name word => word.toList
  | .str content => '"' :: (escape '"' content.toList ++ ['"'])
  | .int number => Decimal.digitsOf number.toInt.toNat
  | .float _ => []
  | .symbol sign => sign.text.toList

def texts (tokens : List Token) : List Char := tokens.flatMap Token.text

def print (tree : Expr) : String := .ofList (texts tree.spell)

def Separates (next : Char) : Prop :=
  continuesName next = false ∧ Decimal.isDigit next = false ∧ next ≠ '.'

instance (next : Char) : Decidable (Separates next) := inferInstanceAs (Decidable (_ ∧ _))

structure Stands (spelled : List Token) : Prop where
  starts : ∃ first rest, texts spelled = first :: rest ∧ first ≠ '='
  laid : ∀ {tokens : List Token} {chars : List Char}, Laid tokens chars →
    (∀ next ∈ chars.head?, Separates next) → Laid (spelled ++ tokens) (texts spelled ++ chars)

variable {left right spelled : List Token}

theorem texts_symbol (sign : Symbol) (tokens : List Token) :
    texts (.symbol sign :: tokens) = sign.text.toList ++ texts tokens := rfl

theorem texts_append (left right : List Token) :
    texts (left ++ right) = texts left ++ texts right := List.flatMap_append

theorem Stands.ends (stands : Stands spelled) (sign : Symbol) (chars : List Char) :
    Ends (.symbol sign) (texts spelled ++ chars) := by
  obtain ⟨first, rest, starts, other⟩ := stands.starts
  intro next member equals
  rw [starts, List.cons_append, List.head?_cons, Option.mem_some_iff] at member
  exact absurd (member.trans equals) other

theorem symbol_separates {sign : Symbol} (inner : sign ≠ .dot) :
    ∀ first ∈ sign.text.toList.head?, Separates first := by
  cases sign <;> rintro first ⟨⟩ <;> first | decide | exact absurd rfl inner

theorem closing_ends {sign : Symbol} (closes : sign = .closeBracket ∨ sign = .closeParen)
    (chars : List Char) : Ends (.symbol sign) chars := by
  rcases closes with rfl | rfl <;> exact fun _ _ _ => by decide

theorem stands_one {token : Token} (spelled : Spelled token token.text)
    (starts : '=' ∉ token.text.head?) (ends : ∀ next, Separates next → token.EndsBefore next) :
    Stands [token] where
  starts := by
    have at_end : Ends token [] := by simp [Ends]
    obtain ⟨first, rest, same, -⟩ := spelled_read spelled at_end
    refine ⟨first, rest, by simp [texts, same], ?_⟩
    rintro rfl
    exact starts (by simp [same])
  laid := fun behind separates => by
    simpa [texts] using Laid.token spelled (fun next member => ends next (separates next member))
      behind

theorem separates_before {sign : Symbol} (inner : sign ≠ .dot) (chars : List Char) :
    ∀ next ∈ (sign.text.toList ++ chars).head?, Separates next := by
  obtain ⟨first, more, spelled, -⟩ := symbol_text sign
  simpa [spelled] using symbol_separates inner first (by simp [spelled])

theorem stands_behind_symbol {sign : Symbol} (plain : '=' ∉ sign.text.toList.head?)
    (stands : Stands spelled) : Stands (.symbol sign :: spelled) where
  starts := by
    obtain ⟨first, more, same, -⟩ := symbol_text sign
    refine ⟨first, more ++ texts spelled, by simp [texts_symbol, same], ?_⟩
    rintro rfl
    exact plain (by simp [same])
  laid := fun behind separates => by
    rw [List.cons_append, texts_symbol, List.append_assoc]
    exact .token (.symbol sign) (stands.ends sign _) (stands.laid behind separates)

theorem stands_joined {sign : Symbol} (inner : sign ≠ .dot) (first : Stands left)
    (second : Stands right) : Stands (left ++ .symbol sign :: right) where
  starts := by
    obtain ⟨char, rest, same, other⟩ := first.starts
    exact ⟨char, rest ++ texts (.symbol sign :: right), by simp [texts_append, same], other⟩
  laid := fun behind separates => by
    rw [List.append_assoc, List.cons_append, texts_append, texts_symbol, List.append_assoc,
      List.append_assoc]
    apply first.laid
    · exact .token (.symbol sign) (second.ends sign _) (second.laid behind separates)
    · exact separates_before inner _

theorem stands_closed {sign : Symbol} (closes : sign = .closeBracket ∨ sign = .closeParen)
    (stands : Stands spelled) : Stands (spelled ++ [.symbol sign]) where
  starts := by
    obtain ⟨char, rest, same, other⟩ := stands.starts
    exact ⟨char, rest ++ texts [.symbol sign], by simp [texts_append, same], other⟩
  laid := fun behind separates => by
    have inner : sign ≠ .dot := by rcases closes with rfl | rfl <;> decide
    rw [List.append_assoc, texts_append, texts_symbol, List.append_assoc, List.append_assoc]
    apply stands.laid
    · exact .token (.symbol sign) (closing_ends closes _) behind
    · exact separates_before inner _

theorem stands_in_parens (stands : Stands spelled) : Stands (inParens spelled) :=
  stands_behind_symbol (by decide) (stands_closed (.inr rfl) stands)

theorem spelled_word {word : String} {first : Char} {rest : List Char}
    (chars : word.toList = first :: rest) (starts : startsName first = true)
    (continues : ∀ char ∈ rest, continuesName char = true) :
    Spelled (.name word) (Token.text (.name word)) := by
  obtain rfl : word = .ofList (first :: rest) := by rw [← chars, String.ofList_toList]
  rw [Token.text, String.toList_ofList]
  exact .name starts continues

theorem stands_word (word : String) {first : Char} {rest : List Char}
    (chars : word.toList = first :: rest) (starts : startsName first = true)
    (continues : ∀ char ∈ rest, continuesName char = true) : Stands [.name word] := by
  refine stands_one (spelled_word chars starts continues) ?_ fun next separates => separates.1
  rw [Token.text, chars, List.head?_cons, Option.mem_some_iff]
  rintro rfl
  exact absurd starts (by decide)

theorem stands_str (content : String) : Stands [.str content] := by
  refine stands_one ?_ (by simp [Token.text]) fun _ _ => trivial
  have spelled : Spelled (.str (.ofList content.toList)) (Token.text (.str content)) :=
    .str (.inl rfl) content.toList
  rwa [String.ofList_toList] at spelled

theorem stands_int {number : Int64} (natural : 0 ≤ number.toInt) : Stands [.int number] := by
  have size : (number.toInt.toNat : Int) = number.toInt := Int.toNat_of_nonneg natural
  have fits : Value.fitsInt number.toInt.toNat = true := by
    have low := number.le_toInt
    have high := number.toInt_lt
    simp only [Value.fitsInt, Bool.and_eq_true, decide_eq_true_eq]
    omega
  refine stands_one ?_ ?_ fun next separates => separates.2
  · have spelled : Spelled (.int (.ofInt number.toInt.toNat)) (Token.text (.int number)) :=
      .int fits
    rwa [size, Int64.ofInt_toInt] at spelled
  · intro member
    have digit := Decimal.digits_are_digits (List.mem_of_mem_head? member)
    exact absurd digit (by decide)

theorem stands_value {value : Value} (writable : IsWritable value) :
    Stands (valueTokens value) := by
  cases value with
  | null => exact stands_word "null" rfl (by decide) (List.all_eq_true.mp rfl)
  | bool flag =>
      cases flag with
      | true => exact stands_word "true" rfl (by decide) (List.all_eq_true.mp rfl)
      | false => exact stands_word "false" rfl (by decide) (List.all_eq_true.mp rfl)
  | int number => exact stands_int writable
  | str content => exact stands_str content
  | float number => cases writable
  | list items => cases writable
  | map entries => cases writable

theorem spell_stands (tree : Expr) (printable : tree.Printable) : Stands tree.spell := by
  induction tree with
  | literal value => exact stands_value printable
  | var name =>
      obtain ⟨⟨first, rest, chars, starts, continues⟩, -⟩ := printable
      exact stands_word name chars starts continues
  | member base key baseStands keyStands =>
      exact stands_joined (by decide) (baseStands printable.1)
        (stands_closed (.inl rfl) (keyStands printable.2))
  | neg operand stands =>
      exact stands_behind_symbol (by decide) (stands_in_parens (stands printable))
  | not operand stands =>
      exact stands_in_parens (stands_behind_symbol (by decide) (stands printable))
  | and left right leftStands rightStands =>
      exact stands_in_parens
        (stands_joined (by decide) (leftStands printable.1) (rightStands printable.2))
  | or left right leftStands rightStands =>
      exact stands_in_parens
        (stands_joined (by decide) (leftStands printable.1) (rightStands printable.2))
  | binary operator left right leftStands rightStands =>
      exact stands_in_parens (stands_joined (by cases operator <;> decide)
        (leftStands printable.1) (rightStands printable.2))

theorem print_laid (printable : tree.Printable) : Laid tree.spell tree.print.toList := by
  have laid := (spell_stands tree printable).laid .nothing (by simp)
  rw [List.append_nil, List.append_nil] at laid
  rwa [print, String.toList_ofList]

theorem written_value {value : Value} (writable : IsWritable value) :
    Written (.literal value) (valueTokens value) := by
  cases value with
  | null => exact .literal (.word (by simp [constants]))
  | bool flag => cases flag <;> exact .literal (.word (by simp [constants]))
  | int number => exact .literal (.int number)
  | str content => exact .literal (.str content)
  | float number => cases writable
  | list items => cases writable
  | map entries => cases writable

theorem spell_written (tree : Expr) (printable : tree.Printable) : Written tree tree.spell := by
  induction tree with
  | literal value => exact written_value printable
  | var name => exact .var printable.2
  | member base key baseWritten keyWritten =>
      exact .member (baseWritten printable.1) (keyWritten printable.2)
  | neg operand written => exact .neg (written printable)
  | not operand written => exact .not (by simp [negations]) (written printable)
  | and left right leftWritten rightWritten =>
      exact .joined .and (by simp [Joins.words]) (leftWritten printable.1)
        (rightWritten printable.2)
  | or left right leftWritten rightWritten =>
      exact .joined .or (by simp [Joins.words]) (leftWritten printable.1)
        (rightWritten printable.2)
  | binary operator left right leftWritten rightWritten =>
      have first := leftWritten printable.1
      have second := rightWritten printable.2
      cases operator with
      | add => exact .joined .signs (by simp [Joins.words, signOf]) first second
      | sub => exact .joined .signs (by simp [Joins.words, signOf]) first second
      | _ => exact .compared (by simp [comparisons, signOf]) first second

/-- A tree that is written out is read back. Its text is one layout of one way to write it, and
every other way to write it is read back too, whatever blanks are put between the tokens. -/
theorem print_reads_back (tree : Expr) (printable : tree.Printable) :
    Expr.parse tree.print = .ok tree ∧ Written tree tree.spell ∧
      Laid tree.spell tree.print.toList ∧
      ∀ (tokens : List Token) (text : String), Written tree tokens → Laid tokens text.toList →
        Expr.parse text = .ok tree := by
  have written := spell_written tree printable
  have laid := print_laid printable
  exact ⟨written_reads_back written laid, written, laid, fun _ _ => written_reads_back⟩

/-- A tree with names that are no ASCII, quotes in quotes, and signs side by side. -/
theorem quoted_key_reads_back : ∃ tree : Expr,
    tree = .and (.not (.member (.var "größe") (.literal (.str "\"\\"))))
      (.binary .sub (.literal (.int 7)) (.neg (.var "n_0"))) ∧
    tree.Printable ∧ tree.print = "((!größe[\"\\\"\\\\\"])&&(7--(n_0)))" ∧
    Expr.parse tree.print = .ok tree := by
  have first : IsVariable "größe" :=
    ⟨⟨'g', ['r', 'ö', 'ß', 'e'], rfl, by decide, List.all_eq_true.mp rfl⟩, by decide⟩
  have second : IsVariable "n_0" :=
    ⟨⟨'n', ['_', '0'], rfl, by decide, List.all_eq_true.mp rfl⟩, by decide⟩
  have printable : Printable (.and (.not (.member (.var "größe") (.literal (.str "\"\\"))))
      (.binary .sub (.literal (.int 7)) (.neg (.var "n_0")))) :=
    ⟨⟨first, trivial⟩, (by decide : (0 : Int) ≤ (7 : Int64).toInt), second⟩
  exact ⟨_, rfl, printable, by rfl, (print_reads_back _ printable).1⟩

end Texts

end Letterpress.Expr
