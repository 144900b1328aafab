import Letterpress.Proofs.Decimal.Doubles
import Letterpress.Proofs.Expr.Heading
import Letterpress.Proofs.Expr.Lexing
import Letterpress.Proofs.Instant
import Letterpress.Proofs.Program.Stored

/-!
The literals of generated programs, followed from the texts that spell them. A sign is never
part of a number, a number that has no integer is a double, and one that has no finite double
is refused; so what is pushed has a text of its own, which is read as nothing else. However
deep a template nests its nodes and its expressions, its program is a list of lists.
-/

namespace Letterpress

/-- What a token can spell: texts, words, and finite numbers that have no sign. -/
def Value.IsUnsigned : Value → Prop
  | .int number => 0 ≤ number.toInt
  | .float number => ∃ magnitude, Decimal.Dyadic.ofFloat? number = some (false, magnitude)
  | .list _ => False
  | .map _ => False
  | _ => True

theorem Value.IsUnsigned.literal {value : Value} (unsigned : value.IsUnsigned) :
    value.IsLiteral := by
  cases value with
  | float number =>
      obtain ⟨magnitude, found⟩ := unsigned
      exact Option.isSome_iff_exists.mpr ⟨_, found⟩
  | list items => cases unsigned
  | map entries => cases unsigned
  | _ => trivial

namespace Expr

def literals : Expr → List Value
  | .literal value => [value]
  | .var _ => []
  | .member base key => base.literals ++ key.literals
  | .neg operand => operand.literals
  | .not operand => operand.literals
  | .and left right => left.literals ++ right.literals
  | .or left right => left.literals ++ right.literals
  | .binary _ left right => left.literals ++ right.literals

/-- Nothing else is pushed, wherever the code is placed. -/
theorem literal_of_pushed {value : Value} (expression : Expr) (start : Nat)
    (pushed : .push value ∈ expression.lowerAt start) : value ∈ expression.literals := by
  induction expression generalizing start with
  | literal held =>
      rw [lowerAt, List.mem_singleton, Op.push.injEq] at pushed
      exact List.mem_singleton.mpr pushed
  | var name => simp [lowerAt] at pushed
  | neg operand from_operand | not operand from_operand =>
      simp only [lowerAt, List.mem_append, List.mem_singleton, reduceCtorEq, or_false] at pushed
      exact from_operand start pushed
  | member left right from_left from_right
  | binary operator left right from_left from_right
  | and left right from_left from_right
  | or left right from_left from_right =>
      simp only [lowerAt, List.mem_append, List.mem_cons, List.not_mem_nil, reduceCtorEq, false_or,
        or_false] at pushed
      apply List.mem_append.mpr
      exact pushed.imp (from_left _) (from_right _)

section Phrases

/-- A value that a token spells, or that a name after a point is. -/
def SpelledIn (tokens : List Token) (value : Value) : Prop :=
  (∃ name, value = .str name) ∨ ∃ token ∈ tokens, Spells token value

variable {level operand : Level} {value : Value} {token : Token} {front back : List Token}

theorem SpelledIn.before (spelled : SpelledIn front value) : SpelledIn (front ++ back) value :=
  spelled.imp_right fun ⟨token, inside, spells⟩ =>
    ⟨token, List.mem_append_left back inside, spells⟩

theorem SpelledIn.behind (spelled : SpelledIn back value) : SpelledIn (front ++ back) value :=
  spelled.imp_right fun ⟨token, inside, spells⟩ =>
    ⟨token, List.mem_append_right front inside, spells⟩

theorem SpelledIn.later (spelled : SpelledIn back value) : SpelledIn (token :: back) value :=
  have behind : SpelledIn ([token] ++ back) value := spelled.behind
  behind

theorem Joins.literals {rule : Joins level operand} {word : Token}
    {combine : Expr → Expr → Expr} (joins : (word, combine) ∈ rule.words) (left right : Expr) :
    (combine left right).literals = left.literals ++ right.literals := by
  cases rule <;> simp only [Joins.words, List.mem_cons, Prod.mk.injEq, List.not_mem_nil,
    or_false] at joins <;> rcases joins with ⟨-, rfl⟩ | ⟨-, rfl⟩ <;> rfl

mutual

/-- A phrase means no value that its tokens do not spell. -/
theorem phrase_literals : {level : Level} → (phrase : Phrase level) →
    value ∈ phrase.tree.literals → SpelledIn phrase.tokens value
  | _, .joined rule first further, held => by
    rcases further_literals further held with within | added
    · exact (phrase_literals first within).before
    · exact added.behind
  | _, .not word negates operand, held => (phrase_literals operand held).later
  | _, .positive inner, held => phrase_literals inner held
  | _, .single inner, held => phrase_literals inner held
  | _, .compared left sign operator compares right, held => by
    rcases List.mem_append.mp held with first | second
    · exact (phrase_literals left first).before
    · exact (phrase_literals right second).later.behind
  | _, .access base further, held => by
    rcases further_literals further held with within | added
    · exact (phrase_literals base within).before
    · exact added.behind
  | _, .literal token other spells, held => by
    rw [Phrase.tree, literals, List.mem_singleton] at held
    exact .inr ⟨token, List.mem_singleton_self _, held ▸ spells⟩
  | _, .named name free, held => nomatch held
  | _, .grouped inner, held => (phrase_literals inner held).before.later
  | _, .negative operand, held => (phrase_literals operand held).later

theorem further_literals : {level : Level} → (further : Further level) → {left : Expr} →
    value ∈ (further.extend left).literals →
    value ∈ left.literals ∨ SpelledIn further.tokens value
  | _, .nothing, left, held => .inl held
  | _, .operand rule word combine joins next further, left, held => by
    rcases further_literals further held with within | added
    · rw [Joins.literals joins, List.mem_append] at within
      exact within.imp_right fun inside => (phrase_literals next inside).before.later
    · exact .inr added.behind.later
  | _, .field name further, left, held => by
    rcases further_literals further held with within | added
    · apply (List.mem_append.mp within).imp_right
      exact fun inside => .inl ⟨name, List.mem_singleton.mp inside⟩
    · exact .inr added.later.later
  | _, .index key further, left, held => by
    rcases further_literals further held with within | added
    · apply (List.mem_append.mp within).imp_right
      exact fun inside => (phrase_literals key inside).before.later
    · exact .inr added.later.behind.later

end

end Phrases

section Tokens

variable {first : Char} {rest after whole places : List Char} {token : Token} {value : Value}

theorem number_token_unsigned (read : numberToken? whole places = some token)
    (spells : Spells token value) : value.IsUnsigned := by
  simp only [numberToken?] at read
  split at read
  · next fits =>
      cases read
      cases spells
      rw [Bool.and_eq_true, Value.fitsInt, Bool.and_eq_true, decide_eq_true_eq,
        decide_eq_true_eq] at fits
      rw [Value.IsUnsigned, Int64.toInt_ofInt_of_le (by omega) (by omega)]
      exact Int.natCast_nonneg _
  · split at read
    · next finite =>
        cases read
        cases spells
        obtain ⟨⟨negative, magnitude⟩, found⟩ := Option.isSome_iff_exists.mp finite
        obtain rfl := Decimal.to_double_unsigned found
        exact ⟨magnitude, found⟩
    · cases read

theorem word_unsigned {name : String} (spells : Spells (.name name) value) :
    value.IsUnsigned := by
  cases spells with
  | word constant =>
      simp only [constants, List.mem_cons, Prod.mk.injEq, List.not_mem_nil, or_false] at constant
      rcases constant with ⟨-, rfl⟩ | ⟨-, rfl⟩ | ⟨-, rfl⟩ | ⟨-, rfl⟩ <;> trivial

theorem token_unsigned (read : readToken first rest = .ok (token, after))
    (spells : Spells token value) : value.IsUnsigned := by
  unfold readToken at read
  split at read
  · split at read
    · cases read
      cases spells
      trivial
    · cases read
  split at read
  · dsimp only at read
    split at read
    · next token number_read =>
        cases read
        exact number_token_unsigned number_read spells
    · cases read
  split at read
  · cases read
    exact word_unsigned spells
  · split at read
    · cases read
      cases spells
    · cases read

theorem lexed_unsigned {source : String} {lexemes : List Lexeme}
    (lexed : lex source = .ok lexemes) (spelled : SpelledIn (lexemes.map Lexeme.token) value) :
    value.IsUnsigned := by
  rcases spelled with ⟨name, rfl⟩ | ⟨token, member, spells⟩
  · trivial
  · obtain ⟨lexeme, here, rfl⟩ := List.mem_map.mp member
    obtain ⟨before, first, rest, after, -, -, read⟩ := lexed_stand lexed lexeme here
    exact token_unsigned read spells

end Tokens

/-- Whatever an expression of a template holds is spelled in its text. -/
theorem FromText.unsigned {expression : Expr} (written : expression.FromText) {value : Value}
    (held : value ∈ expression.literals) : value.IsUnsigned := by
  cases written with
  | alone parsed =>
      simp only [parse, bind_eq_ok, mapError_eq_ok, of_lexemes_iff] at parsed
      obtain ⟨lexemes, lexed, phrase, spelled, rfl⟩ := parsed
      exact lexed_unsigned lexed (spelled ▸ phrase_literals phrase held)
  | iterable parsed =>
      simp only [LoopHeader.parse, bind_eq_ok, mapError_eq_ok,
        LoopHeader.of_lexemes_iff] at parsed
      obtain ⟨lexemes, lexed, heading, spelled, rfl⟩ := parsed
      apply lexed_unsigned lexed
      rw [← spelled]
      exact (phrase_literals heading.iterable held).before.later.behind.behind.behind

end Expr

namespace Value

variable {value : Value}

theorem json_of_unsigned (unsigned : value.IsUnsigned) (nothing : value.toJson = .null) :
    value = .null := by
  cases value with
  | null => rfl
  | float number =>
      obtain ⟨magnitude, found⟩ := unsigned
      rw [toJson, Json.ofFloat] at nothing
      split at nothing
      · cases nothing
      · next missing =>
          simp only [Decimal.ofFloat?, found] at missing
          split at missing <;> cases missing
  | bool flag => cases nothing
  | int number => cases nothing
  | str text => cases nothing
  | list items => cases unsigned
  | map entries => cases unsigned

/-- Literals are read in any place of a document, even where nothing may nest. -/
theorem literal_reads (literal : value.IsLiteral) (room : Nat) :
    ofJson? room value.toJson = some value.reread := by
  apply value_reads
  · rw [parts_of_literal literal]
    exact List.forall_mem_singleton.mpr (formed_of_literal literal)
  · rw [nesting_of_literal literal]
    exact Nat.zero_le room

end Value

theorem generated_pushes_unsigned {template : Template} {now : Instant} {program : Program}
    (generated : template.generate now = .ok program) {value : Value}
    (pushes : program.Pushes value) : value.IsUnsigned := by
  obtain ⟨instruction, member, code, here, push⟩ := pushes
  obtain ⟨expression, written, rfl⟩ :=
    generated_codes_written generated instruction member code here
  exact written.unsigned (expression.literal_of_pushed 0 push)

/-- Nothing that a template nests, nodes or operands, nests in the document of its program,
and no literal is lost in it. So the document can be read again, as far as lengths fit a word
and if the time was one that a date has: as the program, if the doubles of the program are
exact, and as one with other doubles otherwise. -/
theorem generated_document_is_shallow {template : Template} {now : Instant} {program : Program}
    (generated : template.generate now = .ok program) :
    (∀ value, program.Pushes value → value.IsUnsigned ∧
        (value.toJson = .null → value = .null) ∧
        ∀ room, Value.ofJson? room value.toJson = some value.reread) ∧
      program.toJson.nesting ≤ 6 ∧
      (now.Proper → program.FitsMemory →
        Program.decode? program.encode = some program.reread ∧
          Program.decodeBytes? program.encode.toUTF8 = some program.reread) ∧
      (program.FloatsExact → program.reread = program) := by
  have shallow := Program.nesting_of_lowered (generated_codes_lowered generated)
  refine ⟨fun value pushes => ?_, shallow, fun proper fits => ?_,
    Program.reread_of_exact generated⟩
  · have unsigned := generated_pushes_unsigned generated pushes
    exact ⟨unsigned, Value.json_of_unsigned unsigned, Value.literal_reads unsigned.literal⟩
  · exact Program.generated_reads generated fits (Instant.read_text proper)

def nestedCounts : Template :=
  ⟨⟨"counts.html",
    [.block "body"
      [.ifElse "((not (1.5 > -9223372036854775808)))" 12
        [.loop "(let row of rows)" 64 [.loop "cell of row[\"cells\"].all" 90 [.output "- - 7" 120]]]
        [.loop "n, x of undefined or (false and null)" 150 [.output "x.y[0.0][-(2)] + 'z'" 190]]]]⟩,
    []⟩

theorem nested_counts_are_shallow :
    ∃ program, nestedCounts.generate (.ofSeconds 0) = .ok program ∧
      program.toJson.nesting ≤ 6 ∧
      Program.decodeBytes? program.encode.toUTF8 = some program := by
  obtain ⟨program, generated⟩ :=
    exists_ok_of_isOk (show (nestedCounts.generate (.ofSeconds 0)).isOk = true by decide +kernel)
  have stored : ∀ program ∈ (nestedCounts.generate (.ofSeconds 0)).toOption,
      program.FitsMemory ∧ program.Denoted := by decide +kernel
  obtain ⟨fits, denoted⟩ := stored program (toOption_eq_some.mpr generated)
  have ⟨_, shallow, reads, same⟩ := generated_document_is_shallow generated
  have read := (reads (by decide +kernel) fits).2
  rw [same (Program.exact_of_denoted denoted)] at read
  exact ⟨program, generated, shallow, read⟩

end Letterpress
