import Letterpress.Program.Generation
import Letterpress.Proofs.Expr.Literals

/-!
What a generated program is made of: code that was lowered from expressions in the texts
of the template. So it pushes nothing but literals.
-/

namespace Letterpress

theorem expression_code_eq_ok {owner source : String} {offset : Nat} {code : Code}
    (emitted : expressionCode owner source offset = .ok code) :
    ∃ expression, Expr.parse source = .ok expression ∧ code = expression.lower := by
  unfold expressionCode at emitted
  split at emitted
  · next expression parsed =>
      cases emitted
      exact ⟨expression, parsed, rfl⟩
  · cases emitted

theorem loop_header_eq_ok {owner source : String} {offset : Nat} {header : LoopHeader}
    (read : loopHeader owner source offset = .ok header) :
    LoopHeader.parse source = .ok header := mapError_eq_ok.mp read

theorem generate_eq_ok {template : Template} {now : Instant} {program : Program}
    (generated : template.generate now = .ok program) :
    program.name = template.page.name ∧ program.sources = template.chain ∧
      program.compiledAt = now ∧ emitOwnedAt 0 template.resolve = .ok program.instructions := by
  simp only [Template.generate, bind_eq_ok] at generated
  obtain ⟨instructions, emitted, same⟩ := generated
  cases same
  exact ⟨rfl, rfl, rfl, emitted⟩

/-- Generating at another time makes another time, and nothing else. -/
theorem Template.generate_later (template : Template) (now later : Instant) :
    template.generate later =
      (template.generate now).map fun program => { program with compiledAt := later } := by
  unfold Template.generate
  cases emitOwnedAt 0 template.resolve <;> rfl

def Instruction.code? : Instruction → Option Code
  | .text _ => none
  | .emit code => some code
  | .jumpIfFalse test _ => some test
  | .jump _ => none
  | .loopStart _ iterable => some iterable
  | .iterate _ => none

def Instruction.Pushes (instruction : Instruction) (value : Value) : Prop :=
  ∃ code ∈ instruction.code?, Op.push value ∈ code

def Program.Pushes (program : Program) (value : Value) : Prop :=
  ∃ instruction ∈ program.instructions, instruction.Pushes value

/-- An expression that a text spells, by itself or behind the variables of a loop. -/
inductive Expr.FromText : Expr → Prop
  | alone {source : String} {expression : Expr} (parsed : Expr.parse source = .ok expression) :
      FromText expression
  | iterable {source : String} {header : LoopHeader}
      (parsed : LoopHeader.parse source = .ok header) : FromText header.iterable

theorem Expr.FromText.literals {expression : Expr} (written : expression.FromText) :
    expression.OnlyLiterals := by
  cases written with
  | alone parsed => exact Expr.parsed_literals parsed
  | iterable parsed => exact LoopHeader.parsed_literals parsed

/-- Code of what a template's text spells. -/
def CodeWritten (code : Code) : Prop :=
  ∃ expression : Expr, expression.FromText ∧ code = expression.lower

def LoweredLiterals (code : Code) : Prop :=
  ∃ expression : Expr, expression.OnlyLiterals ∧ code = expression.lower

theorem expression_code_written {owner source : String} {offset : Nat} {code : Code}
    (emitted : expressionCode owner source offset = .ok code) : CodeWritten code := by
  obtain ⟨expression, parsed, lowered⟩ := expression_code_eq_ok emitted
  exact ⟨expression, .alone parsed, lowered⟩

def CodesWritten (instructions : List Instruction) : Prop :=
  ∀ instruction ∈ instructions, ∀ code ∈ instruction.code?, CodeWritten code

def CodesLowered (instructions : List Instruction) : Prop :=
  ∀ instruction ∈ instructions, ∀ code ∈ instruction.code?, LoweredLiterals code

theorem codes_written_nil : CodesWritten [] := nofun

theorem codes_written_append {front back : List Instruction} (front_written : CodesWritten front)
    (back_written : CodesWritten back) : CodesWritten (front ++ back) := by
  intro instruction member
  rcases List.mem_append.mp member with first | second
  · exact front_written instruction first
  · exact back_written instruction second

theorem codes_written_cons {instruction : Instruction} {rest : List Instruction}
    (written : ∀ code ∈ instruction.code?, CodeWritten code)
    (rest_written : CodesWritten rest) : CodesWritten (instruction :: rest) := by
  intro other member
  rcases List.mem_cons.mp member with rfl | later
  · exact written
  · exact rest_written other later

theorem codes_written_cons_code {instruction : Instruction} {code : Code}
    {rest : List Instruction} (holds : instruction.code? = some code)
    (written : CodeWritten code) (rest_written : CodesWritten rest) :
    CodesWritten (instruction :: rest) := by
  apply codes_written_cons _ rest_written
  intro other here
  rw [holds] at here
  cases here
  exact written

theorem codes_written_cons_none {instruction : Instruction} {rest : List Instruction}
    (holds : instruction.code? = none) (rest_written : CodesWritten rest) :
    CodesWritten (instruction :: rest) := by
  apply codes_written_cons _ rest_written
  intro other here
  rw [holds] at here
  cases here

mutual

theorem node_codes_written {owner : String} {start : Nat} (node : Node)
    {instructions : List Instruction} (emitted : node.emitAt owner start = .ok instructions) :
    CodesWritten instructions := by
  cases node with
  | text content =>
      cases emitted
      exact codes_written_cons_none rfl codes_written_nil
  | output source offset =>
      simp only [Node.emitAt, bind_eq_ok] at emitted
      obtain ⟨code, code_emitted, same⟩ := emitted
      cases same
      exact codes_written_cons_code rfl (expression_code_written code_emitted) codes_written_nil
  | block name body => exact nodes_codes_written body emitted
  | ifThen test offset yes =>
      simp only [Node.emitAt, bind_eq_ok] at emitted
      obtain ⟨code, code_emitted, first, first_emitted, same⟩ := emitted
      cases same
      exact codes_written_cons_code rfl (expression_code_written code_emitted)
        (nodes_codes_written yes first_emitted)
  | ifElse test offset yes no =>
      simp only [Node.emitAt, bind_eq_ok] at emitted
      obtain ⟨code, code_emitted, first, first_emitted, second, second_emitted, same⟩ := emitted
      cases same
      apply codes_written_cons_code rfl (expression_code_written code_emitted)
      apply codes_written_append (nodes_codes_written yes first_emitted)
      exact codes_written_cons_none rfl (nodes_codes_written no second_emitted)
  | loop source offset body =>
      simp only [Node.emitAt, bind_eq_ok] at emitted
      obtain ⟨header, header_read, inner, inner_emitted, same⟩ := emitted
      cases same
      have iterable_written := Expr.FromText.iterable (loop_header_eq_ok header_read)
      apply codes_written_cons_code rfl ⟨header.iterable, iterable_written, rfl⟩
      apply codes_written_cons_none rfl
      apply codes_written_append (nodes_codes_written body inner_emitted)
      exact codes_written_cons_none rfl codes_written_nil

theorem nodes_codes_written {owner : String} {start : Nat} (nodes : List Node)
    {instructions : List Instruction} (emitted : emitAllAt owner start nodes = .ok instructions) :
    CodesWritten instructions := by
  cases nodes with
  | nil =>
      cases emitted
      exact codes_written_nil
  | cons node rest =>
      simp only [emitAllAt, bind_eq_ok] at emitted
      obtain ⟨first, first_emitted, others, others_emitted, same⟩ := emitted
      cases same
      exact codes_written_append (node_codes_written node first_emitted)
        (nodes_codes_written rest others_emitted)

end

theorem owned_codes_written {start : Nat} (nodes : List OwnedNode)
    {instructions : List Instruction} (emitted : emitOwnedAt start nodes = .ok instructions) :
    CodesWritten instructions := by
  induction nodes generalizing start instructions with
  | nil =>
      cases emitted
      exact codes_written_nil
  | cons owned rest later =>
      simp only [emitOwnedAt, bind_eq_ok] at emitted
      obtain ⟨first, first_emitted, others, others_emitted, same⟩ := emitted
      cases same
      exact codes_written_append (node_codes_written owned.node first_emitted)
        (later others_emitted)

theorem generated_codes_written {template : Template} {now : Instant} {program : Program}
    (generated : template.generate now = .ok program) : CodesWritten program.instructions := by
  obtain ⟨-, -, -, emitted⟩ := generate_eq_ok generated
  exact owned_codes_written _ emitted

theorem generated_codes_lowered {template : Template} {now : Instant} {program : Program}
    (generated : template.generate now = .ok program) : CodesLowered program.instructions := by
  intro instruction member code here
  obtain ⟨expression, written, lowered⟩ := generated_codes_written generated instruction member
    code here
  exact ⟨expression, written.literals, lowered⟩

theorem generated_pushes_literals {template : Template} {now : Instant} {program : Program}
    (generated : template.generate now = .ok program) {value : Value}
    (pushes : program.Pushes value) : value.IsLiteral := by
  obtain ⟨instruction, member, code, here, push⟩ := pushes
  obtain ⟨expression, literals, rfl⟩ :=
    generated_codes_lowered generated instruction member code here
  exact expression.pushed_of_lower_at 0 literals push

end Letterpress
