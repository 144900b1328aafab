import Letterpress.Proofs.Program.Generation
import Letterpress.Proofs.Program.RoundTrip

/-!
Generated programs come back from where they are stored. What they push are literals, so
their documents nest no deeper than a record in an instruction does; where they jump lies
within their own lengths, so targets fit a word as soon as the program fits in memory. Their
doubles come back if the texts of these doubles are exact.
-/

namespace Letterpress

section Targets

/-- Control stays within the code that it is in, or leaves it at its end. -/
theorem Expr.target_within (expression : Expr) (start : Nat) {op : Op} {target : Nat}
    (member : op ∈ expression.lowerAt start) (jumps : op.target? = some target) :
    target ≤ start + (expression.lowerAt start).length := by
  induction expression generalizing start with
  | literal value =>
      rw [lowerAt, List.mem_singleton] at member
      subst member
      cases jumps
  | var name =>
      rw [lowerAt, List.mem_singleton] at member
      subst member
      cases jumps
  | neg operand inside =>
      simp only [lowerAt, List.mem_append, List.mem_singleton, List.length_append] at member ⊢
      rcases member with first | rfl
      · exact (inside start first).trans (by omega)
      · cases jumps
  | not operand inside =>
      simp only [lowerAt, List.mem_append, List.mem_singleton, List.length_append] at member ⊢
      rcases member with first | rfl
      · exact (inside start first).trans (by omega)
      · cases jumps
  | member left right in_left in_right
  | binary operator left right in_left in_right =>
      simp only [lowerAt, List.mem_append, List.mem_singleton, List.length_append] at member ⊢
      rcases member with (first | second) | rfl
      · exact (in_left start first).trans (by omega)
      · exact (in_right _ second).trans (by omega)
      · cases jumps
  | and left right in_left in_right
  | or left right in_left in_right =>
      simp only [lowerAt, List.mem_append, List.mem_cons, List.length_append,
        List.length_cons] at member ⊢
      rcases member with first | rfl | second
      · exact (in_left start first).trans (by omega)
      · cases jumps
        omega
      · exact (in_right _ second).trans (by omega)

def JumpsWithin (start : Nat) (instructions : List Instruction) : Prop :=
  ∀ instruction ∈ instructions, ∀ target ∈ instruction.target?,
    target ≤ start + instructions.length

variable {start : Nat} {front back instructions : List Instruction} {instruction : Instruction}

theorem jumps_nil : JumpsWithin start [] := nofun

theorem jumps_cons (here : ∀ target ∈ instruction.target?, target ≤ start + 1 + back.length)
    (behind : JumpsWithin (start + 1) back) : JumpsWithin start (instruction :: back) := by
  intro other member target jumps
  rw [List.length_cons]
  rcases List.mem_cons.mp member with rfl | later
  · exact (here target jumps).trans (by omega)
  · exact (behind other later target jumps).trans (by omega)

theorem jumps_append (first : JumpsWithin start front)
    (second : JumpsWithin (start + front.length) back) : JumpsWithin start (front ++ back) := by
  intro other member target jumps
  rw [List.length_append]
  rcases List.mem_append.mp member with before | behind
  · exact (first other before target jumps).trans (by omega)
  · exact (second other behind target jumps).trans (by omega)

mutual

theorem node_jumps_within {owner : String} {start : Nat} (node : Node)
    {instructions : List Instruction} (emitted : node.emitAt owner start = .ok instructions) :
    JumpsWithin start instructions := by
  cases node with
  | text content =>
      cases emitted
      exact jumps_cons nofun jumps_nil
  | output source offset =>
      simp only [Node.emitAt, bind_eq_ok] at emitted
      obtain ⟨code, -, same⟩ := emitted
      cases same
      exact jumps_cons nofun jumps_nil
  | block name body => exact nodes_jump_within body emitted
  | ifThen test offset yes =>
      simp only [Node.emitAt, bind_eq_ok] at emitted
      obtain ⟨code, -, first, first_emitted, same⟩ := emitted
      cases same
      apply jumps_cons _ (nodes_jump_within yes first_emitted)
      rintro target jumps
      cases jumps
      omega
  | ifElse test offset yes no =>
      simp only [Node.emitAt, bind_eq_ok] at emitted
      obtain ⟨code, -, first, first_emitted, second, second_emitted, same⟩ := emitted
      cases same
      apply jumps_cons
      · rintro target jumps
        cases jumps
        simp only [List.length_append, List.length_cons]
        omega
      · apply jumps_append (nodes_jump_within yes first_emitted)
        apply jumps_cons _ (nodes_jump_within no second_emitted)
        rintro target jumps
        cases jumps
        omega
  | loop source offset body =>
      simp only [Node.emitAt, bind_eq_ok] at emitted
      obtain ⟨header, -, inner, inner_emitted, same⟩ := emitted
      cases same
      apply jumps_cons
      · nofun
      · apply jumps_cons
        · rintro target jumps
          cases jumps
          simp only [List.length_append, List.length_singleton]
          omega
        · apply jumps_append (nodes_jump_within body inner_emitted)
          apply jumps_cons _ jumps_nil
          rintro target jumps
          cases jumps
          omega

theorem nodes_jump_within {owner : String} {start : Nat} (nodes : List Node)
    {instructions : List Instruction} (emitted : emitAllAt owner start nodes = .ok instructions) :
    JumpsWithin start instructions := by
  cases nodes with
  | nil =>
      cases emitted
      exact jumps_nil
  | cons node rest =>
      simp only [emitAllAt, bind_eq_ok] at emitted
      obtain ⟨first, first_emitted, others, others_emitted, same⟩ := emitted
      cases same
      exact jumps_append (node_jumps_within node first_emitted)
        (nodes_jump_within rest others_emitted)

end

theorem owned_jump_within (nodes : List OwnedNode)
    (emitted : emitOwnedAt start nodes = .ok instructions) : JumpsWithin start instructions := by
  induction nodes generalizing start instructions with
  | nil =>
      cases emitted
      exact jumps_nil
  | cons owned rest later =>
      simp only [emitOwnedAt, bind_eq_ok] at emitted
      obtain ⟨first, first_emitted, others, others_emitted, same⟩ := emitted
      cases same
      exact jumps_append (node_jumps_within owned.node first_emitted) (later others_emitted)

end Targets

section Nesting

theorem Value.nesting_of_literal {value : Value} (literal : value.IsLiteral) :
    value.toJson.nesting = 0 := by
  cases value with
  | float number =>
      rw [toJson, Json.ofFloat]
      split <;> rfl
  | list items => cases literal
  | map entries => cases literal
  | null => rfl
  | bool flag => rfl
  | int number => rfl
  | str text => rfl

theorem Json.nesting_of_items {items : List Json} {bound : Nat}
    (shallow : ∀ item ∈ items, item.nesting ≤ bound) : nestingOfItems items ≤ bound := by
  induction items with
  | nil => exact Nat.zero_le bound
  | cons item rest later =>
      rw [nestingOfItems]
      exact Nat.max_le.mpr ⟨shallow item (by simp), later fun other member =>
        shallow other (by simp [member])⟩

theorem Json.nesting_of_texts (texts : List String) : (ofTexts texts).nesting ≤ 1 := by
  rw [ofTexts, nesting]
  have flat : nestingOfItems (texts.map ofText) ≤ 0 := nesting_of_items fun item member => by
    obtain ⟨text, -, rfl⟩ := List.mem_map.mp member
    exact Nat.le_refl 0
  omega

theorem Op.nesting_of_literal {op : Op} (literal : ∀ value, op = .push value → value.IsLiteral) :
    op.toJson.nesting ≤ 1 := by
  cases op with
  | push value =>
      rw [toJson, Json.nesting_of_case, Value.nesting_of_literal (literal value rfl)]
  | load name => exact Nat.le_refl 1
  | binary operator => exact Nat.le_refl 1
  | jumpIfFalsy target => exact Nat.le_refl 1
  | jumpIfTruthy target => exact Nat.le_refl 1
  | member => exact Nat.zero_le 1
  | neg => exact Nat.zero_le 1
  | not => exact Nat.zero_le 1

theorem LoweredLiterals.nesting {code : Code} (lowered : LoweredLiterals code) :
    code.toJson.nesting ≤ 2 := by
  obtain ⟨expression, literals, rfl⟩ := lowered
  have shallow : Json.nestingOfItems (expression.lower.map Op.toJson) ≤ 1 :=
    Json.nesting_of_items fun item member => by
      obtain ⟨op, here, rfl⟩ := List.mem_map.mp member
      exact Op.nesting_of_literal fun value push =>
        expression.pushed_of_lower_at 0 literals (push ▸ here)
  rw [Code.toJson, Json.nesting]
  omega

theorem Instruction.nesting_of_lowered {instruction : Instruction}
    (lowered : ∀ code ∈ instruction.code?, LoweredLiterals code) :
    instruction.toJson.nesting ≤ 4 := by
  cases instruction with
  | text content => exact (by decide : 1 ≤ 4)
  | emit code =>
      have shallow := (lowered code rfl).nesting
      rw [toJson, Json.nesting_of_case]
      omega
  | jumpIfFalse test target =>
      have shallow := (lowered test rfl).nesting
      simp only [toJson, Json.nesting_of_case, Json.nesting, Json.nestingOfItems, Json.ofNat]
      omega
  | jump target => exact (by decide : 1 ≤ 4)
  | loopStart names iterable =>
      have shallow := (lowered iterable rfl).nesting
      have flat := Json.nesting_of_texts names
      simp only [toJson, Json.nesting_of_case, Json.ofMembers, List.map_cons, List.map_nil,
        Json.nesting, Json.nestingOfMembers]
      omega
  | iterate target => exact (by decide : 1 ≤ 4)

theorem Program.nesting_of_lowered {program : Program}
    (lowered : CodesLowered program.instructions) : program.toJson.nesting ≤ 6 := by
  have flat := Json.nesting_of_texts program.sources
  have shallow : Json.nestingOfItems (program.instructions.map Instruction.toJson) ≤ 4 :=
    Json.nesting_of_items fun item member => by
      obtain ⟨instruction, here, rfl⟩ := List.mem_map.mp member
      exact Instruction.nesting_of_lowered (lowered instruction here)
  simp only [toJson, Json.ofMembers, List.map_cons, List.map_nil, Json.nesting,
    Json.nestingOfMembers, Json.ofText]
  omega

end Nesting

theorem Value.parts_of_literal {value : Value} (literal : value.IsLiteral) :
    value.parts = [value] := by
  cases value with
  | list items => cases literal
  | map entries => cases literal
  | _ => rfl

theorem Value.formed_of_literal {value : Value} (literal : value.IsLiteral) : value.Formed := by
  cases value with
  | float number => exact literal
  | map entries => cases literal
  | _ => trivial

namespace Program

/-- Lengths that memory can have. -/
structure FitsMemory (program : Program) : Prop where
  instructions : program.instructions.length < UInt64.size
  codes : ∀ instruction ∈ program.instructions, ∀ code ∈ instruction.code?,
    code.length < UInt64.size

instance : DecidablePred FitsMemory := fun program =>
  decidable_of_iff
    (program.instructions.length < UInt64.size ∧
      ∀ instruction ∈ program.instructions, ∀ code ∈ instruction.code?,
        code.length < UInt64.size)
    ⟨fun ⟨instructions, codes⟩ => ⟨instructions, codes⟩,
      fun ⟨instructions, codes⟩ => ⟨instructions, codes⟩⟩

/-- Programs of which nothing is lost when they are stored. -/
structure KeptWhole (program : Program) : Prop where
  fits : program.FitsMemory
  exact_floats : program.FloatsExact

variable {template : Template} {now : Instant} {program : Program}

theorem formed_of_generated (generated : template.generate now = .ok program)
    (fits : program.FitsMemory) : program.Formed := by
  obtain ⟨-, -, -, emitted⟩ := generate_eq_ok generated
  intro instruction member
  constructor
  · intro target jumps
    have within := owned_jump_within _ emitted instruction member target jumps
    have room := fits.instructions
    omega
  · intro code here op inside
    obtain ⟨expression, literals, rfl⟩ :=
      generated_codes_lowered generated instruction member code here
    constructor
    · intro target jumps
      have within := expression.target_within 0 inside jumps
      have room := fits.codes instruction member expression.lower here
      rw [Expr.lower] at room
      omega
    · intro part held
      cases op with
      | push value =>
          have literal := expression.pushed_of_lower_at 0 literals inside
          rw [Op.pushedParts, Value.parts_of_literal literal, List.mem_singleton] at held
          exact held ▸ Value.formed_of_literal literal
      | _ => cases held

/-- Storing a generated program keeps all of it but its doubles, as long as it keeps the time. -/
theorem generated_reads (generated : template.generate now = .ok program)
    (fits : program.FitsMemory) (time : Instant.read? now.toText = some now) :
    decode? program.encode = some program.reread ∧
      decodeBytes? program.encode.toUTF8 = some program.reread := by
  have compiled : program.compiledAt = now := (generate_eq_ok generated).2.2.1
  have shallow := nesting_of_lowered (generated_codes_lowered generated)
  exact stored_program_reads (formed_of_generated generated fits) (compiled.symm ▸ time)
    (shallow.trans (by decide))

/-- Where the doubles are exact, a generated program is what it is read as. -/
theorem reread_of_exact (generated : template.generate now = .ok program)
    (exact_floats : program.FloatsExact) : program.reread = program := by
  apply reread_eq
  intro value pushes
  have literal := generated_pushes_literals generated pushes
  cases value with
  | float number =>
      have read := exact_floats number pushes literal
      rw [Json.FloatExact, Value.float_reads literal] at read
      exact Option.some.inj read
  | list items => cases literal
  | map entries => cases literal
  | null => rfl
  | bool flag => rfl
  | int number => rfl
  | str text => rfl

/-- Doubles of which the texts are read as themselves. -/
theorem exact_of_denoted (denoted : program.Denoted) : program.FloatsExact := by
  rintro number ⟨instruction, member, code, coded, push⟩ finite
  exact Value.float_exact_of_denoted finite
    (denoted instruction member code coded (.push (.float number)) push (.float number)
      (by simp [Op.pushedParts, Value.parts]))

end Program

end Letterpress
