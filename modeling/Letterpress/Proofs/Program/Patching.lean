import Letterpress.Proofs.Program.Generation

/-!
Writing code into one list, front to back. A jump whose target is still to come is written with
a mark in its place, and gets its target once the list has grown up to there. Code that is
placed at addresses knows its targets from its lengths instead. Both are the same code,
whatever the mark is: so none is left.
-/

namespace Letterpress

def Op.retarget (target : Nat) : Op → Op
  | .jumpIfFalsy _ => .jumpIfFalsy target
  | .jumpIfTruthy _ => .jumpIfTruthy target
  | other => other

def Instruction.retarget (target : Nat) : Instruction → Instruction
  | .jumpIfFalse test _ => .jumpIfFalse test target
  | .jump _ => .jump target
  | .iterate _ => .iterate target
  | other => other

/-- The jump at an address goes to the end of what is written so far. -/
def Code.patch (written : Code) (address : Nat) : Code :=
  written.modify address (·.retarget written.length)

def patchJump (written : List Instruction) (address : Nat) : List Instruction :=
  written.modify address (·.retarget written.length)

def Expr.writeOn (mark : Nat) (written : Code) : Expr → Code
  | .literal value => written ++ [.push value]
  | .var name => written ++ [.load name]
  | .member base key => key.writeOn mark (base.writeOn mark written) ++ [.member]
  | .neg operand => operand.writeOn mark written ++ [.neg]
  | .not operand => operand.writeOn mark written ++ [.not]
  | .binary operator left right =>
      right.writeOn mark (left.writeOn mark written) ++ [.binary operator]
  | .and left right =>
      let first := left.writeOn mark written
      (right.writeOn mark (first ++ [.jumpIfFalsy mark])).patch first.length
  | .or left right =>
      let first := left.writeOn mark written
      (right.writeOn mark (first ++ [.jumpIfTruthy mark])).patch first.length

def writeExpression (mark : Nat) (owner source : String) (offset : Nat) :
    Except TemplateError Code :=
  match Expr.parse source with
  | .ok expression => .ok (expression.writeOn mark [])
  | .error error => .error (.expression owner error offset)

mutual

def Node.writeOn (mark : Nat) (owner : String) (written : List Instruction) :
    Node → Except TemplateError (List Instruction)
  | .text content => .ok (written ++ [.text content])
  | .output expression offset => do
      let code ← writeExpression mark owner expression offset
      return written ++ [.emit code]
  | .block _ body => writeAllOn mark owner written body
  | .ifThen test offset yes => do
      let code ← writeExpression mark owner test offset
      let inside ← writeAllOn mark owner (written ++ [.jumpIfFalse code mark]) yes
      return patchJump inside written.length
  | .ifElse test offset yes no => do
      let code ← writeExpression mark owner test offset
      let first ← writeAllOn mark owner (written ++ [.jumpIfFalse code mark]) yes
      let second ←
        writeAllOn mark owner (patchJump (first ++ [.jump mark]) written.length) no
      return patchJump second first.length
  | .loop header offset body => do
      let parsed ← loopHeader owner header offset
      let opening := written ++ [.loopStart parsed.names (parsed.iterable.writeOn mark [])]
      let inside ← writeAllOn mark owner (opening ++ [.iterate mark]) body
      return patchJump (inside ++ [.jump opening.length]) opening.length

def writeAllOn (mark : Nat) (owner : String) (written : List Instruction) :
    List Node → Except TemplateError (List Instruction)
  | [] => .ok written
  | node :: rest => do
      let longer ← node.writeOn mark owner written
      writeAllOn mark owner longer rest

end

def writeOwnedOn (mark : Nat) (written : List Instruction) :
    List OwnedNode → Except TemplateError (List Instruction)
  | [] => .ok written
  | owned :: rest => do
      let longer ← owned.node.writeOn mark owned.owner written
      writeOwnedOn mark longer rest

/-- Generates with a mark for every target that is not known yet. -/
def Template.write (template : Template) (mark : Nat) (now : Instant) :
    Except TemplateError Program := do
  let instructions ← writeOwnedOn mark [] template.resolve
  return ⟨template.page.name, template.chain, now, instructions⟩

section Lists

variable {Item : Type} {front back : List Item} {item : Item}

/-- What stands right behind the front is changed, and nothing else. -/
theorem modify_behind (change : Item → Item) :
    (front ++ item :: back).modify front.length change = front ++ change item :: back := by
  induction front with
  | nil => rfl
  | cons first rest later => exact congrArg (first :: ·) later

end Lists

section Codes

variable {written : Code}

theorem patch_behind {front back : Code} {op : Op} :
    Code.patch (front ++ op :: back) front.length =
      front ++ op.retarget (front.length + 1 + back.length) :: back := by
  rw [Code.patch, modify_behind, List.length_append, List.length_cons, Nat.add_right_comm,
    Nat.add_assoc]

theorem Expr.write_on (mark : Nat) (expression : Expr) (written : Code) :
    expression.writeOn mark written = written ++ expression.lowerAt written.length := by
  induction expression generalizing written with
  | literal value => rfl
  | var name => rfl
  | neg operand inside => rw [writeOn, inside, lowerAt, List.append_assoc]
  | not operand inside => rw [writeOn, inside, lowerAt, List.append_assoc]
  | member left right in_left in_right
  | binary operator left right in_left in_right =>
      simp only [writeOn, in_left, in_right, lowerAt, List.length_append, List.append_assoc]
  | and left right in_left in_right
  | or left right in_left in_right =>
      simp only [writeOn, in_left, in_right, lowerAt]
      rw [List.append_assoc _ [_] _, List.singleton_append, patch_behind]
      simp only [Op.retarget, List.length_append, List.length_singleton, List.append_assoc,
        Nat.add_assoc]

theorem write_expression (mark : Nat) (owner source : String) (offset : Nat) :
    writeExpression mark owner source offset = expressionCode owner source offset := by
  unfold writeExpression expressionCode
  cases Expr.parse source with
  | error error => rfl
  | ok expression => exact congrArg Except.ok (expression.write_on mark [])

end Codes

section Instructions

theorem patch_jump_behind {front back : List Instruction} {instruction : Instruction}
    {address : Nat} (place : address = front.length) :
    patchJump (front ++ instruction :: back) address =
      front ++ instruction.retarget (address + 1 + back.length) :: back := by
  rw [place, patchJump, modify_behind, List.length_append, List.length_cons, Nat.add_right_comm,
    Nat.add_assoc]

section Constructs

variable (written first second : List Instruction) (code : Code) (mark : Nat)

theorem patched_condition :
    patchJump (written ++ [.jumpIfFalse code mark] ++ first) written.length =
      written ++ .jumpIfFalse code (written.length + 1 + first.length) :: first := by
  rw [List.append_assoc, List.singleton_append, patch_jump_behind rfl]
  rfl

/-- The jump over the second part is patched where the first patch has been. -/
theorem patched_choice :
    patchJump
        (written ++ .jumpIfFalse code (written.length + 1 + first.length + 1) ::
          (first ++ [.jump mark]) ++ second)
        (written.length + 1 + first.length) =
      written ++ .jumpIfFalse code (written.length + 1 + first.length + 1) ::
        (first ++ .jump (written.length + 1 + first.length + 1 + second.length) :: second) := by
  have split : written ++ .jumpIfFalse code (written.length + 1 + first.length + 1) ::
        (first ++ [.jump mark]) ++ second =
      (written ++ .jumpIfFalse code (written.length + 1 + first.length + 1) :: first) ++
        .jump mark :: second := by
    simp
  have place : written.length + 1 + first.length =
      (written ++ .jumpIfFalse code (written.length + 1 + first.length + 1) :: first).length := by
    simp
    omega
  rw [split, patch_jump_behind place, List.append_assoc, List.cons_append]
  rfl

theorem patched_loop (names : List String) :
    patchJump
        (written ++ [.loopStart names code] ++ [.iterate mark] ++ first ++
          [.jump (written.length + 1)])
        (written.length + 1) =
      written ++ .loopStart names code :: .iterate (written.length + 2 + first.length + 1) ::
        (first ++ [.jump (written.length + 1)]) := by
  have place : written.length + 1 = (written ++ [Instruction.loopStart names code]).length := by
    simp
  rw [List.append_assoc, List.append_assoc _ [_] _, List.singleton_append,
    patch_jump_behind place, List.length_append, List.append_assoc, List.singleton_append]
  rfl

end Constructs

theorem map_then {Next : Type} {outcome : Except TemplateError (List Instruction)}
    (written : List Instruction)
    (step : List Instruction → Except TemplateError Next) :
    (outcome.map (written ++ ·) >>= step) = outcome >>= fun behind => step (written ++ behind) := by
  cases outcome <;> rfl

theorem then_map {First : Type} {first : Except TemplateError First} (written : List Instruction)
    (step : First → Except TemplateError (List Instruction)) :
    (first >>= step).map (written ++ ·) =
      first >>= fun result => (step result).map (written ++ ·) := by
  cases first <;> rfl

mutual

theorem node_write_on (mark : Nat) (owner : String) (written : List Instruction) (node : Node) :
    node.writeOn mark owner written =
      (node.emitAt owner written.length).map (written ++ ·) := by
  cases node with
  | text content => rfl
  | output source offset =>
      rw [Node.writeOn, Node.emitAt, write_expression, then_map]
      rfl
  | block name body => exact nodes_write_on mark owner written body
  | ifThen test offset yes =>
      have inside code := nodes_write_on mark owner (written ++ [.jumpIfFalse code mark]) yes
      simp only [Node.writeOn, Node.emitAt, write_expression, then_map, inside, map_then,
        List.length_append, List.length_singleton]
      congr 1
      funext code
      congr 1
      funext first
      rw [patched_condition]
      rfl
  | ifElse test offset yes no =>
      have first code := nodes_write_on mark owner (written ++ [.jumpIfFalse code mark]) yes
      have second longer := nodes_write_on mark owner longer no
      simp only [Node.writeOn, Node.emitAt, write_expression, then_map, first, second, map_then,
        List.length_append, List.length_singleton]
      congr 1
      funext code
      congr 1
      funext inside
      have opened : patchJump (written ++ [.jumpIfFalse code mark] ++ inside ++ [.jump mark])
          written.length =
            written ++ .jumpIfFalse code (written.length + 1 + inside.length + 1) ::
              (inside ++ [.jump mark]) := by
        rw [List.append_assoc _ inside, patched_condition, List.length_append, ← Nat.add_assoc]
        rfl
      have longer : (written ++ .jumpIfFalse code (written.length + 1 + inside.length + 1) ::
          (inside ++ [Instruction.jump mark])).length =
            written.length + 1 + inside.length + 1 := by
        simp
        omega
      rw [opened, longer]
      congr 1
      funext behind
      rw [patched_choice]
      rfl
  | loop source offset body =>
      have inside opening := nodes_write_on mark owner (opening ++ [.iterate mark]) body
      simp only [Node.writeOn, Node.emitAt, then_map, inside, map_then, Expr.write_on,
        List.length_append, List.length_singleton]
      congr 1
      funext header
      congr 1
      funext behind
      rw [patched_loop]
      rfl

theorem nodes_write_on (mark : Nat) (owner : String) (written : List Instruction)
    (nodes : List Node) :
    writeAllOn mark owner written nodes =
      (emitAllAt owner written.length nodes).map (written ++ ·) := by
  cases nodes with
  | nil => exact congrArg Except.ok (List.append_nil written).symm
  | cons node rest =>
      have first := node_write_on mark owner written node
      have others longer := nodes_write_on mark owner longer rest
      simp only [writeAllOn, emitAllAt, first, others, map_then, then_map, List.length_append]
      congr 1
      funext code
      congr 1
      funext behind
      exact List.append_assoc written code behind

end

theorem owned_write_on (mark : Nat) (written : List Instruction) (nodes : List OwnedNode) :
    writeOwnedOn mark written nodes =
      (emitOwnedAt written.length nodes).map (written ++ ·) := by
  induction nodes generalizing written with
  | nil => exact congrArg Except.ok (List.append_nil written).symm
  | cons owned rest later =>
      simp only [writeOwnedOn, emitOwnedAt, node_write_on, later, map_then, then_map,
        List.length_append]
      congr 1
      funext code
      congr 1
      funext behind
      exact List.append_assoc written code behind

end Instructions

/-- The marks that stand for targets while code is written are all gone at its end: whatever
they are, what is written is the code that is placed by its lengths. -/
theorem Template.write_generates (template : Template) (mark : Nat) (now : Instant) :
    template.write mark now = template.generate now := by
  rw [write, generate, owned_write_on]
  cases emitOwnedAt ([] : List Instruction).length template.resolve <;> rfl

end Letterpress
