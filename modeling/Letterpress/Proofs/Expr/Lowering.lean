import Letterpress.Expr.Code

/-!
Lowered code computes what its expression means. The meaning is a recursion over the
tree that knows nothing of addresses, stacks or jumps. Jump targets are absolute, so
everything is said of code that stands at some address inside longer code, with any
stack below: then the operands of an operator are cases of the same statement.
-/

namespace Letterpress

section Placement

variable {Item : Type} {whole front back rest : List Item} {first : Item} {start : Nat}

/-- A stretch of code stands at an address of longer code. -/
def Placed (whole : List Item) (start : Nat) (stretch : List Item) : Prop :=
  stretch <+: whole.drop start

theorem placed_whole : Placed whole 0 whole := List.prefix_rfl

theorem placed_front (placed : Placed whole start (front ++ back)) : Placed whole start front :=
  (List.prefix_append front back).trans placed

theorem placed_back (placed : Placed whole start (front ++ back)) :
    Placed whole (start + front.length) back := by
  have whole_behind := List.prefix_iff_eq_append.mp placed
  rw [Placed, ← List.drop_drop, ← whole_behind, List.append_assoc, List.drop_left]
  exact List.prefix_append back _

theorem placed_head (placed : Placed whole start (first :: rest)) :
    whole[start]? = some first := by
  obtain ⟨after, split⟩ := placed
  have fetched : (whole.drop start)[0]? = some first := by simp [← split]
  simpa using fetched

theorem placed_tail (placed : Placed whole start (first :: rest)) :
    Placed whole (start + 1) rest :=
  have behind : Placed whole start ([first] ++ rest) := placed
  placed_back behind

end Placement

/-- The value of an expression where names have the given meanings. Operands are
evaluated from left to right, and the right one of `and` and `or` only if the left one
does not decide. -/
def Expr.evaluate (meaning : String → Value) : Expr → Except OperandError Value
  | .literal value => .ok value
  | .var name => .ok (meaning name)
  | .member base key => do
      let base ← base.evaluate meaning
      let key ← key.evaluate meaning
      return base.member key
  | .neg operand => do
      let operand ← operand.evaluate meaning
      operand.negate
  | .not operand => do
      let operand ← operand.evaluate meaning
      return .bool (!operand.isTruthy)
  | .binary operator left right => do
      let left ← left.evaluate meaning
      let right ← right.evaluate meaning
      Value.applyBinary operator left right
  | .and left right => do
      let left ← left.evaluate meaning
      if left.isTruthy then right.evaluate meaning else return left
  | .or left right => do
      let left ← left.evaluate meaning
      if left.isTruthy then return left else right.evaluate meaning

def Code.goOn (scope : Scope) (code : Code) (stop : Nat) (stack : List Value) :
    Except OperandError Value → Option (Except CodeError Value)
  | .ok value => Code.run scope code stop (value :: stack)
  | .error error => some (.error (.operand error))

variable {scope : Scope} {code : Code}

theorem run_at_op {op : Op} {address : Nat} {stack : List Value}
    (fetched : code[address]? = some op) :
    Code.run scope code address stack =
      match Code.step scope op address stack with
      | .error error => some (.error error)
      | .ok (next, stack) => Code.run scope code next stack := by
  have opened := Code.run.eq_1 scope code address stack
  rw [fetched] at opened
  exact opened

theorem run_at_end {address : Nat} {stack : List Value} (past : code[address]? = none) :
    Code.run scope code address stack = some (Code.finish stack) := by
  rw [Code.run, past]

/-- Wherever the code of an expression stands, running it goes on with the value. -/
def Expr.Runs (scope : Scope) (code : Code) (expression : Expr) : Prop :=
  ∀ start stack, Placed code start (expression.lowerAt start) →
    Code.run scope code start stack =
      Code.goOn scope code (start + (expression.lowerAt start).length) stack
        (expression.evaluate scope.lookup)

def Code.put (address : Nat) (stack : List Value) :
    Except OperandError Value → Except CodeError (Nat × List Value)
  | .ok result => .ok (address + 1, result :: stack)
  | .error error => .error (.operand error)

theorem run_put {op : Op} {address : Nat} {operands stack : List Value}
    {outcome : Except OperandError Value} (fetched : code[address]? = some op)
    (puts : Code.step scope op address operands = Code.put address stack outcome) :
    Code.run scope code address operands = Code.goOn scope code (address + 1) stack outcome := by
  rw [run_at_op fetched, puts]
  cases outcome <;> rfl

section Operators

variable {left right whole : Expr} {op : Op}

theorem runs_unary (compute : Value → Except OperandError Value)
    (lowered : ∀ start, whole.lowerAt start = left.lowerAt start ++ [op])
    (means : whole.evaluate scope.lookup = left.evaluate scope.lookup >>= compute)
    (puts : ∀ address stack value,
      Code.step scope op address (value :: stack) = Code.put address stack (compute value))
    (left_runs : left.Runs scope code) : whole.Runs scope code := by
  intro start stack placed
  rw [lowered] at placed ⊢
  have last := placed_head (placed_back placed)
  rw [left_runs start stack (placed_front placed), means]
  cases left.evaluate scope.lookup with
  | error error => rfl
  | ok value =>
      rw [Code.goOn, run_put last (puts _ stack value), List.length_append, ← Nat.add_assoc]
      rfl

theorem runs_binary (compute : Value → Value → Except OperandError Value)
    (lowered : ∀ start, whole.lowerAt start =
      left.lowerAt start ++ right.lowerAt (start + (left.lowerAt start).length) ++ [op])
    (means : whole.evaluate scope.lookup = do
      let leftValue ← left.evaluate scope.lookup
      let rightValue ← right.evaluate scope.lookup
      compute leftValue rightValue)
    (puts : ∀ address stack leftValue rightValue,
      Code.step scope op address (rightValue :: leftValue :: stack) =
        Code.put address stack (compute leftValue rightValue))
    (left_runs : left.Runs scope code) (right_runs : right.Runs scope code) :
    whole.Runs scope code := by
  intro start stack placed
  rw [lowered] at placed ⊢
  have operands := placed_front placed
  have last := placed_head (placed_back placed)
  rw [left_runs start stack (placed_front operands), means]
  cases left.evaluate scope.lookup with
  | error error => rfl
  | ok leftValue =>
      rw [Code.goOn, right_runs _ _ (placed_back operands)]
      cases right.evaluate scope.lookup with
      | error error => rfl
      | ok rightValue =>
          rw [List.length_append, ← Nat.add_assoc] at last
          rw [Code.goOn, run_put last (puts _ stack leftValue rightValue), List.length_append,
            List.length_append, ← Nat.add_assoc, ← Nat.add_assoc]
          rfl

/-- The left operand decides, or the right one is the value. -/
theorem runs_choice (decides : Value → Bool) (jump : Nat → Op)
    (lowered : ∀ start, whole.lowerAt start =
      left.lowerAt start ++
        jump (start + (left.lowerAt start).length + 1 +
          (right.lowerAt (start + (left.lowerAt start).length + 1)).length) ::
        right.lowerAt (start + (left.lowerAt start).length + 1))
    (means : whole.evaluate scope.lookup = do
      let leftValue ← left.evaluate scope.lookup
      if decides leftValue then .ok leftValue else right.evaluate scope.lookup)
    (jumps : ∀ target address stack value,
      Code.step scope (jump target) address (value :: stack) =
        if decides value then .ok (target, value :: stack) else .ok (address + 1, stack))
    (left_runs : left.Runs scope code) (right_runs : right.Runs scope code) :
    whole.Runs scope code := by
  intro start stack placed
  have stop : start + (whole.lowerAt start).length =
      start + (left.lowerAt start).length + 1 +
        (right.lowerAt (start + (left.lowerAt start).length + 1)).length := by
    rw [lowered, List.length_append, List.length_cons]
    omega
  rw [stop]
  rw [lowered] at placed
  have fetched := placed_head (placed_back placed)
  have second := placed_tail (placed_back placed)
  rw [left_runs start stack (placed_front placed), means]
  cases left.evaluate scope.lookup with
  | error error => rfl
  | ok leftValue =>
      rw [Code.goOn, run_at_op fetched, jumps]
      change _ = Code.goOn scope code _ stack
        (if decides leftValue then .ok leftValue else right.evaluate scope.lookup)
      cases decides leftValue with
      | true => rfl
      | false => exact right_runs _ _ second

end Operators

/-- Every expression runs wherever it stands, by induction on the tree. -/
theorem lowered_runs (expression : Expr) : expression.Runs scope code := by
  induction expression with
  | literal value => exact fun start stack placed => run_put (placed_head placed) rfl
  | var name => exact fun start stack placed => run_put (placed_head placed) rfl
  | member base key base_runs key_runs =>
      apply runs_binary (fun base key => .ok (base.member key)) (fun _ => rfl) rfl _
        base_runs key_runs
      exact fun _ _ _ _ => rfl
  | neg operand operand_runs =>
      apply runs_unary Value.negate (fun _ => rfl) rfl _ operand_runs
      intro address stack value
      rw [Code.step]
      cases value.negate <;> rfl
  | not operand operand_runs =>
      apply runs_unary (fun value => .ok (.bool !value.isTruthy)) (fun _ => rfl) rfl _ operand_runs
      exact fun _ _ _ => rfl
  | binary operator left right left_runs right_runs =>
      apply runs_binary (Value.applyBinary operator) (fun _ => rfl) rfl _ left_runs right_runs
      intro address stack leftValue rightValue
      rw [Code.step]
      cases Value.applyBinary operator leftValue rightValue <;> rfl
  | and left right left_runs right_runs =>
      apply runs_choice (fun value => !value.isTruthy) .jumpIfFalsy (fun _ => rfl) _ _
        left_runs right_runs
      · rw [Expr.evaluate]
        congr 1
        funext leftValue
        cases leftValue.isTruthy <;> rfl
      · intro target address stack value
        rw [Code.step]
        cases value.isTruthy <;> rfl
  | or left right left_runs right_runs =>
      apply runs_choice Value.isTruthy .jumpIfTruthy (fun _ => rfl) rfl _ left_runs right_runs
      exact fun _ _ _ _ => rfl

/-- Lowered code ends, with the value or the first error of its expression. -/
theorem run_lowered (expression : Expr) (scope : Scope) :
    Code.run scope expression.lower 0 [] =
      some ((expression.evaluate scope.lookup).mapError .operand) := by
  have past : (expression.lowerAt 0)[0 + (expression.lowerAt 0).length]? = none := by simp
  rw [Expr.lower, lowered_runs expression 0 [] placed_whole]
  cases expression.evaluate scope.lookup with
  | error error => rfl
  | ok value => rw [Code.goOn, run_at_end past]; rfl

theorem eval_lowered (expression : Expr) (scope : Scope) :
    expression.lower.eval scope = (expression.evaluate scope.lookup).mapError .operand := by
  rw [Code.eval, run_lowered, Option.getD_some]

/-- Lowering an expression keeps its meaning: its code ends, and what comes out is the
value that the tree has or the first error that evaluating it from left to right meets.
Errors of malformed code never come out. -/
theorem lowered_code_computes_expression (expression : Expr) (scope : Scope) :
    (∃ outcome, Code.run scope expression.lower 0 [] = some outcome) ∧
      expression.lower.eval scope = (expression.evaluate scope.lookup).mapError .operand ∧
      ∀ error, expression.lower.eval scope = .error error →
        ∃ operandError, error = .operand operandError := by
  refine ⟨⟨_, run_lowered expression scope⟩, eval_lowered expression scope, ?_⟩
  intro error failed
  rw [eval_lowered] at failed
  cases evaluated : expression.evaluate scope.lookup with
  | ok value =>
      rw [evaluated] at failed
      cases failed
  | error operandError =>
      rw [evaluated] at failed
      injection failed with same
      exact ⟨operandError, same.symm⟩

end Letterpress
