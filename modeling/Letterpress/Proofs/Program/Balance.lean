import Mathlib.Logic.Relation
import Letterpress.Proofs.Expr.Lowering
import Letterpress.Proofs.Program.RoundTrip

/-!
The stack of lowered code, by its height alone. A path takes either way at each jump, whatever
the values are, so there are more paths than runs; still every operation on one finds its
operands, and one value is left where the code ends. Runs are paths: a step moves as its
operation does, and lacks operands only where the stack is too low.
-/

namespace Letterpress

namespace Op

/-- How many values an operation takes from the stack, or looks at. -/
def operands : Op → Nat
  | .push _ => 0
  | .load _ => 0
  | .member => 2
  | .neg => 1
  | .not => 1
  | .binary _ => 2
  | .jumpIfFalsy _ => 1
  | .jumpIfTruthy _ => 1

/-- Where control may go from an address, and how high the stack is there. An operation leaves
one value for its operands; a jump keeps its operand or drops it. -/
inductive Moves (op : Op) (address height : Nat) : Nat → Nat → Prop
  | leaves (straight : op.target? = none) :
      Moves op address height (address + 1) (height - op.operands + 1)
  | keeps {target : Nat} (jumps : op.target? = some target) : Moves op address height target height
  | drops {target : Nat} (jumps : op.target? = some target) :
      Moves op address height (address + 1) (height - 1)

variable {op : Op} {scope : Scope} {address next : Nat} {stack rest : List Value}

theorem moves_of_step (stepped : Code.step scope op address stack = .ok (next, rest)) :
    op.Moves address stack.length next rest.length := by
  unfold Code.step at stepped
  split at stepped
  · cases stepped
    exact .leaves rfl
  · cases stepped
    exact .leaves rfl
  · cases stepped
    exact .leaves rfl
  · split at stepped <;> cases stepped
    exact .leaves rfl
  · cases stepped
    exact .leaves rfl
  · split at stepped <;> cases stepped
    exact .leaves rfl
  · split at stepped <;> cases stepped
    · exact .drops rfl
    · exact .keeps rfl
  · split at stepped <;> cases stepped
    · exact .keeps rfl
    · exact .drops rfl
  · cases stepped

/-- A step that has its operands may fail on what they are, but not for want of them. -/
theorem not_underflow (found : op.operands ≤ stack.length) :
    Code.step scope op address stack ≠ .error .underflow := by
  intro stuck
  unfold Code.step at stuck
  split at stuck
  · cases stuck
  · cases stuck
  · cases stuck
  · split at stuck <;> cases stuck
  · cases stuck
  · split at stuck <;> cases stuck
  · split at stuck <;> cases stuck
  · split at stuck <;> cases stuck
  · next no_push no_load no_member no_neg no_not no_binary no_falsy no_truthy =>
      match op, stack, found with
      | .push value, _, _ => exact no_push value rfl
      | .load name, _, _ => exact no_load name rfl
      | .member, key :: base :: rest, _ => exact no_member key base rest rfl rfl
      | .neg, operand :: rest, _ => exact no_neg operand rest rfl rfl
      | .not, operand :: rest, _ => exact no_not operand rest rfl rfl
      | .binary operator, right :: left :: rest, _ =>
          exact no_binary operator right left rest rfl rfl
      | .jumpIfFalsy target, top :: rest, _ => exact no_falsy target top rest rfl rfl
      | .jumpIfTruthy target, top :: rest, _ => exact no_truthy target top rest rfl rfl

end Op

namespace Code

def Goes (code : Code) (here there : Nat × Nat) : Prop :=
  ∃ op, code[here.1]? = some op ∧ op.Moves here.1 here.2 there.1 there.2

def Steps (scope : Scope) (code : Code) (here there : Nat × List Value) : Prop :=
  ∃ op, code[here.1]? = some op ∧ step scope op here.1 here.2 = .ok there

/-- Whatever way is taken from here, all operations find their operands, and one value is left
at the end. -/
inductive Safe (code : Code) : Nat → Nat → Prop
  | ended : Safe code code.length 1
  | goesOn {address height : Nat} {op : Op} (stands : code[address]? = some op)
      (found : op.operands ≤ height)
      (further : ∀ next left, op.Moves address height next left → Safe code next left) :
      Safe code address height

/-- Jumps of code that is placed at `start` go forward, and to its end at most. -/
def Forward (start : Nat) (code : Code) : Prop :=
  ∀ address op target, code[address]? = some op → op.target? = some target →
    start + address < target ∧ target ≤ start + code.length

/-- Code that no way through makes underflow or leave more or less than one value. -/
structure Balanced (code : Code) : Prop where
  forward : ∀ address op target, code[address]? = some op → op.target? = some target →
    address < target ∧ target ≤ code.length
  paths : ∀ address height, Relation.ReflTransGen code.Goes (0, 0) (address, height) →
    (∃ op, code[address]? = some op ∧ op.operands ≤ height) ∨
      address = code.length ∧ height = 1
  runs : ∀ scope address stack, Relation.ReflTransGen (code.Steps scope) (0, []) (address, stack) →
    (∃ op, code[address]? = some op ∧ step scope op address stack ≠ .error .underflow) ∨
      address = code.length ∧ ∃ value, stack = [value]

section Safe

variable {code : Code} {op : Op} {address height : Nat}

theorem safe_straight (stands : code[address]? = some op) (straight : op.target? = none)
    (found : op.operands ≤ height) (behind : code.Safe (address + 1) (height - op.operands + 1)) :
    code.Safe address height := by
  apply Safe.goesOn stands found
  intro next left moves
  cases moves with
  | leaves => exact behind
  | keeps jumps => cases straight.symm.trans jumps
  | drops jumps => cases straight.symm.trans jumps

theorem safe_branch {target : Nat} (stands : code[address]? = some op)
    (jumps : op.target? = some target) (found : op.operands ≤ height)
    (there : code.Safe target height) (behind : code.Safe (address + 1) (height - 1)) :
    code.Safe address height := by
  apply Safe.goesOn stands found
  intro next left moves
  cases moves with
  | leaves straight => cases straight.symm.trans jumps
  | keeps other =>
      cases jumps.symm.trans other
      exact there
  | drops => exact behind

theorem Safe.here (safe : code.Safe address height) :
    (∃ op, code[address]? = some op ∧ op.operands ≤ height) ∨
      address = code.length ∧ height = 1 := by
  cases safe with
  | ended => exact .inr ⟨rfl, rfl⟩
  | goesOn stands found further => exact .inl ⟨_, stands, found⟩

theorem Safe.moved {next left : Nat} (safe : code.Safe address height)
    (stands : code[address]? = some op) (moves : op.Moves address height next left) :
    code.Safe next left := by
  cases safe with
  | ended => simp at stands
  | goesOn same found further =>
      cases same.symm.trans stands
      exact further next left moves

theorem Safe.along {here there : Nat × Nat} (safe : code.Safe here.1 here.2)
    (path : Relation.ReflTransGen code.Goes here there) : code.Safe there.1 there.2 := by
  induction path with
  | refl => exact safe
  | tail before move still =>
      obtain ⟨op, stands, moves⟩ := move
      exact still.moved stands moves

theorem path_of_run {scope : Scope} {here there : Nat × List Value}
    (run : Relation.ReflTransGen (code.Steps scope) here there) :
    Relation.ReflTransGen code.Goes (here.1, here.2.length) (there.1, there.2.length) := by
  apply run.lift fun state => (state.1, state.2.length)
  rintro before ⟨next, stack⟩ ⟨op, stands, stepped⟩
  exact ⟨op, stands, Op.moves_of_step stepped⟩

end Safe

section Forward

variable {start : Nat} {front back : Code} {op : Op}

theorem forward_nil : Forward start [] := nofun

theorem forward_cons (here : ∀ target ∈ op.target?, start < target ∧
      target ≤ start + 1 + back.length) (behind : Forward (start + 1) back) :
    Forward start (op :: back) := by
  intro address other target stands jumps
  rw [List.length_cons]
  cases address with
  | zero =>
      rw [List.getElem?_cons_zero, Option.some.injEq] at stands
      have within := here target (stands ▸ jumps)
      omega
  | succ address =>
      have within := behind address other target stands jumps
      omega

theorem forward_append (first : Forward start front)
    (second : Forward (start + front.length) back) : Forward start (front ++ back) := by
  intro address other target stands jumps
  rw [List.length_append]
  rcases Nat.lt_or_ge address front.length with before | behind
  · rw [List.getElem?_append_left before] at stands
    have within := first address other target stands jumps
    omega
  · rw [List.getElem?_append_right behind] at stands
    have within := second _ other target stands jumps
    omega

end Forward

end Code

namespace Expr

/-- Where an operand is expected, its code may stand: it adds its value, and goes on. -/
def LeavesOne (expression : Expr) : Prop :=
  ∀ (code : Code) (start height : Nat), Placed code start (expression.lowerAt start) →
    code.Safe (start + (expression.lowerAt start).length) (height + 1) → code.Safe start height

section Operators

variable {left right whole : Expr} {op : Op}

theorem leaves_one_leaf (lowered : ∀ start, whole.lowerAt start = [op])
    (straight : op.target? = none) (free : op.operands = 0) : whole.LeavesOne := by
  intro code start height placed behind
  rw [lowered] at placed behind
  apply Code.safe_straight (placed_head placed) straight (by omega)
  rwa [free]

theorem leaves_one_unary (lowered : ∀ start, whole.lowerAt start = left.lowerAt start ++ [op])
    (straight : op.target? = none) (takes : op.operands = 1) (inside : left.LeavesOne) :
    whole.LeavesOne := by
  intro code start height placed behind
  rw [lowered] at placed behind
  rw [List.length_append, ← Nat.add_assoc] at behind
  apply inside code start height (placed_front placed)
  apply Code.safe_straight (placed_head (placed_back placed)) straight (by omega)
  rwa [takes]

theorem leaves_one_binary (lowered : ∀ start, whole.lowerAt start =
      left.lowerAt start ++ right.lowerAt (start + (left.lowerAt start).length) ++ [op])
    (straight : op.target? = none) (takes : op.operands = 2) (in_left : left.LeavesOne)
    (in_right : right.LeavesOne) : whole.LeavesOne := by
  intro code start height placed behind
  rw [lowered] at placed behind
  have operands := placed_front placed
  have last := placed_head (placed_back placed)
  rw [List.length_append, ← Nat.add_assoc] at last
  rw [List.length_append, List.length_append, ← Nat.add_assoc, ← Nat.add_assoc] at behind
  apply in_left code start height (placed_front operands)
  apply in_right code _ (height + 1) (placed_back operands)
  apply Code.safe_straight last straight (by omega)
  rwa [takes]

/-- The left operand is kept where the jump goes, and dropped before the right one. -/
theorem leaves_one_choice (jump : Nat → Op) (lowered : ∀ start, whole.lowerAt start =
      left.lowerAt start ++
        jump (start + (left.lowerAt start).length + 1 +
          (right.lowerAt (start + (left.lowerAt start).length + 1)).length) ::
        right.lowerAt (start + (left.lowerAt start).length + 1))
    (jumps : ∀ target, (jump target).target? = some target)
    (takes : ∀ target, (jump target).operands = 1) (in_left : left.LeavesOne)
    (in_right : right.LeavesOne) : whole.LeavesOne := by
  intro code start height placed behind
  have stop : start + (whole.lowerAt start).length =
      start + (left.lowerAt start).length + 1 +
        (right.lowerAt (start + (left.lowerAt start).length + 1)).length := by
    rw [lowered, List.length_append, List.length_cons]
    omega
  rw [stop] at behind
  rw [lowered] at placed
  apply in_left code start height (placed_front placed)
  apply Code.safe_branch (placed_head (placed_back placed)) (jumps _) _ behind
  · exact in_right code _ height (placed_tail (placed_back placed)) behind
  · rw [takes]
    exact Nat.le_add_left 1 height

end Operators

theorem leaves_one (expression : Expr) : expression.LeavesOne := by
  induction expression with
  | literal value => exact leaves_one_leaf (fun _ => rfl) rfl rfl
  | var name => exact leaves_one_leaf (fun _ => rfl) rfl rfl
  | neg operand inside => exact leaves_one_unary (fun _ => rfl) rfl rfl inside
  | not operand inside => exact leaves_one_unary (fun _ => rfl) rfl rfl inside
  | member base key in_base in_key =>
      exact leaves_one_binary (fun _ => rfl) rfl rfl in_base in_key
  | binary operator left right in_left in_right =>
      exact leaves_one_binary (fun _ => rfl) rfl rfl in_left in_right
  | and left right in_left in_right =>
      exact leaves_one_choice .jumpIfFalsy (fun _ => rfl) (fun _ => rfl) (fun _ => rfl) in_left
        in_right
  | or left right in_left in_right =>
      exact leaves_one_choice .jumpIfTruthy (fun _ => rfl) (fun _ => rfl) (fun _ => rfl) in_left
        in_right

theorem lowered_forward (expression : Expr) (start : Nat) :
    (expression.lowerAt start).Forward start := by
  induction expression generalizing start with
  | literal value => exact Code.forward_cons nofun Code.forward_nil
  | var name => exact Code.forward_cons nofun Code.forward_nil
  | neg operand inside | not operand inside =>
      exact Code.forward_append (inside start) (Code.forward_cons nofun Code.forward_nil)
  | member left right in_left in_right
  | binary operator left right in_left in_right =>
      apply Code.forward_append (Code.forward_append (in_left start) (in_right _))
      exact Code.forward_cons nofun Code.forward_nil
  | and left right in_left in_right
  | or left right in_left in_right =>
      apply Code.forward_append (in_left start)
      apply Code.forward_cons _ (in_right _)
      rintro target jumps
      cases jumps
      omega

theorem lowered_balanced (expression : Expr) : expression.lower.Balanced := by
  have safe : expression.lower.Safe 0 0 := by
    apply expression.leaves_one expression.lower 0 0 placed_whole
    rw [Nat.zero_add]
    exact Code.Safe.ended
  constructor
  · intro address op target stands jumps
    have within := expression.lowered_forward 0 address op target stands jumps
    rwa [Nat.zero_add, Nat.zero_add] at within
  · intro address height path
    exact (safe.along path).here
  · intro scope address stack run
    rcases (safe.along (Code.path_of_run run)).here with ⟨op, stands, found⟩ | ⟨ended, one⟩
    · exact .inl ⟨op, stands, Op.not_underflow found⟩
    · exact .inr ⟨ended, List.length_eq_one_iff.mp one⟩

end Expr

end Letterpress
