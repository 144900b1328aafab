import Letterpress.Program.Execution
import Letterpress.Proofs.Expr.Lowering
import Letterpress.Proofs.Program.Generation

/-!
Running the program of a template shows what the template says. What it says is a walk
over the resolved nodes that knows no addresses, no loop frames and no stack of locals:
names mean what a function says, and a loop walks its body once for each round under
another such function. The walk needs no measure, the jumps back of the machine get
theirs from the rounds that are left.
-/

namespace Letterpress

/-- What names mean in the body of a loop. Of two variables of one name the second
counts, and variables without a value stay as they were. -/
def bindNames (meaning : String → Value) : List String → List Value → String → Value
  | name :: names, value :: values =>
      bindNames (fun other => if other = name then value else meaning other) names values
  | _, _ => meaning

def contextMeaning (context : Value) (name : String) : Value := (context.entry? name).getD .null

/-- What can stop a walk: a text that is no expression, or a value that does not fit. -/
inductive WalkError where
  | unreadable (owner : String) (error : SyntaxError) (offset : Nat)
  | operand (error : OperandError)
  | notIterable (found : String)

/-- Values that do not fit are blamed on the page, texts on the file that they stand in. -/
def WalkError.onPage (page : String) : WalkError → TemplateError
  | .unreadable owner error offset => .expression owner error offset
  | .operand error => .render page (.code (.operand error))
  | .notIterable found => .render page (.notIterable found)

def readExpression (owner source : String) (offset : Nat) : Except WalkError Expr :=
  (Expr.parse source).mapError fun error => .unreadable owner error offset

def readHeader (owner source : String) (offset : Nat) : Except WalkError LoopHeader :=
  (LoopHeader.parse source).mapError fun error => .unreadable owner error offset

def roundsOf (paired : Bool) (value : Value) : Except WalkError (List (List Value)) :=
  match value.rounds? paired with
  | some rounds => .ok rounds
  | none => .error (.notIterable value.typeName)

def walkRounds (walkRound : List Value → Except WalkError String) :
    List (List Value) → Except WalkError String
  | [] => .ok ""
  | values :: rounds => do
      let first ← walkRound values
      let others ← walkRounds walkRound rounds
      return first ++ others

mutual

def Node.walk (owner : String) (meaning : String → Value) : Node → Except WalkError String
  | .text content => .ok content
  | .output source offset => do
      let expression ← readExpression owner source offset
      let value ← (expression.evaluate meaning).mapError .operand
      return value.display
  | .block _ body => walkAll owner meaning body
  | .ifThen test offset yes => do
      let expression ← readExpression owner test offset
      let value ← (expression.evaluate meaning).mapError .operand
      if value.isTruthy then walkAll owner meaning yes else return ""
  | .ifElse test offset yes no => do
      let expression ← readExpression owner test offset
      let value ← (expression.evaluate meaning).mapError .operand
      if value.isTruthy then walkAll owner meaning yes else walkAll owner meaning no
  | .loop source offset body => do
      let header ← readHeader owner source offset
      let value ← (header.iterable.evaluate meaning).mapError .operand
      let rounds ← roundsOf (1 < header.names.length) value
      walkRounds (fun values => walkAll owner (bindNames meaning header.names values) body) rounds

def walkAll (owner : String) (meaning : String → Value) : List Node → Except WalkError String
  | [] => .ok ""
  | node :: rest => do
      let first ← node.walk owner meaning
      let others ← walkAll owner meaning rest
      return first ++ others

end

def walkOwned (meaning : String → Value) : List OwnedNode → Except WalkError String
  | [] => .ok ""
  | owned :: rest => do
      let first ← owned.node.walk owned.owner meaning
      let others ← walkOwned meaning rest
      return first ++ others

/-- The page of a template on a context, straight from its resolved nodes. -/
def Template.walk (template : Template) (context : Value) : Except WalkError String :=
  walkOwned (contextMeaning context) template.resolve

theorem lookup_push (scope : Scope) (name : String) (value : Value) :
    Scope.lookup { scope with locals := (name, value) :: scope.locals } =
      fun other => if other = name then value else scope.lookup other := by
  funext other
  by_cases same : other = name <;> simp [Scope.lookup, Scope.local?, same]

theorem lookup_bind (scope : Scope) (names : List String) (values : List Value) :
    (scope.bind names values).lookup = bindNames scope.lookup names values := by
  induction names generalizing scope values with
  | nil => rfl
  | cons name names bound =>
      cases values with
      | nil => rfl
      | cons value values =>
          have pushed := bound { scope with locals := (name, value) :: scope.locals } values
          rw [lookup_push] at pushed
          simpa [Scope.bind, bindNames] using pushed

theorem unbind_bind (scope : Scope) (names : List String) (values : List Value)
    (complete : values.length = names.length) :
    (scope.bind names values).unbind names.length = scope := by
  have size : (names.zip values).reverse.length = names.length := by simp [complete]
  simp only [Scope.bind, Scope.unbind]
  rw [List.drop_append_of_le_length (by omega), List.drop_of_length_le (by omega)]
  rfl

theorem rounds_width {value : Value} {paired : Bool} {rounds : List (List Value)}
    (found : value.rounds? paired = some rounds) :
    ∀ values ∈ rounds, values.length = if paired then 2 else 1 := by
  intro values member
  cases value with
  | null =>
      cases found
      cases member
  | list items =>
      cases found
      obtain ⟨pair, _, rfl⟩ := List.mem_map.mp member
      cases paired <;> rfl
  | map entries =>
      cases found
      obtain ⟨entry, _, rfl⟩ := List.mem_map.mp member
      cases paired <;> rfl
  | str text =>
      cases found
      obtain ⟨pair, _, rfl⟩ := List.mem_map.mp member
      cases paired <;> rfl
  | bool flag => cases found
  | int number => cases found
  | float number => cases found

theorem variable_count {input rest : List Expr.Lexeme} {names : List String}
    (read : LoopHeader.readVariables input = .ok (names, rest)) :
    names.length = 1 ∨ names.length = 2 := by
  simp only [LoopHeader.readVariables, bind, Except.bind, pure, Except.pure] at read
  split at read
  · cases read
  · split at read
    · split at read
      · cases read
      · cases read
        exact .inr rfl
    · cases read
      exact .inl rfl

theorem header_variable_count {source : String} {header : LoopHeader}
    (parsed : LoopHeader.parse source = .ok header) :
    header.names.length = 1 ∨ header.names.length = 2 := by
  obtain ⟨_, _, _, _, -, read, -, -⟩ := LoopHeader.parse_eq_ok parsed
  exact variable_count read

theorem round_is_complete {source : String} {header : LoopHeader} {value : Value}
    {rounds : List (List Value)} (parsed : LoopHeader.parse source = .ok header)
    (found : value.rounds? (1 < header.names.length) = some rounds) :
    ∀ values ∈ rounds, values.length = header.names.length := by
  intro values member
  have width := rounds_width found values member
  rcases header_variable_count parsed with one | two
  · simp [width, one]
  · simp [width, two]

theorem read_expression_of_code {owner source : String} {offset : Nat} {code : Code}
    (emitted : expressionCode owner source offset = .ok code) :
    ∃ expression, readExpression owner source offset = .ok expression ∧
      code = expression.lower := by
  obtain ⟨expression, parsed, lowered⟩ := expression_code_eq_ok emitted
  exact ⟨expression, mapError_eq_ok.mpr parsed, lowered⟩

theorem evaluate_lowered (machine : Machine) (expression : Expr) :
    machine.evaluate expression.lower =
      (expression.evaluate machine.scope.lookup).mapError fun error => .code (.operand error) := by
  rw [Machine.evaluate, eval_lowered]
  cases expression.evaluate machine.scope.lookup <;> rfl

def pageFrom (page : String) (instructions : List Instruction) (machine : Machine) :
    Option (Except TemplateError String) :=
  (Machine.run instructions machine).map fun outcome => outcome.mapError (.render page)

def goOnAt (page : String) (instructions : List Instruction) (machine : Machine) (stop : Nat) :
    Except WalkError String → Option (Except TemplateError String)
  | .ok text =>
      pageFrom page instructions
        { machine with address := stop, output := machine.output ++ text }
  | .error error => some (.error (error.onPage page))

section Stretches

variable {page owner : String} {instructions : List Instruction} {machine : Machine}

theorem page_from_instruction {instruction : Instruction}
    (fetched : instructions[machine.address]? = some instruction) :
    pageFrom page instructions machine =
      match machine.step instruction with
      | .error problem => some (.error (.render page problem))
      | .ok next => pageFrom page instructions next := by
  rw [pageFrom, Machine.run, fetched]
  dsimp only
  cases machine.step instruction <;> rfl

theorem page_from_end (past : instructions[machine.address]? = none) :
    pageFrom page instructions machine = some (.ok machine.output) := by
  rw [pageFrom, Machine.run, past]
  rfl

theorem go_on_after_text (first : String) (others : Except WalkError String)
    (middle stop : Nat) :
    goOnAt page instructions
        { machine with address := middle, output := machine.output ++ first } stop others =
      goOnAt page instructions machine stop (do return first ++ (← others)) := by
  cases others with
  | error error => rfl
  | ok text =>
      simp only [goOnAt, bind, Except.bind, pure, Except.pure, String.append_assoc]

theorem go_on_from_anywhere (address stop : Nat) (outcome : Except WalkError String) :
    goOnAt page instructions { machine with address } stop outcome =
      goOnAt page instructions machine stop outcome := by
  cases outcome <;> rfl

/-- A machine about to start a round, or to leave the loop if none is left. -/
def inLoop (machine : Machine) (address : Nat) (scope : Scope) (frame : LoopFrame) : Machine :=
  { machine with address, scope, loops := frame :: machine.loops }

/-- The rounds of a loop, from its iteration on. Variables of the round before, if there
was one, are still bound on top of the loop's own scope. -/
theorem page_from_rounds {names : List String} {inner : List Instruction} {start : Nat}
    (walkBody : (String → Value) → Except WalkError String)
    (placed : Placed instructions start
      (.iterate (start + 1 + inner.length + 1) :: (inner ++ [.jump start])))
    (bodyRuns : ∀ machine : Machine, machine.address = start + 1 →
      pageFrom page instructions machine =
        goOnAt page instructions machine (start + 1 + inner.length)
          (walkBody machine.scope.lookup))
    (rounds : List (List Value))
    (complete : ∀ values ∈ rounds, values.length = names.length)
    (machine : Machine) (scope : Scope) (bound : Bool)
    (outside : (if bound then scope.unbind names.length else scope) = machine.scope) :
    pageFrom page instructions (inLoop machine start scope ⟨names, rounds, bound⟩) =
      goOnAt page instructions machine (start + 1 + inner.length + 1)
        (walkRounds (fun values => walkBody (bindNames machine.scope.lookup names values))
          rounds) := by
  have iterates := placed_head placed
  have jumps := placed_head (placed_back (placed_tail placed))
  induction rounds generalizing machine scope bound with
  | nil =>
      rw [page_from_instruction iterates]
      simp only [Machine.step, Machine.iterate, inLoop, outside, walkRounds, goOnAt,
        String.append_empty]
  | cons values rounds roundsRun =>
      have width := complete values (by simp)
      rw [page_from_instruction iterates]
      simp only [Machine.step, Machine.iterate, inLoop, outside]
      rw [bodyRuns _ rfl, lookup_bind, walkRounds]
      cases walkBody (bindNames machine.scope.lookup names values) with
      | error error => rfl
      | ok text =>
          rw [goOnAt, page_from_instruction jumps]
          simp only [Machine.step, Machine.goTo]
          have further := roundsRun (fun values member => complete values (by simp [member]))
            { machine with output := machine.output ++ text } (machine.scope.bind names values)
            true (unbind_bind machine.scope names values width)
          exact further.trans (go_on_after_text text _ machine.address _)

def Node.Runs (page : String) (instructions : List Instruction) (owner : String)
    (node : Node) : Prop :=
  ∀ {code : List Instruction} (machine : Machine),
    node.emitAt owner machine.address = .ok code → Placed instructions machine.address code →
      pageFrom page instructions machine =
        goOnAt page instructions machine (machine.address + code.length)
          (node.walk owner machine.scope.lookup)

def NodesRun (page : String) (instructions : List Instruction) (owner : String)
    (nodes : List Node) : Prop :=
  ∀ {code : List Instruction} (machine : Machine),
    emitAllAt owner machine.address nodes = .ok code → Placed instructions machine.address code →
      pageFrom page instructions machine =
        goOnAt page instructions machine (machine.address + code.length)
          (walkAll owner machine.scope.lookup nodes)

theorem text_runs (content : String) : (Node.text content).Runs page instructions owner := by
  intro code machine emitted placed
  cases emitted
  rw [page_from_instruction (placed_head placed)]
  rfl

theorem output_runs (source : String) (offset : Nat) :
    (Node.output source offset).Runs page instructions owner := by
  intro code machine emitted placed
  simp only [Node.emitAt, bind_eq_ok] at emitted
  obtain ⟨_, coded, same⟩ := emitted
  obtain ⟨expression, read, rfl⟩ := read_expression_of_code coded
  cases same
  rw [page_from_instruction (placed_head placed), Machine.step, evaluate_lowered, Node.walk, read]
  simp only [bind, Except.bind]
  cases expression.evaluate machine.scope.lookup <;> rfl

/-- A test ends with its error, or control goes on behind it or at its target. -/
theorem page_from_test {expression : Expr} {target : Nat}
    (fetched : instructions[machine.address]? = some (.jumpIfFalse expression.lower target)) :
    pageFrom page instructions machine =
      match expression.evaluate machine.scope.lookup with
      | .error error => some (.error (.render page (.code (.operand error))))
      | .ok value =>
          pageFrom page instructions
            (if value.isTruthy then machine.next else machine.goTo target) := by
  rw [page_from_instruction fetched, Machine.step, evaluate_lowered]
  cases expression.evaluate machine.scope.lookup <;> rfl

theorem if_then_runs (test : String) (offset : Nat) {yes : List Node}
    (yes_run : NodesRun page instructions owner yes) :
    (Node.ifThen test offset yes).Runs page instructions owner := by
  intro code machine emitted placed
  simp only [Node.emitAt, bind_eq_ok] at emitted
  obtain ⟨_, coded, first, firstEmitted, same⟩ := emitted
  obtain ⟨expression, read, rfl⟩ := read_expression_of_code coded
  cases same
  have yesRuns := yes_run machine.next firstEmitted (placed_tail placed)
  have stop : machine.address +
      (.jumpIfFalse expression.lower (machine.address + 1 + first.length) :: first).length =
        machine.address + 1 + first.length := by
    rw [List.length_cons]
    omega
  rw [page_from_test (placed_head placed), Node.walk, read, stop]
  simp only [bind, Except.bind]
  cases expression.evaluate machine.scope.lookup with
  | error error => rfl
  | ok value =>
      simp only [mapError_ok, pure, Except.pure]
      cases value.isTruthy with
      | true => exact yesRuns.trans (go_on_from_anywhere _ _ _)
      | false => simp [goOnAt, Machine.goTo]

theorem if_else_runs (test : String) (offset : Nat) {yes no : List Node}
    (yes_run : NodesRun page instructions owner yes)
    (no_run : NodesRun page instructions owner no) :
    (Node.ifElse test offset yes no).Runs page instructions owner := by
  intro code machine emitted placed
  simp only [Node.emitAt, bind_eq_ok] at emitted
  obtain ⟨_, coded, first, firstEmitted, second, secondEmitted, same⟩ := emitted
  obtain ⟨expression, read, rfl⟩ := read_expression_of_code coded
  cases same
  have branches := placed_tail placed
  have jumps := placed_head (placed_back branches)
  have yesRuns := yes_run machine.next firstEmitted (placed_front branches)
  have noRuns := no_run (machine.goTo (machine.address + 1 + first.length + 1)) secondEmitted
    (placed_tail (placed_back branches))
  have stop : machine.address +
      (.jumpIfFalse expression.lower (machine.address + 1 + first.length + 1) ::
        (first ++ .jump (machine.address + 1 + first.length + 1 + second.length) ::
          second)).length =
        machine.address + 1 + first.length + 1 + second.length := by
    simp only [List.length_cons, List.length_append]
    omega
  rw [page_from_test (placed_head placed), Node.walk, read, stop]
  simp only [bind, Except.bind]
  cases expression.evaluate machine.scope.lookup with
  | error error => rfl
  | ok value =>
      simp only [mapError_ok]
      cases value.isTruthy with
      | false => exact noRuns.trans (go_on_from_anywhere _ _ _)
      | true =>
          simp only [if_true]
          rw [yesRuns]
          simp only [Machine.next]
          cases walkAll owner machine.scope.lookup yes with
          | error error => rfl
          | ok text =>
              rw [goOnAt, page_from_instruction jumps]
              rfl

theorem loop_runs (source : String) (offset : Nat) {body : List Node}
    (body_run : NodesRun page instructions owner body) :
    (Node.loop source offset body).Runs page instructions owner := by
  intro code machine emitted placed
  simp only [Node.emitAt, bind_eq_ok] at emitted
  obtain ⟨header, read, inner, innerEmitted, same⟩ := emitted
  cases same
  have parsed := mapError_eq_ok.mp read
  have stop : machine.address +
      (.loopStart header.names header.iterable.lower ::
        .iterate (machine.address + 2 + inner.length + 1) ::
          (inner ++ [.jump (machine.address + 1)])).length =
        machine.address + 1 + 1 + inner.length + 1 := by
    simp only [List.length_cons, List.length_append, List.length_nil]
    omega
  have bodyRuns (inside : Machine) (there : inside.address = machine.address + 1 + 1) :
      pageFrom page instructions inside =
        goOnAt page instructions inside (machine.address + 1 + 1 + inner.length)
          (walkAll owner inside.scope.lookup body) := by
    have innerPlaced := placed_front (placed_tail (placed_tail placed))
    rw [← there] at innerPlaced ⊢
    exact body_run inside (there ▸ innerEmitted) innerPlaced
  rw [page_from_instruction (placed_head placed), Machine.step, evaluate_lowered, Node.walk,
    readHeader, mapError_eq_ok.mpr parsed]
  simp only [bind, Except.bind]
  cases header.iterable.evaluate machine.scope.lookup with
  | error error => rfl
  | ok value =>
      simp only [mapError_ok, pure, Except.pure, roundsOf]
      cases found : value.rounds? (1 < header.names.length) with
      | none => rfl
      | some rounds =>
          rw [stop]
          exact page_from_rounds (fun meaning => walkAll owner meaning body)
            (placed_tail placed) bodyRuns rounds (round_is_complete parsed found) machine
            machine.scope false rfl

theorem no_nodes_run : NodesRun page instructions owner [] := by
  intro code machine emitted placed
  cases emitted
  simp [goOnAt, walkAll]

theorem more_nodes_run {node : Node} {rest : List Node}
    (node_runs : node.Runs page instructions owner)
    (rest_run : NodesRun page instructions owner rest) :
    NodesRun page instructions owner (node :: rest) := by
  intro code machine emitted placed
  simp only [emitAllAt, bind_eq_ok] at emitted
  obtain ⟨first, firstEmitted, others, othersEmitted, same⟩ := emitted
  cases same
  rw [node_runs machine firstEmitted (placed_front placed), walkAll]
  cases node.walk owner machine.scope.lookup with
  | error error => rfl
  | ok text =>
      rw [goOnAt, List.length_append, ← Nat.add_assoc]
      have restRuns := rest_run
        { machine with
          address := machine.address + first.length
          output := machine.output ++ text }
        othersEmitted (placed_back placed)
      exact restRuns.trans (go_on_after_text text _ _ _)

mutual

/-- Every node runs wherever it stands, by induction on the tree. -/
theorem node_runs (node : Node) : node.Runs page instructions owner := by
  cases node with
  | text content => exact text_runs content
  | output source offset => exact output_runs source offset
  | block name body =>
      intro code machine emitted placed
      rw [Node.emitAt] at emitted
      rw [Node.walk]
      exact nodes_run body machine emitted placed
  | ifThen test offset yes => exact if_then_runs test offset (nodes_run yes)
  | ifElse test offset yes no => exact if_else_runs test offset (nodes_run yes) (nodes_run no)
  | loop source offset body => exact loop_runs source offset (nodes_run body)

theorem nodes_run (nodes : List Node) : NodesRun page instructions owner nodes := by
  cases nodes with
  | nil => exact no_nodes_run
  | cons node rest => exact more_nodes_run (node_runs node) (nodes_run rest)

end

theorem page_from_owned (nodes : List OwnedNode) {code : List Instruction} (machine : Machine)
    (emitted : emitOwnedAt machine.address nodes = .ok code)
    (placed : Placed instructions machine.address code) :
    pageFrom page instructions machine =
      goOnAt page instructions machine (machine.address + code.length)
        (walkOwned machine.scope.lookup nodes) := by
  induction nodes generalizing machine code with
  | nil =>
      cases emitted
      simp [goOnAt, walkOwned]
  | cons owned rest restRuns =>
      simp only [emitOwnedAt, bind_eq_ok] at emitted
      obtain ⟨first, firstEmitted, others, othersEmitted, same⟩ := emitted
      cases same
      rw [node_runs owned.node machine firstEmitted (placed_front placed), walkOwned]
      cases owned.node.walk owned.owner machine.scope.lookup with
      | error error => rfl
      | ok text =>
          rw [goOnAt, List.length_append, ← Nat.add_assoc]
          have others := restRuns
            { machine with
              address := machine.address + first.length
              output := machine.output ++ text }
            othersEmitted (placed_back placed)
          exact others.trans (go_on_after_text text _ _ _)

end Stretches

theorem page_of_generated {template : Template} {now : Instant} {program : Program}
    (generated : template.generate now = .ok program) (context : Value) :
    pageFrom template.page.name program.instructions (.start context) =
      some ((template.walk context).mapError (WalkError.onPage template.page.name)) := by
  obtain ⟨-, -, -, emitted⟩ := generate_eq_ok generated
  have past : program.instructions[0 + program.instructions.length]? = none := by simp
  rw [page_from_owned template.resolve (.start context) emitted placed_whole, Template.walk]
  change goOnAt _ _ (.start context) (0 + program.instructions.length)
    (walkOwned (contextMeaning context) template.resolve) = _
  cases walkOwned (contextMeaning context) template.resolve with
  | error error => rfl
  | ok text =>
      rw [goOnAt, page_from_end past]
      simp [Machine.start, mapError_ok]

/-- Generated programs end on every context, with the page or the error of the walk. All
that they can fail on is a value that does not fit an operator or a loop. -/
theorem generated_program_shows_template {template : Template} {now : Instant}
    {program : Program} (generated : template.generate now = .ok program) (context : Value) :
    program.execute context =
        (template.walk context).mapError (WalkError.onPage template.page.name) ∧
      ∃ outcome, Machine.run program.instructions (.start context) = some outcome ∧
        ∀ problem, outcome = .error problem →
          (∃ error, problem = .code (.operand error)) ∨
            ∃ found, problem = .notIterable found := by
  have page := page_of_generated generated context
  have named := (generate_eq_ok generated).1
  obtain ⟨outcome, ran, shown⟩ := Option.map_eq_some_iff.mp page
  refine ⟨?_, outcome, ran, ?_⟩
  · rw [Program.execute, ran, named]
    exact shown
  · rintro problem rfl
    cases walked : template.walk context with
    | ok text => rw [walked] at shown; cases shown
    | error error =>
        rw [walked] at shown
        cases error with
        | unreadable owner error offset => cases shown
        | operand error => cases shown; exact .inl ⟨error, rfl⟩
        | notIterable found => cases shown; exact .inr ⟨found, rfl⟩

/-- The value that a program shows, if it shows a literal and nothing else. -/
def Program.literal? (program : Program) : Option Value :=
  match program.instructions with
  | [.emit [.push value]] => some value
  | _ => none

theorem Program.instructions_of_literal {program : Program} {value : Value}
    (shows : program.literal? = some value) : program.instructions = [.emit [.push value]] := by
  unfold literal? at shows
  split at shows
  · next only =>
      cases shows
      exact only
  · cases shows

theorem Program.execute_literal {program : Program} {value : Value}
    (shows : program.literal? = some value) (context : Value) :
    program.execute context = .ok value.display := by
  have page : pageFrom program.name [.emit [.push value]] (.start context) =
      some (.ok value.display) := by
    have evaluated : (Machine.start context).evaluate [.push value] = .ok value :=
      evaluate_lowered (.start context) (.literal value)
    rw [page_from_instruction rfl, Machine.step, evaluated]
    refine (page_from_end rfl).trans ?_
    change some (Except.ok ("" ++ value.display)) = _
    rw [String.empty_append]
  obtain ⟨outcome, ran, shown⟩ := Option.map_eq_some_iff.mp page
  rw [Program.execute, instructions_of_literal shows, ran]
  exact shown

def cellTable : Template :=
  ⟨⟨"table.html",
    [.loop "position, row of rows" 0
      [.ifElse "position" 32 [.output "cell" 48]
        [.loop "cell of row" 65 [.output "cell" 83]]]]⟩, []⟩

def cellContext : Value :=
  .map [("cell", .str "x"), ("rows", .list [.list [.str "a", .str "b"], .list []])]

theorem cell_table_shows_cells :
    ∃ program, cellTable.generate (.ofSeconds 0) = .ok program ∧
      program.execute cellContext = .ok "abx" := by
  obtain ⟨program, generated⟩ :=
    exists_ok_of_isOk (show (cellTable.generate (.ofSeconds 0)).isOk = true by decide +kernel)
  have walked : cellTable.walk cellContext = .ok "abx" :=
    toOption_eq_some.mp (by decide +kernel)
  have shown := (generated_program_shows_template generated cellContext).1
  rw [walked] at shown
  exact ⟨program, generated, shown⟩

end Letterpress
