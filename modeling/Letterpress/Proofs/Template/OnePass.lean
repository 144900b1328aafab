import Letterpress.Template.Parser

/-!
The descent into scopes is one pass over the tokens with a stack of the scopes that are open.
Where the descent lets a scope end depends on who called it; the pass looks at the innermost
scope of its stack instead. Both stop at the same token, with the same nodes or fault.
-/

namespace Letterpress.Template

/-- What opened a scope. An `else` turns the scope of its `if` into one that has the
nodes before it. -/
inductive Opening where
  | block (name : String)
  | ifThen (test : String)
  | ifElse (test : String) (yes : List Node)
  | loop (header : String)

def Opening.keyword : Opening → String
  | .block _ => "block"
  | .ifThen _ => "if"
  | .ifElse _ _ => "if"
  | .loop _ => "for"

def Opening.closedBy (keyword : String) : Opening → Bool
  | .block _ => keyword == "endblock"
  | .ifThen _ => keyword == "endif"
  | .ifElse _ _ => keyword == "endif"
  | .loop _ => keyword == "endfor"

structure Frame where
  opening : Opening
  offset : Nat
  outer : List Node

def Frame.node (frame : Frame) (inner : List Node) : Node :=
  match frame.opening with
  | .block name => .block name inner
  | .ifThen test => .ifThen test frame.offset inner
  | .ifElse test yes => .ifElse test frame.offset yes inner
  | .loop header => .loop header frame.offset inner

/-- The nodes of the innermost scope, the latest first, and the open scopes, the innermost
first. -/
structure Progress where
  nodes : List Node
  frames : List Frame
  parent : Parent

namespace Progress

def start : Progress := ⟨[], [], none⟩

def add (progress : Progress) (node : Node) : Progress :=
  { progress with nodes := node :: progress.nodes }

def openScope (progress : Progress) (opening : Opening) (offset : Nat) : Progress :=
  { progress with nodes := [], frames := ⟨opening, offset, progress.nodes⟩ :: progress.frames }

/-- A terminator ends the innermost scope, or switches an `if` to its `else`. -/
def terminate (progress : Progress) (keyword : String) (offset : Nat) : Except Fault Progress :=
  match progress.frames with
  | [] => .error (.directive (.unexpected keyword) offset)
  | frame :: outerFrames =>
      if frame.opening.closedBy keyword then
        let node := frame.node progress.nodes.reverse
        .ok { progress with nodes := node :: frame.outer, frames := outerFrames }
      else
        match frame.opening with
        | .ifThen test =>
            if keyword == "else" then
              let opening := Opening.ifElse test progress.nodes.reverse
              .ok { progress with nodes := [], frames := { frame with opening } :: outerFrames }
            else .error (.directive (.unexpected keyword) offset)
        | _ => .error (.directive (.unexpected keyword) offset)

def extend (progress : Progress) (arguments : String) (offset : Nat) : Except Fault Progress :=
  (noteParent progress.parent arguments offset).map fun parent => { progress with parent }

def openBlock (progress : Progress) (arguments : String) (offset : Nat) : Except Fault Progress :=
  let name := String.ofList (Text.unquote (Text.firstWord arguments.toList))
  if name.isEmpty then .error (.directive .blockWithoutName offset)
  else .ok (progress.openScope (.block name) offset)

def openIf (progress : Progress) (test : String) (offset : Nat) : Except Fault Progress :=
  if test.isEmpty then .error (.directive .ifWithoutCondition offset)
  else .ok (progress.openScope (.ifThen test) offset)

def openLoop (progress : Progress) (header : String) (offset : Nat) : Except Fault Progress :=
  if header.isEmpty then .error (.directive .loopWithoutHeader offset)
  else .ok (progress.openScope (.loop header) offset)

def step (progress : Progress) (token : Token) : Except Fault Progress :=
  match token.kind with
  | .text content => .ok (progress.add (.text content))
  | .output expression => .ok (progress.add (.output expression token.offset))
  | .directive keyword arguments =>
      if keyword ∈ terminators then progress.terminate keyword token.offset
      else if keyword = "extends" then progress.extend arguments token.offset
      else if keyword = "block" then progress.openBlock arguments token.offset
      else if keyword = "if" then progress.openIf arguments token.offset
      else if keyword = "for" then progress.openLoop arguments token.offset
      else .ok (progress.add (.text token.raw))

def finish (progress : Progress) : Except Fault (List Node) :=
  match progress.frames with
  | [] => .ok progress.nodes.reverse
  | frame :: _ => .error (.unterminated frame.opening.keyword frame.offset)

end Progress

def readFrom (progress : Progress) : List Token → Reading
  | [] => ⟨progress.parent, progress.finish⟩
  | token :: rest =>
      match progress.step token with
      | .ok next => readFrom next rest
      | .error fault => ⟨progress.parent, .error fault⟩

section Descent

/-- The words that may end the scope of an opening, or its first part. -/
def Opening.stops : Opening → List String
  | .block _ => ["endblock"]
  | .ifThen _ => ["else", "endif"]
  | .ifElse _ _ => ["endif"]
  | .loop _ => ["endfor"]

/-- The words that may come next where some scopes are open. -/
def stops (frames : List Frame) : List String :=
  (frames.head?.map fun frame => frame.opening.stops).getD []

def opener (frames : List Frame) : Option (String × Nat) :=
  frames.head?.map fun frame => (frame.opening.keyword, frame.offset)

variable {tokens earlier : List Token} {token : Token} {frames : List Frame}
  {nodes target : List Node} {parent : Parent} {keyword arguments : String} {offset : Nat}
  {reading : Reading} {frame : Frame}

/-- A reading goes on like the nodes that a descent reads: it fails where they do, it is at its
end with them, or it ends the innermost scope with the word that has stopped them. -/
inductive Follows (frames : List Frame) (reading : Reading) :
    Except Halt (Stretch tokens) → Prop
  | halted {halt : Halt} (same : reading = ⟨halt.parent, .error halt.fault⟩) :
      Follows frames reading (.error halt)
  | ended {stretch : Stretch tokens} (top : frames = []) (free : stretch.stop = none)
      (same : reading = ⟨stretch.parent, .ok stretch.nodes.reverse⟩) :
      Follows frames reading (.ok stretch)
  | stopped {stretch : Stretch tokens} {keyword : String} {offset : Nat} {next : Progress}
      (stop : stretch.stop = some keyword)
      (ends : (Progress.mk stretch.nodes frames stretch.parent).terminate keyword offset =
        .ok next)
      (same : reading = readFrom next stretch.rest.1) :
      Follows frames reading (.ok stretch)

/-- A reading goes on behind a node that a descent has read, or fails with it. -/
inductive FollowsNode (target : List Node) (frames : List Frame) (reading : Reading) :
    Except Halt (Branch tokens) → Prop
  | halted {halt : Halt} (same : reading = ⟨halt.parent, .error halt.fault⟩) :
      FollowsNode target frames reading (.error halt)
  | closed {branch : Branch tokens}
      (same : reading = readFrom ⟨branch.node :: target, frames, branch.parent⟩ branch.rest.1) :
      FollowsNode target frames reading (.ok branch)

def Descends (tokens : List Token) : Prop :=
  ∀ (parent : Parent) (target : List Node) (frames : List Frame),
    Follows frames (readFrom ⟨target, frames, parent⟩ tokens)
      (parseNodes parent target (stops frames) (opener frames) tokens)

theorem Follows.within (bound : tokens.length ≤ earlier.length)
    {outcome : Except Halt (Stretch tokens)} (follows : Follows frames reading outcome) :
    Follows frames reading (outcome.map (.within bound)) := by
  cases follows with
  | halted same => exact .halted same
  | ended top free same => exact .ended top free same
  | stopped stop ends same => exact .stopped stop ends same

/-- The words that stop a scope are terminators, and they end it. -/
theorem stop_ends (stop : keyword ∈ stops frames) :
    keyword ∈ terminators ∧ ∀ nodes parent offset, ∃ next,
      (Progress.mk nodes frames parent).terminate keyword offset = .ok next := by
  cases frames with
  | nil => cases stop
  | cons frame outer =>
      obtain ⟨opening, at_offset, before⟩ := frame
      cases opening <;> simp only [stops, Opening.stops, List.head?_cons, Option.map_some,
        Option.getD_some, List.mem_cons, List.not_mem_nil, or_false] at stop
      case ifThen test =>
        rcases stop with rfl | rfl <;> exact ⟨by decide, fun _ _ _ => ⟨_, rfl⟩⟩
      all_goals
        subst stop
        exact ⟨by decide, fun _ _ _ => ⟨_, rfl⟩⟩

theorem no_stop_refused (progress : Progress) (outside : keyword ∉ stops progress.frames)
    (offset : Nat) :
    progress.terminate keyword offset = .error (.directive (.unexpected keyword) offset) := by
  obtain ⟨nodes, frames, parent⟩ := progress
  cases frames with
  | nil => rfl
  | cons frame outer =>
      obtain ⟨opening, at_offset, before⟩ := frame
      cases opening <;> simp only [stops, Opening.stops, List.head?_cons, Option.map_some,
        Option.getD_some, List.mem_cons, List.not_mem_nil, or_false, not_or] at outside
      all_goals simp [Progress.terminate, Opening.closedBy, outside]

theorem read_cons (progress : Progress) (token : Token) (rest : List Token) :
    readFrom progress (token :: rest) =
      match progress.step token with
      | .ok next => readFrom next rest
      | .error fault => ⟨progress.parent, .error fault⟩ := rfl

/-- What a terminator does to the innermost scope: it closes it, or is the `else` of an `if`. -/
theorem terminated {nodes : List Node} {parent : Parent} {next : Progress}
    (ends : (Progress.mk nodes (frame :: frames) parent).terminate keyword offset = .ok next) :
    (frame.opening.closedBy keyword ∧
      next = ⟨frame.node nodes.reverse :: frame.outer, frames, parent⟩) ∨
    ∃ test, frame.opening = .ifThen test ∧ keyword = "else" ∧
      next = ⟨[], { frame with opening := .ifElse test nodes.reverse } :: frames, parent⟩ := by
  unfold Progress.terminate at ends
  dsimp only at ends
  split at ends
  · next closing =>
      cases ends
      exact .inl ⟨closing, rfl⟩
  · split at ends
    · next test opened =>
        split at ends
        · next switches =>
            cases ends
            exact .inr ⟨test, opened, by simpa using switches, rfl⟩
        · cases ends
    · cases ends

/-- Behind the nodes inside a scope that knows no `else` stands the node of the scope. -/
theorem Follows.closed {outcome : Except Halt (Stretch tokens)}
    (plain : ∀ test, frame.opening ≠ .ifThen test)
    (inside : Follows (frame :: frames) reading outcome) :
    FollowsNode frame.outer frames reading
      (outcome.map fun body => ⟨frame.node body.nodes.reverse, body.rest, body.parent⟩) := by
  cases inside with
  | halted same => exact .halted same
  | ended top => cases top
  | stopped _ ends same =>
      obtain ⟨-, rfl⟩ | ⟨test, opened, -⟩ := terminated ends
      · exact .closed same
      · exact absurd opened (plain test)

theorem block_follows (descends : Descends tokens) (parent : Parent) (target : List Node)
    (frames : List Frame) (arguments : String) (offset : Nat) :
    FollowsNode target frames
      (match (Progress.mk target frames parent).openBlock arguments offset with
        | .ok next => readFrom next tokens
        | .error fault => ⟨parent, .error fault⟩)
      (parseBlock parent arguments offset tokens) := by
  unfold parseBlock Progress.openBlock
  dsimp only
  generalize String.ofList (Text.unquote (Text.firstWord arguments.toList)) = name
  by_cases unnamed : name.isEmpty
  · simp only [unnamed, if_true]
    exact .halted rfl
  · simp only [unnamed, Bool.false_eq_true, if_false]
    exact (descends parent [] (⟨.block name, offset, target⟩ :: frames)).closed (by simp)

theorem for_follows (descends : Descends tokens) (parent : Parent) (target : List Node)
    (frames : List Frame) (header : String) (offset : Nat) :
    FollowsNode target frames
      (match (Progress.mk target frames parent).openLoop header offset with
        | .ok next => readFrom next tokens
        | .error fault => ⟨parent, .error fault⟩)
      (parseFor parent header offset tokens) := by
  unfold parseFor Progress.openLoop
  by_cases empty : header.isEmpty
  · simp only [empty, if_true]
    exact .halted rfl
  · simp only [empty, Bool.false_eq_true, if_false]
    exact (descends parent [] (⟨.loop header, offset, target⟩ :: frames)).closed (by simp)

/-- Whether the part before it has ended with an `else` decides what is read behind it. -/
theorem if_follows
    (descends : ∀ inner : List Token, inner.length ≤ tokens.length → Descends inner)
    (parent : Parent) (target : List Node) (frames : List Frame) (test : String) (offset : Nat) :
    FollowsNode target frames
      (match (Progress.mk target frames parent).openIf test offset with
        | .ok next => readFrom next tokens
        | .error fault => ⟨parent, .error fault⟩)
      (parseIf parent test offset tokens) := by
  unfold parseIf Progress.openIf
  by_cases empty : test.isEmpty
  · simp only [empty, if_true]
    exact .halted rfl
  · simp only [empty, Bool.false_eq_true, if_false]
    have inside := descends tokens (Nat.le_refl _) parent []
      (⟨.ifThen test, offset, target⟩ :: frames)
    simp only [stops, opener, Opening.stops, Opening.keyword, List.head?_cons, Option.map_some,
      Option.getD_some] at inside
    split
    · next halt read =>
        rw [read] at inside
        cases inside with
        | halted same => exact .halted same
    · next yes stop left bound noted read =>
        rw [read] at inside
        cases inside with
        | ended top => cases top
        | stopped stopped ends same =>
            dsimp only at stopped ends same
            subst stopped
            obtain ⟨closing, rfl⟩ | ⟨_, opened, rfl, rfl⟩ := terminated ends
            · rw [if_neg (by rintro ⟨⟩; cases closing)]
              exact .closed same
            · cases opened
              rw [if_pos rfl]
              have after := (descends left bound noted []
                (⟨.ifElse test yes.reverse, offset, target⟩ :: frames)).closed (by simp)
              rw [← same] at after
              change FollowsNode target frames _
                ((parseNodes noted [] ["endif"] (some ("if", offset)) left).map _) at after
              cases second : parseNodes noted [] ["endif"] (some ("if", offset)) left with
              | error halt =>
                  rw [second] at after
                  cases after with
                  | halted same => exact .halted same
              | ok no =>
                  rw [second] at after
                  cases after with
                  | closed same => exact .closed same

theorem branch_follows
    (descends : ∀ inner : List Token, inner.length ≤ tokens.length → Descends inner)
    (parent : Parent) (target : List Node) (frames : List Frame) {token : Token}
    (directive : token.kind = .directive keyword arguments) (ordinary : keyword ∉ terminators)
    (stays : keyword ≠ "extends") :
    match parseBranch? parent keyword arguments token.offset tokens with
    | some outcome =>
        FollowsNode target frames (readFrom ⟨target, frames, parent⟩ (token :: tokens)) outcome
    | none => (Progress.mk target frames parent).step token =
        .ok ⟨.text token.raw :: target, frames, parent⟩ := by
  have here := descends tokens (Nat.le_refl _)
  simp only [parseBranch?, read_cons, Progress.step, directive, ordinary, stays, if_false]
  by_cases block : keyword = "block"
  · rw [if_pos block, if_pos block]
    exact block_follows here parent target frames arguments token.offset
  by_cases test : keyword = "if"
  · rw [if_neg block, if_neg block, if_pos test, if_pos test]
    exact if_follows descends parent target frames arguments token.offset
  by_cases loop : keyword = "for"
  · rw [if_neg block, if_neg block, if_neg test, if_neg test, if_pos loop, if_pos loop]
    exact for_follows here parent target frames arguments token.offset
  rw [if_neg block, if_neg block, if_neg test, if_neg test, if_neg loop, if_neg loop]
  rfl

theorem extends_not_terminator : "extends" ∉ terminators := by decide

theorem terminator_is_no_branch (terminator : keyword ∈ terminators) :
    parseBranch? parent keyword arguments offset tokens = none := by
  simp only [terminators, List.mem_cons, List.not_mem_nil, or_false] at terminator
  rcases terminator with rfl | rfl | rfl | rfl <;> simp [parseBranch?]

/-- The induction is on the tokens that are left: behind a scope the descent goes on with
fewer of them, but not with the next ones. -/
theorem descends_all (tokens : List Token) : Descends tokens := by
  induction length : tokens.length using Nat.strongRecOn generalizing tokens with
  | _ size shorter =>
    intro parent target frames
    cases tokens with
    | nil =>
        rw [parseNodes.eq_def]
        cases frames with
        | nil => exact .ended rfl rfl rfl
        | cons frame outer => exact .halted rfl
    | cons token rest =>
        have descends : ∀ inner : List Token, inner.length ≤ rest.length → Descends inner :=
          fun inner bound => shorter inner.length
            (length ▸ Nat.lt_succ_of_le bound) inner rfl
        have behind := descends rest (Nat.le_refl _)
        rw [parseNodes.eq_def]
        cases kind : token.kind with
        | text content =>
            simp only [read_cons, Progress.step, kind]
            exact (behind parent _ frames).within _
        | output expression =>
            simp only [read_cons, Progress.step, kind]
            exact (behind parent _ frames).within _
        | directive keyword arguments =>
            simp only [kind]
            by_cases stop : keyword ∈ stops frames
            · obtain ⟨terminator, ends⟩ := stop_ends stop
              obtain ⟨next, ended⟩ := ends target parent token.offset
              rw [if_pos stop]
              refine .stopped rfl ended ?_
              simp only [read_cons, Progress.step, kind, terminator, if_true, ended]
            · rw [if_neg stop]
              by_cases extending : keyword = "extends"
              · subst extending
                rw [if_pos rfl]
                simp only [read_cons, Progress.step, kind, extends_not_terminator, if_true,
                  if_false, Progress.extend]
                cases noteParent parent arguments token.offset with
                | error fault => exact .halted rfl
                | ok noted => exact (behind noted target frames).within _
              · rw [if_neg extending]
                by_cases terminator : keyword ∈ terminators
                · rw [terminator_is_no_branch terminator]
                  simp only [read_cons, Progress.step, kind, terminator, if_true]
                  rw [no_stop_refused _ stop]
                  exact .halted rfl
                · rw [if_neg terminator]
                  have branch :=
                    branch_follows descends parent target frames kind terminator extending
                  split
                  · next halt read =>
                      rw [read] at branch
                      cases branch with
                      | halted same => exact .halted same
                  · next node left bound noted read =>
                      rw [read] at branch
                      cases branch with
                      | closed same =>
                          rw [same]
                          exact (descends left bound noted (node :: target) frames).within _
                  · next read =>
                      rw [read] at branch
                      rw [read_cons, branch]
                      exact (behind parent _ frames).within _

theorem read_tokens_eq (tokens : List Token) : readTokens tokens = readFrom .start tokens := by
  have follows := descends_all tokens none [] []
  change readTokens tokens = readFrom ⟨[], [], none⟩ tokens
  change Follows _ _ (parseNodes none [] [] none tokens) at follows
  unfold readTokens
  split
  · next fault parent read =>
      rw [read] at follows
      cases follows with
      | halted same => exact same.symm
  · next nodes stop rest parent read =>
      rw [read] at follows
      cases follows with
      | ended _ _ same => exact same.symm
      | stopped _ ends => cases ends

theorem read_source_eq (source : String) :
    readSource source = readFrom .start (tokenize source) :=
  read_tokens_eq (tokenize source)

end Descent

end Letterpress.Template
