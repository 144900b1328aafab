import Letterpress.Engine.Basic
import Letterpress.Proofs.Template.Flattening
import Letterpress.Proofs.Template.Search
import Letterpress.Proofs.Template.Segmentation

/-!
Where errors of compilation point. Every node, every open scope and every fault keeps the
place of a token of the file that it was read from. Inheritance moves nodes between files,
each with the name of its own file, so what goes wrong with a node while code is generated
is still blamed on the token that the node comes from.
-/

namespace Letterpress

open Text

namespace Template

def TokenAt (source : String) (kind : TokenKind) (offset : Nat) : Prop :=
  ∃ token ∈ tokenize source, token.kind = kind ∧ token.offset = offset ∧
    PieceAt source token.raw offset token.stop

theorem token_at_of_mem {source : String} {token : Token} (member : token ∈ tokenize source) :
    TokenAt source token.kind token.offset := by
  have segmented : Segmented source 0 (tokenize source) :=
    segmented_from source [] source.toList (List.nil_append _).symm
  exact ⟨token, member, rfl, rfl, (segmented_laid segmented token member).1.placed⟩

end Template

open Template

inductive Node.DrawnFrom (source : String) : Node → Prop
  | text {content : String} : DrawnFrom source (.text content)
  | output {expression : String} {offset : Nat}
      (shown : TokenAt source (.output expression) offset) :
      DrawnFrom source (.output expression offset)
  | block {name : String} {body : List Node} (inside : ∀ node ∈ body, DrawnFrom source node) :
      DrawnFrom source (.block name body)
  | ifThen {test : String} {offset : Nat} {yes : List Node}
      (asked : TokenAt source (.directive "if" test) offset)
      (holding : ∀ node ∈ yes, DrawnFrom source node) :
      DrawnFrom source (.ifThen test offset yes)
  | ifElse {test : String} {offset : Nat} {yes no : List Node}
      (asked : TokenAt source (.directive "if" test) offset)
      (holding : ∀ node ∈ yes, DrawnFrom source node)
      (failing : ∀ node ∈ no, DrawnFrom source node) :
      DrawnFrom source (.ifElse test offset yes no)
  | loop {header : String} {offset : Nat} {body : List Node}
      (ranged : TokenAt source (.directive "for" header) offset)
      (inside : ∀ node ∈ body, DrawnFrom source node) :
      DrawnFrom source (.loop header offset body)

def AllDrawn (source : String) (nodes : List Node) : Prop := ∀ node ∈ nodes, node.DrawnFrom source

theorem all_drawn_nil (source : String) : AllDrawn source [] := nofun

theorem all_drawn_cons {source : String} {node : Node} {nodes : List Node}
    (first : node.DrawnFrom source) (rest : AllDrawn source nodes) :
    AllDrawn source (node :: nodes) := by
  intro other member
  rcases List.mem_cons.mp member with rfl | later
  · exact first
  · exact rest other later

theorem all_drawn_reverse {source : String} {nodes : List Node} (drawn : AllDrawn source nodes) :
    AllDrawn source nodes.reverse := fun node member => drawn node (List.mem_reverse.mp member)

def DirectiveProblem.keyword : DirectiveProblem → String
  | .extendsNothing => "extends"
  | .extendsTwice _ => "extends"
  | .circular _ => "extends"
  | .blockWithoutName => "block"
  | .ifWithoutCondition => "if"
  | .loopWithoutHeader => "for"
  | .unexpected keyword => keyword

namespace Template

/-- A fault points at a directive with the keyword that it is about. -/
def Fault.DrawnFrom (source : String) : Fault → Prop
  | .directive problem offset =>
      ∃ arguments, TokenAt source (.directive problem.keyword arguments) offset
  | .unterminated keyword offset =>
      ∃ arguments, TokenAt source (.directive keyword arguments) offset

inductive Opening.DrawnFrom (source : String) (offset : Nat) : Opening → Prop
  | block {name arguments : String}
      (opened : TokenAt source (.directive "block" arguments) offset) :
      DrawnFrom source offset (.block name)
  | ifThen {test : String} (opened : TokenAt source (.directive "if" test) offset) :
      DrawnFrom source offset (.ifThen test)
  | ifElse {test : String} {yes : List Node} (opened : TokenAt source (.directive "if" test) offset)
      (holding : AllDrawn source yes) : DrawnFrom source offset (.ifElse test yes)
  | loop {header : String} (opened : TokenAt source (.directive "for" header) offset) :
      DrawnFrom source offset (.loop header)

structure Frame.DrawnFrom (source : String) (frame : Frame) : Prop where
  opened : frame.opening.DrawnFrom source frame.offset
  outside : AllDrawn source frame.outer

structure Progress.DrawnFrom (source : String) (progress : Progress) : Prop where
  nodes : AllDrawn source progress.nodes
  frames : ∀ frame ∈ progress.frames, frame.DrawnFrom source
  parent : ∀ target offset, progress.parent = some (target, offset) →
    ∃ arguments, TokenAt source (.directive "extends" arguments) offset

inductive Drawn (source : String) : Except Fault Progress → Prop
  | taken {next : Progress} (drawn : next.DrawnFrom source) : Drawn source (.ok next)
  | refused {fault : Fault} (drawn : fault.DrawnFrom source) : Drawn source (.error fault)

section Reading

variable {source : String} {progress : Progress} {token : Token} {offset : Nat}
  {keyword arguments : String}

theorem opening_keyword_at {opening : Opening} (opened : opening.DrawnFrom source offset) :
    ∃ arguments, TokenAt source (.directive opening.keyword arguments) offset := by
  cases opened with
  | block opened => exact ⟨_, opened⟩
  | ifThen opened => exact ⟨_, opened⟩
  | ifElse opened holding => exact ⟨_, opened⟩
  | loop opened => exact ⟨_, opened⟩

/-- A scope that closes makes a node with what its directive says. -/
theorem closed_frame_drawn {frame : Frame} {inner : List Node} (drawn : frame.DrawnFrom source)
    (inside : AllDrawn source inner) : (frame.node inner).DrawnFrom source := by
  obtain ⟨opening, offset, outer⟩ := frame
  obtain ⟨opened, -⟩ := drawn
  cases opened with
  | block opened => exact .block inside
  | ifThen opened => exact .ifThen opened inside
  | ifElse opened holding => exact .ifElse opened holding inside
  | loop opened => exact .loop opened inside

namespace Progress.DrawnFrom

theorem start (source : String) : Progress.start.DrawnFrom source :=
  ⟨all_drawn_nil source, nofun, nofun⟩

theorem add (drawn : progress.DrawnFrom source) {node : Node} (shown : node.DrawnFrom source) :
    (progress.add node).DrawnFrom source :=
  ⟨all_drawn_cons shown drawn.nodes, drawn.frames, drawn.parent⟩

theorem openScope (drawn : progress.DrawnFrom source) {opening : Opening}
    (opened : opening.DrawnFrom source offset) :
    (progress.openScope opening offset).DrawnFrom source where
  nodes := all_drawn_nil source
  frames frame member := by
    rcases List.mem_cons.mp member with rfl | outside
    · exact ⟨opened, drawn.nodes⟩
    · exact drawn.frames frame outside
  parent := drawn.parent

theorem terminate (drawn : progress.DrawnFrom source)
    (here : TokenAt source (.directive keyword arguments) offset) :
    Drawn source (progress.terminate keyword offset) := by
  have refused : Drawn source (.error (.directive (.unexpected keyword) offset)) :=
    .refused ⟨arguments, here⟩
  obtain ⟨nodes, frames, parent⟩ := progress
  cases frames with
  | nil => exact refused
  | cons frame outer =>
      have innermost := drawn.frames frame List.mem_cons_self
      have further : ∀ other ∈ outer, other.DrawnFrom source := fun other member =>
        drawn.frames other (List.mem_cons_of_mem frame member)
      have inside := all_drawn_reverse drawn.nodes
      unfold Progress.terminate
      dsimp only
      split
      · have closed := closed_frame_drawn innermost inside
        exact .taken ⟨all_drawn_cons closed innermost.outside, further, drawn.parent⟩
      · split
        · next test opened_if =>
            split
            · have opened := innermost.opened
              rw [opened_if] at opened
              cases opened with
              | ifThen opened =>
                  refine .taken ⟨all_drawn_nil source, ?_, drawn.parent⟩
                  intro other member
                  rcases List.mem_cons.mp member with rfl | outside
                  · exact ⟨.ifElse opened inside, innermost.outside⟩
                  · exact further other outside
            · exact refused
        · exact refused

theorem extend (drawn : progress.DrawnFrom source)
    (here : TokenAt source (.directive "extends" arguments) offset) :
    Drawn source (progress.extend arguments offset) := by
  unfold Progress.extend noteParent
  dsimp only
  split
  · exact .refused ⟨arguments, here⟩
  · split
    · exact .refused ⟨arguments, here⟩
    · refine .taken ⟨drawn.nodes, drawn.frames, ?_⟩
      rintro target place same
      cases same
      exact ⟨arguments, here⟩

/-- A directive opens its scope, or is at fault. -/
theorem openOrRefuse (drawn : progress.DrawnFrom source) {opening : Opening} {refused : Bool}
    {problem : DirectiveProblem} (opened : opening.DrawnFrom source offset)
    (here : TokenAt source (.directive problem.keyword arguments) offset) :
    Drawn source (if refused then .error (.directive problem offset)
      else .ok (progress.openScope opening offset)) := by
  cases refused with
  | true => exact .refused ⟨arguments, here⟩
  | false => exact .taken (drawn.openScope opened)

/-- Whatever a token of a text makes of what was read before it comes from the text. -/
theorem step (drawn : progress.DrawnFrom source) (member : token ∈ tokenize source) :
    Drawn source (progress.step token) := by
  have here := token_at_of_mem member
  unfold Progress.step
  split
  · exact .taken (drawn.add .text)
  · next expression shown =>
      rw [shown] at here
      exact .taken (drawn.add (.output here))
  · next keyword arguments said =>
      rw [said] at here
      split
      · exact drawn.terminate here
      · split_ifs with extending blocking testing looping
        · subst extending
          exact drawn.extend here
        · subst blocking
          unfold Progress.openBlock
          exact drawn.openOrRefuse (.block here) here
        · subst testing
          unfold Progress.openIf
          exact drawn.openOrRefuse (.ifThen here) here
        · subst looping
          unfold Progress.openLoop
          exact drawn.openOrRefuse (.loop here) here
        · exact .taken (drawn.add .text)

end Progress.DrawnFrom

structure Reading.DrawnFrom (source : String) (reading : Reading) : Prop where
  parent : ∀ target offset, reading.parent = some (target, offset) →
    ∃ arguments, TokenAt source (.directive "extends" arguments) offset
  nodes : ∀ nodes, reading.outcome = .ok nodes → AllDrawn source nodes
  fault : ∀ fault, reading.outcome = .error fault → fault.DrawnFrom source

theorem finished_drawn (drawn : progress.DrawnFrom source) :
    Reading.DrawnFrom source ⟨progress.parent, progress.finish⟩ := by
  obtain ⟨nodes, frames, parent⟩ := progress
  cases frames with
  | nil =>
      refine ⟨drawn.parent, ?_, nofun⟩
      intro read same
      cases same
      exact all_drawn_reverse drawn.nodes
  | cons frame outer =>
      refine ⟨drawn.parent, nofun, ?_⟩
      intro fault same
      cases same
      exact opening_keyword_at (drawn.frames frame List.mem_cons_self).opened

theorem read_from_drawn {tokens : List Token} (drawn : progress.DrawnFrom source)
    (members : ∀ token ∈ tokens, token ∈ tokenize source) :
    (readFrom progress tokens).DrawnFrom source := by
  induction tokens generalizing progress with
  | nil => exact finished_drawn drawn
  | cons token rest later =>
      have taken := drawn.step (members token List.mem_cons_self)
      unfold readFrom
      split
      · next next came =>
          rw [came] at taken
          cases taken with
          | taken drawn =>
              have rest_members : ∀ other ∈ rest, other ∈ tokenize source := fun other member =>
                members other (List.mem_cons_of_mem token member)
              exact later drawn rest_members
      · next fault came =>
          rw [came] at taken
          cases taken with
          | refused fault_drawn =>
              refine ⟨drawn.parent, nofun, ?_⟩
              intro other same
              cases same
              exact fault_drawn

theorem read_source_drawn (source : String) : (readSource source).DrawnFrom source := by
  rw [read_source_eq]
  exact read_from_drawn (.start source) fun _ member => member

end Reading

end Template

/-- What fails to be read where the code of a token is generated: all that an output or a
directive `if` says as an expression, all that a directive `for` says as a loop header. -/
inductive Unreadable (error : SyntaxError) : TokenKind → Prop
  | output {expression : String} (failed : Expr.parse expression = .error error) :
      Unreadable error (.output expression)
  | test {test : String} (failed : Expr.parse test = .error error) :
      Unreadable error (.directive "if" test)
  | header {header : String} (failed : LoopHeader.parse header = .error error) :
      Unreadable error (.directive "for" header)

/-- An error points at a token of one of the texts under the name that it gives. `held` tells
which texts are under a name. Errors without an offset point nowhere. -/
def TemplateError.PointsInto (held : String → String → Prop) : TemplateError → Prop
  | .unterminated template keyword offset => ∃ text, held template text ∧
      ∃ arguments, TokenAt text (.directive keyword arguments) offset
  | .directive template problem offset => ∃ text, held template text ∧
      ∃ arguments, TokenAt text (.directive problem.keyword arguments) offset
  | .expression template error offset => ∃ text, held template text ∧
      ∃ kind, Unreadable error kind ∧ TokenAt text kind offset
  | _ => True

section Generating

variable {held : String → String → Prop} {owner source : String} {offset : Nat}
  {error : TemplateError}

theorem expression_code_eq_error (failed : expressionCode owner source offset = .error error) :
    ∃ reason, Expr.parse source = .error reason ∧ error = .expression owner reason offset := by
  unfold expressionCode at failed
  split at failed
  · cases failed
  · next reason unread =>
      cases failed
      exact ⟨reason, unread, rfl⟩

theorem loop_header_eq_error (failed : loopHeader owner source offset = .error error) :
    ∃ reason, LoopHeader.parse source = .error reason ∧
      error = .expression owner reason offset := by
  obtain ⟨reason, unread, same⟩ := mapError_eq_error.mp failed
  exact ⟨reason, unread, same.symm⟩

variable {text : String}

theorem output_error_points (here : held owner text)
    (shown : TokenAt text (.output source) offset)
    (failed : expressionCode owner source offset = .error error) : error.PointsInto held := by
  obtain ⟨reason, unread, rfl⟩ := expression_code_eq_error failed
  exact ⟨text, here, _, .output unread, shown⟩

theorem test_error_points (here : held owner text)
    (asked : TokenAt text (.directive "if" source) offset)
    (failed : expressionCode owner source offset = .error error) : error.PointsInto held := by
  obtain ⟨reason, unread, rfl⟩ := expression_code_eq_error failed
  exact ⟨text, here, _, .test unread, asked⟩

theorem header_error_points (here : held owner text)
    (ranged : TokenAt text (.directive "for" source) offset)
    (failed : loopHeader owner source offset = .error error) : error.PointsInto held := by
  obtain ⟨reason, unread, rfl⟩ := loop_header_eq_error failed
  exact ⟨text, here, _, .header unread, ranged⟩

mutual

/-- What goes wrong with a node is blamed on the token that it was drawn from. -/
theorem node_error_points {start : Nat} (here : held owner text) (node : Node)
    (drawn : node.DrawnFrom text) (failed : node.emitAt owner start = .error error) :
    error.PointsInto held := by
  cases drawn with
  | text => cases failed
  | output shown => exact output_error_points here shown (error_of_return failed)
  | @block name body inside => exact nodes_error_points here body inside failed
  | @ifThen test offset yes asked holding =>
      rcases bind_eq_error.mp failed with failed | ⟨code, -, failed⟩
      · exact test_error_points here asked failed
      · exact nodes_error_points here yes holding (error_of_return failed)
  | @ifElse test offset yes no asked holding failing =>
      rcases bind_eq_error.mp failed with failed | ⟨code, -, failed⟩
      · exact test_error_points here asked failed
      · rcases bind_eq_error.mp failed with failed | ⟨first, -, failed⟩
        · exact nodes_error_points here yes holding failed
        · exact nodes_error_points here no failing (error_of_return failed)
  | @loop header offset body ranged inside =>
      rcases bind_eq_error.mp failed with failed | ⟨parsed, -, failed⟩
      · exact header_error_points here ranged failed
      · exact nodes_error_points here body inside (error_of_return failed)

theorem nodes_error_points {start : Nat} (here : held owner text) (nodes : List Node)
    (drawn : AllDrawn text nodes) (failed : emitAllAt owner start nodes = .error error) :
    error.PointsInto held := by
  cases nodes with
  | nil => cases failed
  | cons node rest =>
      rcases bind_eq_error.mp failed with failed | ⟨first, -, failed⟩
      · exact node_error_points here node (drawn node List.mem_cons_self) failed
      · have rest_drawn : AllDrawn text rest := fun other member =>
          drawn other (List.mem_cons_of_mem node member)
        exact nodes_error_points here rest rest_drawn (error_of_return failed)

end

def OwnedNode.DrawnFrom (held : String → String → Prop) (owned : OwnedNode) : Prop :=
  ∃ text, held owned.owner text ∧ owned.node.DrawnFrom text

def Layer.DrawnFrom (held : String → String → Prop) (layer : Layer) : Prop :=
  ∃ text, held layer.name text ∧ AllDrawn text layer.nodes

theorem owned_error_points {start : Nat} {nodes : List OwnedNode}
    (drawn : ∀ owned ∈ nodes, owned.DrawnFrom held)
    (failed : emitOwnedAt start nodes = .error error) : error.PointsInto held := by
  induction nodes generalizing start with
  | nil => cases failed
  | cons owned rest later =>
      rcases bind_eq_error.mp failed with failed | ⟨first, -, failed⟩
      · obtain ⟨text, here, drawn_here⟩ := drawn owned List.mem_cons_self
        exact node_error_points here owned.node drawn_here failed
      · have rest_drawn : ∀ other ∈ rest, other.DrawnFrom held := fun other member =>
          drawn other (List.mem_cons_of_mem owned member)
        exact later rest_drawn (error_of_return failed)

/-- A block takes another body only together with the name of the file that the body is of. -/
theorem override_drawn {layer : Layer} {owned : OwnedNode} (layer_drawn : layer.DrawnFrom held)
    (drawn : owned.DrawnFrom held) : (layer.override owned).DrawnFrom held := by
  unfold Layer.override
  split
  · next name body shown =>
      split
      · next other found =>
          obtain ⟨text, here, nodes_drawn⟩ := layer_drawn
          rw [last_block_is_last_body] at found
          have member := mem_bodies.mp (List.mem_of_getLast? found)
          cases nodes_drawn _ member with
          | block inside => exact ⟨text, here, .block inside⟩
      · exact drawn
  · exact drawn

theorem resolve_drawn {layer : Layer} {ancestors : List Layer} (drawn : layer.DrawnFrom held)
    (above : ∀ ancestor ∈ ancestors, ancestor.DrawnFrom held) :
    ∀ owned ∈ layer.resolve ancestors, owned.DrawnFrom held := by
  induction ancestors generalizing layer with
  | nil =>
      obtain ⟨text, here, nodes_drawn⟩ := drawn
      intro owned member
      obtain ⟨node, listed, rfl⟩ := List.mem_map.mp member
      exact ⟨text, here, nodes_drawn node listed⟩
  | cons parent more resolved =>
      intro owned member
      obtain ⟨outer, listed, rfl⟩ := List.mem_map.mp member
      have parent_drawn := above parent List.mem_cons_self
      have further : ∀ ancestor ∈ more, ancestor.DrawnFrom held := fun ancestor member =>
        above ancestor (List.mem_cons_of_mem parent member)
      exact override_drawn drawn (resolved parent_drawn further outer listed)

def Template.DrawnFrom (held : String → String → Prop) (template : Template) : Prop :=
  ∀ layer ∈ template.page :: template.ancestors, layer.DrawnFrom held

theorem generate_error_points {template : Template} {now : Instant}
    (drawn : template.DrawnFrom held) (failed : template.generate now = .error error) :
    error.PointsInto held := by
  have nodes_drawn := resolve_drawn (drawn template.page List.mem_cons_self)
    fun ancestor member => drawn ancestor (List.mem_cons_of_mem _ member)
  exact owned_error_points nodes_drawn (error_of_return failed)

end Generating

namespace TemplateError

variable {held more : String → String → Prop} {error : TemplateError}

theorem PointsInto.mono (wider : ∀ name text, held name text → more name text)
    (points : error.PointsInto held) : error.PointsInto more := by
  cases error with
  | unterminated template keyword offset =>
      obtain ⟨text, here, found⟩ := points
      exact ⟨text, wider _ _ here, found⟩
  | directive template problem offset =>
      obtain ⟨text, here, found⟩ := points
      exact ⟨text, wider _ _ here, found⟩
  | expression template problem offset =>
      obtain ⟨text, here, found⟩ := points
      exact ⟨text, wider _ _ here, found⟩
  | directoryMissing | notFound | render | context | source | artifact => trivial

theorem points_nowhere (plain : error.offset? = none) : error.PointsInto held := by
  cases error with
  | unterminated | directive | expression => cases plain
  | directoryMissing | notFound | render | context | source | artifact => trivial

end TemplateError

/-- A loader that refuses a name points into no text. -/
def Loader.Unplaced (load : Loader) : Prop :=
  ∀ name error, load name = some (.error error) → error.offset? = none

theorem of_files_unplaced (files : List (String × String)) :
    (Library.ofFiles files).loader.Unplaced := by
  intro name error refused
  simp only [Library.loader, Library.ofFiles, Option.some.injEq] at refused
  split at refused
  · cases refused
  · cases refused
    rfl

theorem engine_library_unplaced (engine : Engine) (disk : Files.Disk) :
    (engine.library disk).loader.Unplaced := by
  intro name error refused
  simp only [Library.loader, Engine.library, Engine.load, Engine.sourcePath,
    Option.some.injEq] at refused
  split at refused
  · next outside =>
      split at outside
      · cases outside
      · cases outside
        cases refused
        rfl
  · split at refused <;> cases refused <;> rfl

namespace Template

open Loader

def Read (load : Loader) (asked : List String) (name text : String) : Prop :=
  name ∈ asked ∧ load name = some (.ok text)

structure Searched.Drawn (load : Loader) (result : Searched) : Prop where
  template : ∀ template, result.outcome = .ok template →
    template.DrawnFrom (Read load result.asked)
  error : ∀ error, result.outcome = .error error → error.PointsInto (Read load result.asked)

section Searching

variable {load : Loader} {names asked : List String} {name text : String}

theorem fault_points {held : String → String → Prop} {fault : Fault} (here : held name text)
    (drawn : fault.DrawnFrom text) : (fault.toError name).PointsInto held := by
  cases fault with
  | directive problem offset => exact ⟨text, here, drawn⟩
  | unterminated keyword offset => exact ⟨text, here, drawn⟩

theorem drawn_of_error {error : TemplateError} (points : error.PointsInto (Read load asked)) :
    Searched.Drawn load ⟨asked, .error error⟩ where
  template _ found := by cases found
  error other same := by
    cases same
    exact points

theorem assembled_drawn {ancestors : List Layer} (here : Read load asked name text)
    (above : ∀ ancestor ∈ ancestors, ancestor.DrawnFrom (Read load asked)) :
    Searched.Drawn load ⟨asked, assemble name (readSource text) ancestors⟩ := by
  have drawn := read_source_drawn text
  unfold assemble
  cases read : (readSource text).outcome with
  | ok nodes =>
      refine ⟨?_, nofun⟩
      intro template same
      cases same
      intro layer member
      rcases List.mem_cons.mp member with rfl | outer
      · exact ⟨text, here, drawn.nodes nodes read⟩
      · exact above layer outer
  | error fault => exact drawn_of_error (fault_points here (drawn.fault fault read))

theorem Read.below {template : String} (read : Read load asked template text) :
    Read load (name :: asked) template text := ⟨List.mem_cons_of_mem name read.1, read.2⟩

theorem below_drawn {above : Searched} (loaded : load name = some (.ok text))
    (drawn : above.Drawn load) : (above.below name (readSource text)).Drawn load := by
  unfold Searched.below
  obtain ⟨asked, outcome⟩ := above
  cases outcome with
  | error error => exact drawn_of_error ((drawn.error error rfl).mono fun _ _ read => read.below)
  | ok parent =>
      refine assembled_drawn ⟨List.mem_cons_self, loaded⟩ ?_
      intro ancestor member
      obtain ⟨source, read, nodes_drawn⟩ := drawn.template parent rfl ancestor member
      exact ⟨source, read.below, nodes_drawn⟩

theorem search_drawn (plain : load.Unplaced) {result : Searched}
    (searched : search load names name = some result) : result.Drawn load := by
  refine search.partial_correctness load (fun _ _ result => result.Drawn load) ?_ names name
    result searched
  intro search further names name result searched
  split at searched
  · cases searched
  · next error refused =>
      cases searched
      exact drawn_of_error (TemplateError.points_nowhere (plain name error refused))
  · next text loaded =>
      have here : Read load [name] name text := ⟨List.mem_cons_self, loaded⟩
      split at searched
      · cases searched
        exact assembled_drawn here fun _ member => absurd member List.not_mem_nil
      · next target offset extended =>
          split at searched
          · cases searched
            exact drawn_of_error
              ⟨text, here, (read_source_drawn text).parent target offset extended⟩
          · obtain ⟨above, above_searched, same⟩ := Option.bind_eq_some_iff.mp searched
            cases same
            exact below_drawn loaded (further _ _ _ above_searched)

end Searching

/-- An error of compiling or generating that has an offset gives the name of a file that was
read on the way, and at the offset in that file starts a token that the error is about: a
directive with the keyword that is wrong or not closed, or whatever holds an expression or
a loop header that cannot be read. So it is over every collection of files. -/
theorem errors_point_at_tokens :
    (∀ library : Library, library.loader.Unplaced → ∀ name now error,
      (compile library name >>= fun template => template.generate now) = .error error →
        ∃ asked, search library.loader [name] name = some ⟨asked, compile library name⟩ ∧
          error.PointsInto fun template text =>
            template ∈ asked ∧ library.load template = .ok text) ∧
      (∀ files, (Library.ofFiles files).loader.Unplaced) ∧
      ∀ engine disk, (Engine.library engine disk).loader.Unplaced := by
  refine ⟨?_, of_files_unplaced, engine_library_unplaced⟩
  intro library plain name now error failed
  obtain ⟨asked, searched, -⟩ := compile_searched library name
  have drawn := search_drawn plain searched
  refine ⟨asked, searched, ?_⟩
  have points : error.PointsInto (Read library.loader asked) := by
    rcases bind_eq_error.mp failed with refused | ⟨template, compiled, failed⟩
    · exact drawn.error error refused
    · exact generate_error_points (drawn.template template compiled) failed
  exact points.mono fun template text read => ⟨read.1, Option.some.inj read.2⟩

def unreadable : List (String × String) :=
  [("page", "\x7b% extends 'inner' %\x7d"),
    ("inner",
      "\x7b% extends 'outer' %\x7dä\x7b% block a %\x7d\x7b\x7b 1 + \x7d\x7d\x7b% endblock %\x7d"),
    ("outer", "<b>\x7b% block a %\x7d\x7b% endblock %\x7d</b>")]

theorem override_points_into_its_file :
    (Library.ofFiles unreadable).loader.Unplaced ∧
      (compile (.ofFiles unreadable) "page" >>= fun template => template.generate (.ofSeconds 0)) =
        .error (.expression "inner" ⟨.unexpectedEnd, 3⟩ 36) ∧
      ∃ asked, search (Library.ofFiles unreadable).loader ["page"] "page" =
          some ⟨asked, compile (.ofFiles unreadable) "page"⟩ ∧
        TemplateError.PointsInto
          (fun template text => template ∈ asked ∧
            (Library.ofFiles unreadable).load template = .ok text)
          (.expression "inner" ⟨.unexpectedEnd, 3⟩ 36) := by
  have page_read : readSource "\x7b% extends 'inner' %\x7d" = ⟨some ("inner", 0), .ok []⟩ := by
    rw [read_source_eq]
    rfl
  have inner_read : readSource
      "\x7b% extends 'outer' %\x7dä\x7b% block a %\x7d\x7b\x7b 1 + \x7d\x7d\x7b% endblock %\x7d" =
        ⟨some ("outer", 0), .ok [.text "ä", .block "a" [.output "1 +" 36]]⟩ := by
    rw [read_source_eq]
    rfl
  have outer_read : readSource "<b>\x7b% block a %\x7d\x7b% endblock %\x7d</b>" =
      ⟨none, .ok [.text "<b>", .block "a" [], .text "</b>"]⟩ := by
    rw [read_source_eq]
    rfl
  have found : Found (Library.ofFiles unreadable).loader ["page"] "page" ["page", "inner", "outer"]
      ⟨⟨"page", []⟩, [⟨"inner", [.text "ä", .block "a" [.output "1 +" 36]]⟩,
        ⟨"outer", [.text "<b>", .block "a" [], .text "</b>"]⟩]⟩ :=
    .extending rfl page_read (by decide) (.extending rfl inner_read (by decide)
      (.alone rfl outer_read))
  have failed : (compile (.ofFiles unreadable) "page" >>= fun template =>
      template.generate (.ofSeconds 0)) =
        .error (.expression "inner" ⟨.unexpectedEnd, 3⟩ 36) := by
    rw [compile_of_search (search_of_found found)]
    rfl
  have plain := of_files_unplaced unreadable
  exact ⟨plain, failed, errors_point_at_tokens.1 _ plain "page" _ _ failed⟩

end Template

end Letterpress
