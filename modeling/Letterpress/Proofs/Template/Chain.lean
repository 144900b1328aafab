import Letterpress.Proofs.Template.Search
import Mathlib.Data.List.Chain

/-!
Where `extends` leads. Whether a file gets as far as its directive is a matter of reading;
but in a template that compiles every file was read to its end, so its chain is the one way
along all `extends` directives of these files, wherever they stand. A way that meets itself
again is no chain, and nothing compiles along it.
-/

namespace Letterpress.Template

open Loader

def Token.extends? (token : Token) : Option String :=
  match token.kind with
  | .directive keyword arguments =>
      if keyword = "extends" then some (String.ofList (Text.unquote arguments.toList)) else none
  | _ => none

def extended (source : String) : List String := (tokenize source).filterMap Token.extends?

/-- There is a link from a name to whatever its text extends. -/
def Extends (load : Loader) (name target : String) : Prop :=
  ∃ text, load name = some (.ok text) ∧ target ∈ extended text

/-- Each file has one `extends` directive, which names the next file, and the last has none. -/
inductive Linked (load : Loader) : List String → Prop
  | last {name text : String} (loaded : load name = some (.ok text))
      (alone : extended text = []) : Linked load [name]
  | link {name text target : String} {above : List String} (loaded : load name = some (.ok text))
      (only : extended text = [target]) (further : Linked load (target :: above)) :
      Linked load (name :: target :: above)

namespace Progress

def targets (progress : Progress) : List String := (progress.parent.map Prod.fst).toList

variable {progress next : Progress} {token : Token}

theorem terminate_targets {keyword : String} {offset : Nat}
    (taken : progress.terminate keyword offset = .ok next) : next.targets = progress.targets := by
  unfold terminate at taken
  split at taken
  · cases taken
  · split at taken
    · cases taken
      rfl
    · split at taken
      · split at taken <;> cases taken
        rfl
      · cases taken

theorem extend_targets {arguments : String} {offset : Nat}
    (taken : progress.extend arguments offset = .ok next) :
    next.targets = progress.targets ++ [String.ofList (Text.unquote arguments.toList)] := by
  unfold extend noteParent at taken
  dsimp only at taken
  split at taken
  · cases taken
  · split at taken
    · cases taken
    · next none_yet =>
        cases taken
        simp [targets, none_yet]

theorem opened_targets {opening : Opening} {offset : Nat} {refused : Bool} {fault : Fault}
    (taken : (if refused then .error fault else .ok (progress.openScope opening offset) :
      Except Fault Progress) = .ok next) : next.targets = progress.targets := by
  cases refused with
  | true => cases taken
  | false =>
      cases taken
      rfl

/-- Only `extends` directives are noted as targets, and none of them is passed over. -/
theorem step_targets (taken : progress.step token = .ok next) :
    next.targets = progress.targets ++ token.extends?.toList := by
  unfold step at taken
  unfold Token.extends?
  cases kind : token.kind with
  | text content =>
      rw [kind] at taken
      cases taken
      exact (List.append_nil _).symm
  | output expression =>
      rw [kind] at taken
      cases taken
      exact (List.append_nil _).symm
  | directive keyword arguments =>
      rw [kind] at taken
      dsimp only at taken ⊢
      by_cases extending : keyword = "extends"
      · subst extending
        rw [if_neg extends_not_terminator, if_pos rfl] at taken
        rw [if_pos rfl]
        exact extend_targets taken
      · rw [if_neg extending, Option.toList_none, List.append_nil]
        rw [if_neg extending] at taken
        split at taken
        · exact terminate_targets taken
        · split at taken
          · unfold openBlock at taken
            exact opened_targets taken
          · split at taken
            · exact opened_targets taken
            · split at taken
              · exact opened_targets taken
              · cases taken
                rfl

end Progress

/-- A file that was read to its end has noted all it extends. -/
theorem read_targets {progress : Progress} {tokens : List Token} {nodes : List Node}
    (read : (readFrom progress tokens).outcome = .ok nodes) :
    ((readFrom progress tokens).parent.map Prod.fst).toList =
      progress.targets ++ tokens.filterMap Token.extends? := by
  induction tokens generalizing progress with
  | nil =>
      rw [List.filterMap_nil, List.append_nil]
      rfl
  | cons token rest later =>
      unfold readFrom at read ⊢
      split at read
      · next next taken =>
          rw [later read, Progress.step_targets taken, List.append_assoc]
          cases said : token.extends? <;> simp [said]
      · cases read

/-- Reading notes the first target and no other, also where it fails later. -/
theorem read_notes_first (progress : Progress) (tokens : List Token) :
    ((readFrom progress tokens).parent.map Prod.fst).toList <+:
      progress.targets ++ tokens.filterMap Token.extends? := by
  induction tokens generalizing progress with
  | nil => exact List.prefix_append _ _
  | cons token rest later =>
      unfold readFrom
      split
      · next next taken =>
          have further := later next
          rw [Progress.step_targets taken, List.append_assoc] at further
          cases said : token.extends? <;> simpa [said] using further
      · exact List.prefix_append _ _

/-- Where a target has been noted, the reading ends at the next `extends`, whatever that names. -/
theorem read_extends_again {progress : Progress} {token : Token} {target arguments : String}
    {place : Nat} (noted : progress.parent = some (target, place))
    (directive : token.kind = .directive "extends" arguments) (rest : List Token) :
    ∃ problem, (problem = .extendsTwice target ∨ problem = .extendsNothing) ∧
      readFrom progress (token :: rest) =
        ⟨some (target, place), .error (.directive problem token.offset)⟩ := by
  have refused : ∃ problem, (problem = .extendsTwice target ∨ problem = .extendsNothing) ∧
      progress.step token = .error (.directive problem token.offset) := by
    simp only [Progress.step, directive, extends_not_terminator, if_false, if_true,
      Progress.extend, noteParent, noted]
    split
    · exact ⟨_, .inr rfl, rfl⟩
    · exact ⟨_, .inl rfl, rfl⟩
  obtain ⟨problem, which, fault⟩ := refused
  exact ⟨problem, which, by rw [read_cons, fault, noted]⟩

/-- A file with a second `extends` is at fault, and what that directive names is not noted, so
that it is not loaded either. -/
theorem extends_once (source : String) :
    (∀ target offset, (readSource source).parent = some (target, offset) →
        (extended source).head? = some target) ∧
      (1 < (extended source).length → ∃ fault, (readSource source).outcome = .error fault) := by
  rw [read_source_eq]
  constructor
  · intro target offset noted
    have first := read_notes_first .start (tokenize source)
    rw [noted] at first
    obtain ⟨more, told⟩ := first
    have all : target :: more = extended source := told
    rw [← all]
    rfl
  · intro twice
    cases outcome : (readFrom .start (tokenize source)).outcome with
    | error fault => exact ⟨fault, rfl⟩
    | ok nodes =>
        have all : _ = extended source := read_targets outcome
        rw [← all] at twice
        cases parent : (readFrom .start (tokenize source)).parent <;> simp [parent] at twice

theorem extended_of_read {text : String} {parent : Option (String × Nat)} {nodes : List Node}
    (read : readSource text = ⟨parent, .ok nodes⟩) :
    extended text = (parent.map Prod.fst).toList := by
  rw [read_source_eq] at read
  have noted := read_targets (congrArg Reading.outcome read)
  rw [congrArg Reading.parent read] at noted
  exact noted.symm

variable {load : Loader} {names asked path : List String} {name : String} {template : Template}

theorem chain_linked (found : Found load names name asked template) :
    Linked load template.chain := by
  induction found with
  | alone loaded read => exact .last loaded (extended_of_read read)
  | extending loaded read fresh above linked =>
      have only := extended_of_read read
      refine .link loaded ?_ linked
      rw [above.named]
      exact only

theorem walk_on_chain {chain : List String} (linked : Linked load chain)
    (walk : path.IsChain (Extends load)) (starts : path.head? = chain.head?) : path <+: chain := by
  induction linked generalizing path with
  | @last name text loaded alone =>
      match path, starts with
      | [], _ => exact List.nil_prefix
      | [_], starts =>
          cases starts
          exact List.prefix_rfl
      | first :: second :: rest, starts =>
          cases starts
          obtain ⟨other, loaded_other, named⟩ := (List.isChain_cons_cons.mp walk).1
          cases loaded.symm.trans loaded_other
          rw [alone] at named
          cases named
  | @link name text target above loaded only further onward =>
      match path, starts with
      | [], _ => exact List.nil_prefix
      | [_], starts =>
          cases starts
          exact List.prefix_append [name] _
      | first :: second :: rest, starts =>
          cases starts
          obtain ⟨step, rest_walk⟩ := List.isChain_cons_cons.mp walk
          obtain ⟨other, loaded_other, named⟩ := step
          cases loaded.symm.trans loaded_other
          rw [only, List.mem_singleton] at named
          subst named
          exact List.cons_prefix_cons.mpr ⟨rfl, onward rest_walk rfl⟩

/-- Compiling ends over every library. It gives templates whose chain starts at the name
asked for, goes along the one `extends` directive of each file to the next, meets no name
twice, and ends at a file without one. Where the way along `extends` directives comes back
to a name on it, compiling fails. -/
theorem compile_follows_extends (library : Library) (name : String) :
    (∃ asked, search library.loader [name] name = some ⟨asked, compile library name⟩ ∧
      asked.length ≤ library.texts.length + 1) ∧
      (∀ template, compile library name = .ok template →
        template.chain.head? = some name ∧ template.chain.Nodup ∧
          Linked library.loader template.chain) ∧
      ∀ path : List String, path.head? = some name → path.IsChain (Extends library.loader) →
        ¬ path.Nodup → ∃ error, compile library name = .error error := by
  obtain ⟨asked, searched, few⟩ := compile_searched library name
  refine ⟨⟨asked, searched, few⟩, ?_, ?_⟩
  · intro template compiled
    rw [compiled] at searched
    have found := found_of_search searched
    exact ⟨congrArg some found.named, found.chain_distinct, chain_linked found⟩
  · intro path starts walk meets
    cases compiled : compile library name with
    | error error => exact ⟨error, rfl⟩
    | ok template =>
        rw [compiled] at searched
        have found := found_of_search searched
        have starts_chain : path.head? = template.chain.head? :=
          starts.trans (congrArg some found.named).symm
        have onChain := walk_on_chain (chain_linked found) walk starts_chain
        exact absurd (found.chain_distinct.sublist onChain.sublist) meets

end Letterpress.Template
