import Letterpress.Proofs.Program.Generation
import Letterpress.Proofs.Template.Library
import Letterpress.Proofs.Template.OnePass
import Mathlib.Data.List.Nodup

/-!
Compiling over anything that answers names, with the names in the order in which they are
asked for. A loader may answer with ever new texts or not at all, so a search need not end;
it ends over every library, as compiling does. A search that ends with a template has asked
for the names of its chain and for no others.
-/

namespace Letterpress

/-- Answers names with texts. A call that never returns has no answer. -/
abbrev Loader := String → Option (Except TemplateError String)

def Library.loader (library : Library) : Loader := fun name => some (library.load name)

namespace Template

/-- The names that were asked for, in their order, and what came out. -/
structure Searched where
  asked : List String
  outcome : Except TemplateError Template

def Searched.below (above : Searched) (name : String) (reading : Reading) : Searched where
  asked := name :: above.asked
  outcome :=
    match above.outcome with
    | .error error => .error error
    | .ok parent => assemble name reading (parent.page :: parent.ancestors)

end Template

namespace Loader

open Template

/-- Loads a template and everything it extends. `names` are those on the way, of which the
last is to be loaded; nothing comes out if that never ends. -/
def search (load : Loader) (names : List String) (name : String) : Option Searched :=
  match load name with
  | none => none
  | some (.error error) => some ⟨[name], .error error⟩
  | some (.ok text) =>
      match (readSource text).parent with
      | none => some ⟨[name], assemble name (readSource text) []⟩
      | some (target, offset) =>
          if target ∈ names then
            some ⟨[name], .error (.directive name (.circular (names ++ [target])) offset)⟩
          else do
            let above ← load |>.search (names ++ [target]) target
            return above.below name (readSource text)
partial_fixpoint

end Loader

namespace Template

open Loader

variable {load other : Loader} {names asked : List String} {name text target : String}
  {offset : Nat} {library : Library} {template : Template}

theorem search_refused {error : TemplateError} (loaded : load name = some (.error error)) :
    search load names name = some ⟨[name], .error error⟩ := by
  rw [search, loaded]

theorem search_alone (loaded : load name = some (.ok text))
    (alone : (readSource text).parent = none) :
    search load names name = some ⟨[name], assemble name (readSource text) []⟩ := by
  rw [search, loaded]
  simp only [alone]

theorem search_circular (loaded : load name = some (.ok text))
    (extended : (readSource text).parent = some (target, offset)) (seen : target ∈ names) :
    search load names name =
      some ⟨[name], .error (.directive name (.circular (names ++ [target])) offset)⟩ := by
  rw [search, loaded]
  simp only [extended, if_pos seen]

theorem search_extending (loaded : load name = some (.ok text))
    (extended : (readSource text).parent = some (target, offset)) (fresh : target ∉ names) :
    search load names name =
      (search load (names ++ [target]) target).map (·.below name (readSource text)) := by
  rw [search, loaded]
  simp only [extended, if_neg fresh]
  cases search load (names ++ [target]) target <;> rfl

/-- Over a library every search ends as compiling does. It asks for one name more than for
which it reads a text for the first time. -/
theorem search_library (library : Library) (trail : Trail) (name : String) :
    ∃ asked, search library.loader trail.names name =
        some ⟨asked, compileFrom library trail name⟩ ∧
      asked.length ≤ trail.unread library + 1 := by
  fun_induction compileFrom library trail name with
  | case1 trail name error loaded =>
      exact ⟨[name], search_refused (congrArg some loaded), by simp⟩
  | case2 trail name text loaded alone =>
      exact ⟨[name], search_alone (congrArg some loaded) alone, by simp⟩
  | case3 trail name text loaded target offset extended seen =>
      exact ⟨[name], search_circular (congrArg some loaded) extended seen, by simp⟩
  | case4 trail name text loaded target offset extended fresh error failed above =>
      obtain ⟨asked, searched, few⟩ := above
      have fewer := trail.unread_extend_lt library extended (library.mem_texts loaded) fresh
      change search library.loader (trail.names ++ [target]) target = _ at searched
      refine ⟨name :: asked, ?_, by rw [List.length_cons]; omega⟩
      rw [search_extending (congrArg some loaded) extended fresh, searched, failed]
      rfl
  | case5 trail name text loaded target offset extended fresh parent compiled above =>
      obtain ⟨asked, searched, few⟩ := above
      have fewer := trail.unread_extend_lt library extended (library.mem_texts loaded) fresh
      change search library.loader (trail.names ++ [target]) target = _ at searched
      refine ⟨name :: asked, ?_, by rw [List.length_cons]; omega⟩
      rw [search_extending (congrArg some loaded) extended fresh, searched, compiled]
      rfl

theorem compile_searched (library : Library) (name : String) :
    ∃ asked, search library.loader [name] name = some ⟨asked, compile library name⟩ ∧
      asked.length ≤ library.texts.length + 1 := by
  obtain ⟨asked, searched, few⟩ := search_library library (Trail.ofName name) name
  have unread : (Trail.ofName name).unread library ≤ library.texts.length :=
    List.length_filter_le _ _
  exact ⟨asked, searched, by omega⟩

theorem compile_of_search (searched : search library.loader [name] name =
    some ⟨asked, .ok template⟩) : compile library name = .ok template := by
  obtain ⟨others, again, -⟩ := compile_searched library name
  rw [searched] at again
  injection again with same
  exact (congrArg Searched.outcome same).symm

/-- What a search that found a template has done: the file was loaded and has no fault, and
it extends nothing, or what it extends was found. -/
inductive Found (load : Loader) : List String → String → List String → Template → Prop
  | alone {names : List String} {name text : String} {nodes : List Node}
      (loaded : load name = some (.ok text)) (read : readSource text = ⟨none, .ok nodes⟩) :
      Found load names name [name] ⟨⟨name, nodes⟩, []⟩
  | extending {names asked : List String} {name text target : String} {offset : Nat}
      {nodes : List Node} {parent : Template} (loaded : load name = some (.ok text))
      (read : readSource text = ⟨some (target, offset), .ok nodes⟩) (fresh : target ∉ names)
      (above : Found load (names ++ [target]) target asked parent) :
      Found load names name (name :: asked) ⟨⟨name, nodes⟩, parent.page :: parent.ancestors⟩

theorem found_of_assembled {reading : Reading} {ancestors : List Layer}
    (assembled : assemble name reading ancestors = .ok template) :
    ∃ nodes, reading.outcome = .ok nodes ∧ template = ⟨⟨name, nodes⟩, ancestors⟩ := by
  unfold assemble at assembled
  split at assembled
  · next nodes read =>
      cases assembled
      exact ⟨nodes, read, rfl⟩
  · cases assembled

theorem found_of_search (searched : search load names name = some ⟨asked, .ok template⟩) :
    Found load names name asked template := by
  have all : ∀ names name result, search load names name = some result →
      ∀ template, result.outcome = .ok template → Found load names name result.asked template := by
    apply search.partial_correctness
    intro search found names name result searched template came
    split at searched
    · cases searched
    · cases searched
      cases came
    · next text loaded =>
        split at searched
        · next alone =>
            cases searched
            obtain ⟨nodes, read, rfl⟩ := found_of_assembled came
            exact .alone loaded (by rw [← alone, ← read])
        · next target offset extended =>
            split at searched
            · cases searched
              cases came
            · next fresh =>
                obtain ⟨above, above_searched, same⟩ := Option.bind_eq_some_iff.mp searched
                cases same
                simp only [Searched.below] at came
                split at came
                · cases came
                · next parent parent_came =>
                    obtain ⟨nodes, read, rfl⟩ := found_of_assembled came
                    have above_found := found _ _ _ above_searched parent parent_came
                    exact .extending loaded (by rw [← extended, ← read]) fresh above_found
  exact all names name _ searched template rfl

theorem search_ends_refused {outcome : Except TemplateError Template} {refused : String}
    {error : TemplateError} (searched : search load names name = some ⟨asked, outcome⟩)
    (member : refused ∈ asked) (answer : load refused = some (.error error)) :
    asked.getLast? = some refused ∧ outcome = .error error := by
  have all : ∀ names name result, search load names name = some result →
      refused ∈ result.asked →
        result.asked.getLast? = some refused ∧ result.outcome = .error error := by
    apply search.partial_correctness
    intro search ends names name result searched member
    split at searched
    · cases searched
    · next failure loaded =>
        cases searched
        cases List.mem_singleton.mp member
        cases loaded.symm.trans answer
        exact ⟨rfl, rfl⟩
    · next text loaded =>
        have elsewhere : refused ≠ name := by
          rintro rfl
          cases loaded.symm.trans answer
        split at searched
        · cases searched
          exact absurd (List.mem_singleton.mp member) elsewhere
        · next target offset extended =>
            split at searched
            · cases searched
              exact absurd (List.mem_singleton.mp member) elsewhere
            · obtain ⟨above, above_searched, same⟩ := Option.bind_eq_some_iff.mp searched
              cases same
              have member_above := (List.mem_cons.mp member).resolve_left elsewhere
              obtain ⟨last, failed⟩ := ends _ _ _ above_searched member_above
              refine ⟨?_, ?_⟩
              · rw [Searched.below, List.getLast?_cons, last]
                rfl
              · simp only [Searched.below, failed]
  exact all names name _ searched member

theorem search_of_found (found : Found load names name asked template) :
    search load names name = some ⟨asked, .ok template⟩ := by
  induction found with
  | alone loaded read =>
      rw [search_alone loaded (by rw [read]), read]
      rfl
  | extending loaded read fresh above searched =>
      rw [search_extending loaded (by rw [read]) fresh, searched, read]
      rfl

namespace Found

theorem named (found : Found load names name asked template) : template.page.name = name := by
  cases found <;> rfl

/-- The names asked for are those that went into the template. -/
theorem asked_chain (found : Found load names name asked template) : asked = template.chain := by
  induction found with
  | alone => rfl
  | extending loaded read fresh above same =>
      rw [same]
      rfl

theorem loaded (found : Found load names name asked template) :
    ∀ source ∈ template.chain, ∃ text, load source = some (.ok text) := by
  induction found with
  | @alone _ name text nodes loaded read =>
      exact List.forall_mem_singleton.mpr ⟨text, loaded⟩
  | @extending _ _ name text _ _ _ _ loaded read fresh above further =>
      exact List.forall_mem_cons.mpr ⟨⟨text, loaded⟩, further⟩

theorem distinct (found : Found load names name asked template) (here : name ∈ names)
    (apart : names.Nodup) : (names ++ template.ancestors.map Layer.name).Nodup := by
  induction found with
  | alone => simpa using apart
  | @extending names asked name text target offset nodes parent loaded read fresh above further =>
      have longer : (names ++ [target]).Nodup := by
        rw [← List.concat_eq_append]
        exact apart.concat fresh
      have all := further (by simp) longer
      rw [List.append_assoc, List.singleton_append] at all
      rw [List.map_cons, above.named]
      exact all

theorem chain_distinct (found : Found load [name] name asked template) : template.chain.Nodup := by
  have all := found.distinct (by simp) (List.nodup_singleton name)
  rw [Template.chain, found.named]
  exact all

/-- The files of the chain are all that counts. -/
theorem elsewhere (found : Found load names name asked template)
    (same : ∀ source ∈ template.chain, other source = load source) :
    Found other names name asked template := by
  induction found with
  | alone loaded read => exact .alone ((same _ List.mem_cons_self).trans loaded) read
  | extending loaded read fresh above above_found =>
      refine .extending ((same _ List.mem_cons_self).trans loaded) read fresh ?_
      exact above_found fun source member => same source (List.mem_cons_of_mem _ member)

end Found

/-- A compile that gives a template has asked for the names of its chain, each once and in
their order. Over anything that answers these alike the same template comes out, whatever
becomes of other names; and its programs carry these names as their sources. -/
theorem chain_is_all_asked {load : Loader} {name : String} {asked : List String}
    {template : Template} (compiled : search load [name] name = some ⟨asked, .ok template⟩) :
    asked = template.chain ∧ asked.Nodup ∧
      (∀ other : Loader, (∀ source ∈ template.chain, other source = load source) →
        search other [name] name = some ⟨asked, .ok template⟩) ∧
      (∀ library : Library, (∀ source ∈ template.chain, some (library.load source) = load source) →
        compile library name = .ok template) ∧
      (∀ now program, template.generate now = .ok program → program.sources = asked) ∧
      ∀ now later, template.generate later =
        (template.generate now).map fun program => { program with compiledAt := later } := by
  have found := found_of_search compiled
  refine ⟨found.asked_chain, found.asked_chain ▸ found.chain_distinct, ?_, ?_, ?_,
    generate_later template⟩
  · intro other same
    exact search_of_found (found.elsewhere same)
  · intro library same
    exact compile_of_search (search_of_found (found.elsewhere same))
  · intro now program generated
    rw [(generate_eq_ok generated).2.1, found.asked_chain]

def shelf : Loader := fun name =>
  (Library.find? name
    [("page", "\x7b% block title %\x7d\x7b% extends 'base' %\x7dHi\x7b% endblock %\x7d"),
      ("base", "<main>")]).map .ok

theorem shelf_asked :
    search shelf ["page"] "page" = some ⟨["page", "base"],
        .ok ⟨⟨"page", [.block "title" [.text "Hi"]]⟩, [⟨"base", [.text "<main>"]⟩]⟩⟩ ∧
      shelf "other" = none ∧
      compile (.ofFiles [("other", "\x7b%"), ("base", "<main>"),
        ("page", "\x7b% block title %\x7d\x7b% extends 'base' %\x7dHi\x7b% endblock %\x7d")])
          "page" = .ok ⟨⟨"page", [.block "title" [.text "Hi"]]⟩, [⟨"base", [.text "<main>"]⟩]⟩ := by
  have page_read : readSource
      "\x7b% block title %\x7d\x7b% extends 'base' %\x7dHi\x7b% endblock %\x7d" =
        ⟨some ("base", 17), .ok [.block "title" [.text "Hi"]]⟩ := by
    rw [read_source_eq]
    rfl
  have base_read : readSource "<main>" = ⟨none, .ok [.text "<main>"]⟩ := by
    rw [read_source_eq]
    rfl
  have found : Found shelf ["page"] "page" ["page", "base"]
      ⟨⟨"page", [.block "title" [.text "Hi"]]⟩, [⟨"base", [.text "<main>"]⟩]⟩ :=
    .extending rfl page_read (by decide) (.alone rfl base_read)
  refine ⟨search_of_found found, rfl, ?_⟩
  apply (chain_is_all_asked (search_of_found found)).2.2.2.1
  intro source member
  simp only [Template.chain, List.map_cons, List.map_nil, List.mem_cons, List.not_mem_nil,
    or_false] at member
  rcases member with rfl | rfl <;> rfl

end Template

end Letterpress
