import Letterpress.Template.Library

/-!
What compiling depends on. It asks the library for the template and for whatever the
texts on the way extend; two libraries that agree there compile to the same.
-/

namespace Letterpress.Template

variable {library other : Library} {trail : Trail} {name text target : String} {offset : Nat}

theorem compile_refused {error : TemplateError} (loaded : library.load name = .error error) :
    compileFrom library trail name = .error error := by
  unfold compileFrom
  split
  · next failure again =>
      rw [loaded] at again
      cases again
      rfl
  · next text again =>
      rw [loaded] at again
      cases again

theorem load_of_compile {template : Template}
    (compiled : compileFrom library trail name = .ok template) :
    ∃ text, library.load name = .ok text := by
  cases loaded : library.load name with
  | error error =>
      rw [compile_refused loaded] at compiled
      cases compiled
  | ok text => exact ⟨text, rfl⟩

theorem compile_alone (loaded : library.load name = .ok text)
    (alone : (readSource text).parent = none) :
    compileFrom library trail name = assemble name (readSource text) [] := by
  unfold compileFrom
  split
  · next failure again =>
      rw [loaded] at again
      cases again
  · next text again =>
      rw [loaded] at again
      cases again
      split
      · rfl
      · next extended =>
          rw [alone] at extended
          cases extended

theorem compile_circular (loaded : library.load name = .ok text)
    (extended : (readSource text).parent = some (target, offset)) (seen : target ∈ trail.names) :
    compileFrom library trail name =
      .error (.directive name (.circular (trail.names ++ [target])) offset) := by
  unfold compileFrom
  split
  · next failure again =>
      rw [loaded] at again
      cases again
  · next text again =>
      rw [loaded] at again
      cases again
      split
      · next alone =>
          rw [extended] at alone
          cases alone
      · next target offset found =>
          rw [extended] at found
          cases found
          exact dif_pos seen

theorem compile_extending (loaded : library.load name = .ok text)
    (extended : (readSource text).parent = some (target, offset)) (fresh : target ∉ trail.names) :
    compileFrom library trail name =
      match compileFrom library (trail.extend text target offset extended) target with
      | .error error => .error error
      | .ok parent => assemble name (readSource text) (parent.page :: parent.ancestors) := by
  conv =>
    lhs
    unfold compileFrom
  split
  · next failure again =>
      rw [loaded] at again
      cases again
  · next text again =>
      rw [loaded] at again
      cases again
      split
      · next alone =>
          rw [extended] at alone
          cases alone
      · next target offset found =>
          have same := extended.symm.trans found
          cases same
          exact dif_neg fresh

/-- Names are used that the texts of used names extend. -/
def Closed (library : Library) (used : String → Prop) : Prop :=
  ∀ {name text target offset}, used name → library.load name = .ok text →
    (readSource text).parent = some (target, offset) → used target

theorem compile_from_agrees {used : String → Prop}
    (same : ∀ name, used name → other.load name = library.load name)
    (closed : Closed library used) (trail : Trail) (name : String) (asked : used name) :
    compileFrom other trail name = compileFrom library trail name := by
  fun_induction compileFrom library trail name with
  | case1 trail name error loaded => exact compile_refused ((same name asked).trans loaded)
  | case2 trail name text loaded alone =>
      exact compile_alone ((same name asked).trans loaded) alone
  | case3 trail name text loaded target offset extended seen =>
      exact compile_circular ((same name asked).trans loaded) extended seen
  | case4 trail name text loaded target offset extended fresh error failed agrees =>
      have target_used := closed asked loaded extended
      rw [compile_extending ((same name asked).trans loaded) extended fresh, agrees target_used,
        failed]
  | case5 trail name text loaded target offset extended fresh parent compiled agrees =>
      have target_used := closed asked loaded extended
      rw [compile_extending ((same name asked).trans loaded) extended fresh, agrees target_used,
        compiled]

theorem assemble_name {reading : Reading} {ancestors : List Layer} {template : Template}
    (assembled : assemble name reading ancestors = .ok template) : template.page.name = name := by
  unfold assemble at assembled
  split at assembled <;> cases assembled
  rfl

theorem compile_from_name {template : Template}
    (compiled : compileFrom library trail name = .ok template) : template.page.name = name := by
  fun_induction compileFrom library trail name with
  | case1 => cases compiled
  | case2 => exact assemble_name compiled
  | case3 => cases compiled
  | case4 => cases compiled
  | case5 => exact assemble_name compiled

theorem assemble_chain {reading : Reading} {ancestors : List Layer} {template : Template}
    (assembled : assemble name reading ancestors = .ok template) :
    template.chain = name :: ancestors.map Layer.name := by
  unfold assemble at assembled
  split at assembled <;> cases assembled
  rfl

theorem chain_used {used : String → Prop} {template : Template} (closed : Closed library used)
    (asked : used name) (compiled : compileFrom library trail name = .ok template) :
    ∀ source ∈ template.chain, used source := by
  fun_induction compileFrom library trail name generalizing template with
  | case1 => cases compiled
  | case2 trail name text loaded alone =>
      rw [assemble_chain compiled]
      intro source member
      exact List.mem_singleton.mp member ▸ asked
  | case3 => cases compiled
  | case4 => cases compiled
  | case5 trail name text loaded target offset extended fresh parent parent_compiled parent_used =>
      rw [assemble_chain compiled]
      intro source member
      rcases List.mem_cons.mp member with same | above
      · exact same ▸ asked
      · exact parent_used (closed asked loaded extended) parent_compiled source above

/-- Nothing goes into a template without what its text extends. -/
theorem chain_closed {template : Template}
    (compiled : compileFrom library trail name = .ok template) :
    Closed library (· ∈ template.chain) := by
  fun_induction compileFrom library trail name generalizing template with
  | case1 => cases compiled
  | case2 trail name text loaded alone =>
      rw [assemble_chain compiled]
      intro source other target offset member source_loaded extended
      cases List.mem_singleton.mp member
      cases loaded.symm.trans source_loaded
      rw [alone] at extended
      cases extended
  | case3 => cases compiled
  | case4 => cases compiled
  | case5 trail name text loaded target offset extended fresh parent parent_compiled closed =>
      rw [assemble_chain compiled]
      have above_closed : Closed library (· ∈ parent.chain) := closed parent_compiled
      intro source other wanted place member source_loaded source_extended
      rcases List.mem_cons.mp member with same | above
      · subst same
        cases loaded.symm.trans source_loaded
        cases extended.symm.trans source_extended
        rw [← compile_from_name parent_compiled]
        exact List.mem_cons_of_mem source List.mem_cons_self
      · exact List.mem_cons_of_mem name (above_closed above source_loaded source_extended)

end Letterpress.Template
