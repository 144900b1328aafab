import Letterpress.Proofs.Engine.Session

/-!
What an engine does to a disk: it saves programs that it has just made from the files that
are there, and it drops programs. A property of disks that survives both survives all that
an engine does, for whatever names, and whether or not it fails.
-/

namespace Letterpress

open Files

/-- Saving a program that was just made takes no property from a disk, nor does failing to. -/
def Engine.Saves (engine : Engine) (holds : Disk → Prop) : Prop :=
  ∀ {disk name template program now}, holds disk →
    engine.compile disk name = .ok template → template.generate now = .ok program →
      holds (engine.store.save disk program now).2

def Engine.Removes (engine : Engine) (holds : Disk → Prop) : Prop :=
  ∀ {disk after name removed now}, holds disk →
    engine.store.remove disk name now = .ok (removed, after) → holds after

structure Engine.Upholds (engine : Engine) (holds : Disk → Prop) : Prop where
  saves : ∀ {disk name template program now}, holds disk →
    engine.compile disk name = .ok template → template.generate now = .ok program →
      holds (engine.store.save disk program now).2
  removes : ∀ {disk after name removed now}, holds disk →
    engine.store.remove disk name now = .ok (removed, after) → holds after
  clears : ∀ {disk now}, holds disk → holds (engine.store.clear disk now).2

def Keeps {Result : Type} (holds : Disk → Prop) (action : Action Result) : Prop :=
  ∀ world, holds world.disk → holds (action.run.run world).2.disk

section Keeping

variable {holds : Disk → Prop} {Result Next : Type}

namespace Keeps

theorem bind {first : Action Result} {next : Result → Action Next} (first_keeps : Keeps holds first)
    (next_keeps : ∀ result, Keeps holds (next result)) : Keeps holds (first >>= next) := by
  intro world held
  have held_after := first_keeps world held
  rw [run_bind]
  rcases ran : first.run.run world with ⟨outcome, after⟩
  rw [ran] at held_after
  cases outcome with
  | ok result => exact next_keeps result after held_after
  | error error => exact held_after

theorem of_outcome (outcome : Except TemplateError Result) :
    Keeps holds (ExceptT.mk (pure outcome)) := by
  intro world held
  rw [run_outcome]
  exact held

theorem on_outcome {outcome : Except TemplateError Result} {next : Result → Action Next}
    (next_keeps : ∀ result, outcome = .ok result → Keeps holds (next result)) :
    Keeps holds (ExceptT.mk (pure outcome) >>= next) := by
  intro world held
  rw [run_bind, run_outcome]
  cases outcome with
  | ok result => exact next_keeps result rfl world held
  | error error => exact held

theorem of_pure (result : Result) : Keeps holds (pure result) := by
  intro world held
  rw [run_pure]
  exact held

theorem of_throw (error : TemplateError) : Keeps holds (throw error : Action Result) := by
  intro world held
  rw [run_throw]
  exact held

theorem stop {next : Result → Action Next} (error : TemplateError) :
    Keeps holds ((throw error : Action Result) >>= next) := by
  intro world held
  rw [run_bind, run_throw]
  exact held

theorem of_set {after : World} (held_after : holds after.disk) : Keeps holds (set after) := by
  intro world _
  rw [run_set]
  exact held_after

/-- Looks at the world, and goes on from a disk that has the property. -/
theorem of_look {next : World → Action Next}
    (next_keeps : ∀ world, holds world.disk → Keeps holds (next world)) :
    Keeps holds (get >>= next) := by
  intro world held
  rw [run_bind, run_get]
  exact next_keeps world held world held

end Keeps

variable {engine : Engine}

theorem build_keeps (saves : engine.Saves holds) (name : String) :
    Keeps holds (engine.build name) := by
  unfold Engine.build
  apply Keeps.of_look
  intro world held
  apply Keeps.on_outcome
  intro template compiled
  apply Keeps.on_outcome
  intro program generated
  have held_after := saves held compiled generated
  generalize engine.store.save world.disk program world.now = saving at held_after ⊢
  obtain ⟨saved, disk⟩ := saving
  apply Keeps.bind
  · exact Keeps.of_set held_after
  · intro _
    apply Keeps.on_outcome
    intro _ _
    apply Keeps.bind
    · exact Keeps.of_set held_after
    · intro _
      exact Keeps.of_pure program

theorem program_keeps (saves : engine.Saves holds) (name : String) :
    Keeps holds (engine.program name) := by
  unfold Engine.program
  apply Keeps.on_outcome
  intro path _
  apply Keeps.of_look
  intro world held
  cases world.disk.isFile path with
  | false => exact Keeps.stop _
  | true =>
      simp only [Bool.not_true, Bool.false_eq_true, if_false]
      split
      · split
        · exact Keeps.of_pure _
        · exact build_keeps saves name
      · exact build_keeps saves name

theorem render_value_keeps (saves : engine.Saves holds) (name : String) (value : Value) :
    Keeps holds (engine.renderValue name value) := by
  unfold Engine.renderValue
  apply Keeps.on_outcome
  intro context _
  apply Keeps.bind (program_keeps saves name)
  intro program
  exact Keeps.of_outcome _

theorem render_keeps (saves : engine.Saves holds) (name : String) (data : Datum) :
    Keeps holds (engine.render name data) := by
  unfold Engine.render
  apply Keeps.on_outcome
  intro value _
  exact render_value_keeps saves name value

theorem build_entries_keeps {fuel : Nat}
    (each : ∀ names entry, Keeps holds (engine.buildEntry fuel names entry)) (names : List String)
    (children : List (String × Entry)) : Keeps holds (engine.buildEntries fuel names children) := by
  induction children with
  | nil =>
      unfold Engine.buildEntries
      exact Keeps.of_pure 0
  | cons child rest later =>
      unfold Engine.buildEntries
      apply Keeps.bind (each _ _)
      intro first
      apply Keeps.bind later
      intro others
      exact Keeps.of_pure _

theorem build_entry_keeps (saves : engine.Saves holds) (fuel : Nat) (names : List String)
    (entry : Entry) : Keeps holds (engine.buildEntry fuel names entry) := by
  induction fuel generalizing names entry with
  | zero =>
      cases entry with
      | file content modified =>
          unfold Engine.buildEntry
          exact Keeps.bind (build_keeps saves _) fun _ => Keeps.of_pure 1
      | folder modified =>
          unfold Engine.buildEntry
          exact Keeps.of_pure 0
  | succ fuel deeper =>
      cases entry with
      | file content modified =>
          unfold Engine.buildEntry
          exact Keeps.bind (build_keeps saves _) fun _ => Keeps.of_pure 1
      | folder modified =>
          unfold Engine.buildEntry
          apply Keeps.of_look
          intro world _
          dsimp only
          split
          · exact Keeps.of_throw _
          · exact build_entries_keeps deeper names _

theorem precompile_all_keeps (saves : engine.Saves holds) :
    Keeps holds engine.precompileAll := by
  unfold Engine.precompileAll
  apply Keeps.of_look
  intro world _
  dsimp only
  split
  · exact Keeps.of_throw _
  · split
    · exact Keeps.of_pure 0
    · exact build_entry_keeps saves _ _ _

theorem invalidate_keeps (removes : engine.Removes holds) (name : String) :
    Keeps holds (engine.invalidate name) := by
  unfold Engine.invalidate
  apply Keeps.of_look
  intro world held
  apply Keeps.on_outcome
  intro result removed
  apply Keeps.bind (Keeps.of_set (removes held removed))
  intro _
  exact Keeps.of_pure _

theorem clear_keeps
    (clears : ∀ {disk now}, holds disk → holds (engine.store.clear disk now).2) :
    Keeps holds engine.clear := by
  unfold Engine.clear
  apply Keeps.of_look
  intro world held
  dsimp only
  apply Keeps.bind
  · exact Keeps.of_set (clears held)
  · intro _
    exact Keeps.of_outcome _

theorem perform_keeps {session : Session} (action : Engine → Action Result) (now : Instant)
    (keeps : Keeps holds (action session.engine)) (held : holds session.world.disk) :
    holds (session.perform now action).2.world.disk :=
  keeps { session.world with now } held

/-- A property survives all requests but for opening the engine again, which may not. -/
theorem serve_upholds {session : Session} (site : Site) (now : Instant) (request : Request)
    (upholds : session.engine.Upholds holds)
    (opens : ∀ options, holds (site.openAt session.world.disk options now).2)
    (held : holds session.world.disk) : holds (session.serve site now request).world.disk := by
  cases request with
  | reopen options =>
      have held_after := opens options
      rw [Session.serve]
      split
      · next engine after opened =>
          rw [opened] at held_after
          exact held_after
      · next error after opened =>
          rw [opened] at held_after
          exact held_after
  | render name data =>
      rw [Session.serve]
      exact perform_keeps (·.render name data) now (render_keeps upholds.saves name data) held
  | renderValue name value =>
      rw [Session.serve]
      have keeps := render_value_keeps upholds.saves name value
      exact perform_keeps (·.renderValue name value) now keeps held
  | precompileAll =>
      rw [Session.serve]
      exact perform_keeps (·.precompileAll) now (precompile_all_keeps upholds.saves) held
  | invalidate name =>
      rw [Session.serve]
      exact perform_keeps (·.invalidate name) now (invalidate_keeps upholds.removes name) held
  | clear =>
      rw [Session.serve]
      exact perform_keeps (·.clear) now (clear_keeps upholds.clears) held

end Keeping

end Letterpress
