import Letterpress.Engine.Threads
import Letterpress.Proofs.Engine.Failure
import Letterpress.Proofs.Engine.Frame
import Mathlib.Algebra.BigOperators.Fin
import Mathlib.Algebra.Order.BigOperators.Group.Finset

/-!
Threads that want the program of one template, in any order of their turns. A thread that is
alone does what getting a program does. Among many, one at a time is between taking the lock
and giving it back; so where stored programs are used, the first to get there builds the
program and all get the same one, and where they are not, each thread builds its own. No
order of turns keeps the threads from getting done.
-/

namespace Letterpress

open Files

namespace Stage

def isInside : Stage → Bool
  | .checking | .building | .storing _ | .counting _ | .leaving _ => true
  | .arriving | .looking | .waiting | .done _ => false

def remaining : Stage → Nat
  | .arriving => 8
  | .looking => 7
  | .waiting => 6
  | .checking => 5
  | .building => 4
  | .storing _ => 3
  | .counting _ => 2
  | .leaving _ => 1
  | .done _ => 0

end Stage

namespace Crowd

variable {count : Nat} {crowd : Crowd count} {thread other : Fin count} {stage : Stage}

@[simp] theorem move_self : (crowd.move thread stage).stages thread = stage := if_pos rfl

theorem move_other (different : other ≠ thread) :
    (crowd.move thread stage).stages other = crowd.stages other := if_neg different

def total (crowd : Crowd count) (figure : Stage → Nat) : Nat :=
  ∑ thread, figure (crowd.stages thread)

theorem total_moved (crowd : Crowd count) (thread : Fin count) (stage : Stage)
    (figure : Stage → Nat) :
    (crowd.move thread stage).total figure + figure (crowd.stages thread) =
      crowd.total figure + figure stage := by
  have others : ∑ other ∈ Finset.univ.erase thread,
      figure ((crowd.move thread stage).stages other) =
        ∑ other ∈ Finset.univ.erase thread, figure (crowd.stages other) := by
    apply Finset.sum_congr rfl
    intro other member
    rw [move_other (Finset.ne_of_mem_erase member)]
  have before := Finset.add_sum_erase Finset.univ (fun other => figure (crowd.stages other))
    (Finset.mem_univ thread)
  have after := Finset.add_sum_erase Finset.univ
    (fun other => figure ((crowd.move thread stage).stages other)) (Finset.mem_univ thread)
  rw [others] at after
  simp only [move_self] at after
  unfold total
  omega

/-- The lock is with the thread that is inside, if there is one. -/
def Locked (crowd : Crowd count) : Prop :=
  ∀ thread, (crowd.stages thread).isInside = true ↔ crowd.holder = some thread

def AllDone (crowd : Crowd count) : Prop :=
  ∀ thread, ∃ outcome, crowd.stages thread = .done outcome

/-- The thread comes to its next stage without taking or giving back the lock. -/
theorem Locked.moved (locked : crowd.Locked)
    (same : stage.isInside = (crowd.stages thread).isInside) :
    (crowd.move thread stage).Locked := by
  intro other
  by_cases here : other = thread
  · subst here
    rw [move_self, same]
    exact locked other
  · rw [move_other here]
    exact locked other

theorem Locked.alone (locked : crowd.Locked) (inside : (crowd.stages thread).isInside = true)
    (other_inside : (crowd.stages other).isInside = true) : other = thread := by
  have held := (locked thread).mp inside
  exact (Option.some.inj (held.symm.trans ((locked other).mp other_inside))).symm

end Crowd

namespace Engine

section Turns

variable {engine : Engine} {name : String} {count : Nat} {crowd next : Crowd count}
  {thread : Fin count} {now : Instant}

inductive Turned (engine : Engine) (name : String) (crowd : Crowd count) (thread : Fin count)
    (now : Instant) : Crowd count → Prop
  | refused (at_stage : crowd.stages thread = .arriving)
      (missing : ¬engine.HasSource crowd.disk name) :
      Turned engine name crowd thread now (crowd.move thread (.done (.error (.notFound name))))
  | came (at_stage : crowd.stages thread = .arriving)
      (source : engine.HasSource crowd.disk name) :
      Turned engine name crowd thread now
        (crowd.move thread (if engine.options.isCached then .looking else .waiting))
  | found {program : Program} (at_stage : crowd.stages thread = .looking)
      (stored : engine.stored? crowd.disk name = some program) :
      Turned engine name crowd thread now (crowd.move thread (.done (.ok program)))
  | missed (at_stage : crowd.stages thread = .looking)
      (missing : engine.stored? crowd.disk name = none) :
      Turned engine name crowd thread now (crowd.move thread .waiting)
  | locked (at_stage : crowd.stages thread = .waiting) (free : crowd.holder = none) :
      Turned engine name crowd thread now
        { crowd.move thread (if engine.options.isCached then .checking else .building) with
          holder := some thread }
  | foundInside {program : Program} (at_stage : crowd.stages thread = .checking)
      (stored : engine.stored? crowd.disk name = some program) :
      Turned engine name crowd thread now (crowd.move thread (.leaving (.ok program)))
  | missedInside (at_stage : crowd.stages thread = .checking)
      (missing : engine.stored? crowd.disk name = none) :
      Turned engine name crowd thread now (crowd.move thread .building)
  | failed {error : TemplateError} (at_stage : crowd.stages thread = .building)
      (fails : engine.make name crowd.disk now = .error error) :
      Turned engine name crowd thread now (crowd.move thread (.leaving (.error error)))
  | made {program : Program} (at_stage : crowd.stages thread = .building)
      (makes : engine.make name crowd.disk now = .ok program) :
      Turned engine name crowd thread now
        { crowd.move thread (.storing program) with builders := crowd.builders ++ [thread] }
  | unstored {program : Program} {error : TemplateError} {disk : Disk}
      (at_stage : crowd.stages thread = .storing program)
      (fails : engine.store.save crowd.disk program now = (.error error, disk)) :
      Turned engine name crowd thread now
        { crowd.move thread (.leaving (.error error)) with disk }
  | stored {program : Program} {disk : Disk} (at_stage : crowd.stages thread = .storing program)
      (saved : engine.store.save crowd.disk program now = (.ok (), disk)) :
      Turned engine name crowd thread now { crowd.move thread (.counting program) with disk }
  | counted {program : Program} (at_stage : crowd.stages thread = .counting program) :
      Turned engine name crowd thread now
        { crowd.move thread (.leaving (.ok program)) with compiles := crowd.compiles + 1 }
  | left {outcome : Except TemplateError Program}
      (at_stage : crowd.stages thread = .leaving outcome) :
      Turned engine name crowd thread now
        { crowd.move thread (.done outcome) with holder := none }

/-- A turn in which nothing happens: the thread is done, or another has the lock. -/
def Idle (crowd : Crowd count) (thread : Fin count) : Prop :=
  (∃ outcome, crowd.stages thread = .done outcome) ∨
    crowd.stages thread = .waiting ∧ ∃ other, crowd.holder = some other

theorem turn_cases (engine : Engine) (name : String) (crowd : Crowd count) (thread : Fin count)
    (now : Instant) :
    Idle crowd thread ∧ engine.turn name crowd thread now = crowd ∨
      ¬Idle crowd thread ∧
        engine.Turned name crowd thread now (engine.turn name crowd thread now) := by
  have not_idle (different : crowd.stages thread ≠ .waiting)
      (not_done : ∀ outcome, crowd.stages thread ≠ .done outcome) : ¬Idle crowd thread := by
    rintro (⟨outcome, is_done⟩ | ⟨waits, -⟩)
    · exact not_done outcome is_done
    · exact different waits
  unfold turn
  cases at_stage : crowd.stages thread with
  | arriving =>
      refine .inr ⟨not_idle (by simp [at_stage]) (by simp [at_stage]), ?_⟩
      dsimp only
      cases there : engine.sourcePath name with
      | error error =>
          cases source_path_error there
          apply Turned.refused at_stage
          rintro ⟨path, found, -⟩
          cases there.symm.trans found
      | ok path =>
          dsimp only
          cases is_file : crowd.disk.isFile path with
          | false =>
              apply Turned.refused at_stage
              rintro ⟨other, found, other_file⟩
              cases there.symm.trans found
              cases is_file.symm.trans other_file
          | true => exact .came at_stage ⟨path, there, is_file⟩
  | looking =>
      refine .inr ⟨not_idle (by simp [at_stage]) (by simp [at_stage]), ?_⟩
      dsimp only
      cases stored : engine.stored? crowd.disk name with
      | none => exact .missed at_stage stored
      | some program => exact .found at_stage stored
  | waiting =>
      cases held : crowd.holder with
      | some other => exact .inl ⟨.inr ⟨at_stage, other, held⟩, rfl⟩
      | none =>
          refine .inr ⟨?_, .locked at_stage held⟩
          rintro (⟨outcome, is_done⟩ | ⟨-, other, taken⟩)
          · cases at_stage.symm.trans is_done
          · cases held.symm.trans taken
  | checking =>
      refine .inr ⟨not_idle (by simp [at_stage]) (by simp [at_stage]), ?_⟩
      dsimp only
      cases stored : engine.stored? crowd.disk name with
      | none => exact .missedInside at_stage stored
      | some program => exact .foundInside at_stage stored
  | building =>
      refine .inr ⟨not_idle (by simp [at_stage]) (by simp [at_stage]), ?_⟩
      have same : (engine.compile crowd.disk name >>= fun template => template.generate now) =
          engine.make name crowd.disk now := rfl
      dsimp only
      rw [same]
      cases makes : engine.make name crowd.disk now with
      | error error => exact .failed at_stage makes
      | ok program => exact .made at_stage makes
  | storing program =>
      refine .inr ⟨not_idle (by simp [at_stage]) (by simp [at_stage]), ?_⟩
      dsimp only
      rcases saved : engine.store.save crowd.disk program now with ⟨outcome, disk⟩
      cases outcome with
      | error error => exact .unstored at_stage saved
      | ok done => exact .stored at_stage saved
  | counting program =>
      exact .inr ⟨not_idle (by simp [at_stage]) (by simp [at_stage]), .counted at_stage⟩
  | leaving outcome =>
      exact .inr ⟨not_idle (by simp [at_stage]) (by simp [at_stage]), .left at_stage⟩
  | done outcome => exact .inl ⟨.inl ⟨outcome, at_stage⟩, rfl⟩

/-- What every turn keeps holds after all turns at times of a clock. -/
theorem turns_keep {holds : Crowd count → Prop} {clock : Instant → Prop}
    (keeps : ∀ {crowd next thread now}, holds crowd → clock now →
      engine.Turned name crowd thread now next → holds next)
    (schedule : List (Fin count × Instant)) (timely : ∀ turn ∈ schedule, clock turn.2)
    (held : holds crowd) : holds (engine.turns name crowd schedule) := by
  induction schedule generalizing crowd with
  | nil => exact held
  | cons first rest later =>
      obtain ⟨thread, now⟩ := first
      apply later fun turn member => timely turn (List.mem_cons_of_mem _ member)
      rcases engine.turn_cases name crowd thread now with ⟨-, same⟩ | ⟨-, turned⟩
      · rw [same]
        exact held
      · exact keeps held (timely _ List.mem_cons_self) turned

theorem turns_append (first rest : List (Fin count × Instant)) :
    engine.turns name crowd (first ++ rest) =
      engine.turns name (engine.turns name crowd first) rest := by
  induction first generalizing crowd with
  | nil => rfl
  | cons turn first later => exact later

/-- Threads go in and out one at a time, whatever becomes of them inside. -/
theorem Turned.keeps_locked (turned : engine.Turned name crowd thread now next)
    (locked : crowd.Locked) : next.Locked := by
  cases turned with
  | refused at_stage missing => exact locked.moved (by rw [at_stage]; rfl)
  | came at_stage source =>
      apply locked.moved
      rw [at_stage]
      split <;> rfl
  | found at_stage stored => exact locked.moved (by rw [at_stage]; rfl)
  | missed at_stage missing => exact locked.moved (by rw [at_stage]; rfl)
  | locked at_stage free =>
      intro other
      by_cases here : other = thread
      · subst here
        simp only [Crowd.move_self]
        split <;> simp [Stage.isInside]
      · have outside := locked other
        rw [free] at outside
        simp only [Crowd.move_other here, Option.some.injEq, outside]
        simp [Ne.symm here]
  | foundInside at_stage stored => exact locked.moved (by rw [at_stage]; rfl)
  | missedInside at_stage missing => exact locked.moved (by rw [at_stage]; rfl)
  | failed at_stage fails => exact locked.moved (by rw [at_stage]; rfl)
  | @made program at_stage makes =>
      have moved : (crowd.move thread (.storing program)).Locked :=
        locked.moved (by rw [at_stage]; rfl)
      exact moved
  | @unstored program error disk at_stage fails =>
      have moved : (crowd.move thread (.leaving (.error error))).Locked :=
        locked.moved (by rw [at_stage]; rfl)
      exact moved
  | @stored program disk at_stage saved =>
      have moved : (crowd.move thread (.counting program)).Locked :=
        locked.moved (by rw [at_stage]; rfl)
      exact moved
  | @counted program at_stage =>
      have moved : (crowd.move thread (.leaving (.ok program))).Locked :=
        locked.moved (by rw [at_stage]; rfl)
      exact moved
  | left at_stage =>
      have inside : (crowd.stages thread).isInside = true := by rw [at_stage]; rfl
      intro other
      by_cases here : other = thread
      · subst here
        simp [Stage.isInside]
      · simp only [Crowd.move_other here, reduceCtorEq, iff_false]
        intro other_inside
        exact here (locked.alone inside other_inside)

theorem turns_locked (engine : Engine) (name : String) (schedule : List (Fin count × Instant))
    (locked : crowd.Locked) : (engine.turns name crowd schedule).Locked := by
  let clock (_ : Instant) : Prop := True
  have timely : ∀ turn ∈ schedule, clock turn.2 := fun _ _ => trivial
  exact turns_keep (fun locked _ turned => turned.keeps_locked locked) schedule timely locked

/-- A turn that does something brings its thread nearer to the end, and no other thread. -/
theorem Turned.moves (turned : engine.Turned name crowd thread now next) :
    ∃ stage, next.stages = (crowd.move thread stage).stages ∧
      stage.remaining < (crowd.stages thread).remaining := by
  cases turned with
  | refused at_stage | found at_stage | missed at_stage | foundInside at_stage
  | missedInside at_stage | failed at_stage | made at_stage | unstored at_stage
  | stored at_stage | counted at_stage | left at_stage =>
      exact ⟨_, rfl, by simp [at_stage, Stage.remaining]⟩
  | came at_stage | locked at_stage =>
      refine ⟨_, rfl, ?_⟩
      rw [at_stage]
      split <;> decide

theorem Turned.others (turned : engine.Turned name crowd thread now next) {other : Fin count}
    (different : other ≠ thread) : next.stages other = crowd.stages other := by
  obtain ⟨stage, moved, -⟩ := turned.moves
  rw [moved]
  exact Crowd.move_other different

theorem Turned.brings_on (turned : engine.Turned name crowd thread now next) :
    next.total Stage.remaining < crowd.total Stage.remaining := by
  obtain ⟨stage, moved, less⟩ := turned.moves
  have sums := crowd.total_moved thread stage Stage.remaining
  have same : next.total Stage.remaining = (crowd.move thread stage).total Stage.remaining := by
    rw [Crowd.total, moved]
    rfl
  omega

/-- As long as a thread is not done, some thread can go on: the one that has the lock, or any
if it is free. -/
theorem someone_goes_on (locked : crowd.Locked) (unfinished : ¬crowd.AllDone) :
    ∃ thread, ¬Idle crowd thread := by
  cases held : crowd.holder with
  | some thread =>
      have inside := (locked thread).mpr held
      refine ⟨thread, ?_⟩
      rintro (⟨outcome, is_done⟩ | ⟨waits, -⟩)
      · rw [is_done] at inside
        cases inside
      · rw [waits] at inside
        cases inside
  | none =>
      obtain ⟨thread, not_done⟩ := not_forall.mp unfinished
      refine ⟨thread, ?_⟩
      rintro (is_done | ⟨-, other, taken⟩)
      · exact not_done is_done
      · cases held.symm.trans taken

/-- However far the threads are, they can all get done, by induction on the turns left. -/
theorem turns_to_the_end (engine : Engine) (name : String) (locked : crowd.Locked)
    (now : Instant) :
    ∃ rest, (∀ turn ∈ rest, turn.2 = now) ∧ (engine.turns name crowd rest).AllDone := by
  induction left : crowd.total Stage.remaining using Nat.strongRecOn generalizing crowd with
  | ind total nearer =>
      by_cases finished : crowd.AllDone
      · exact ⟨[], nofun, finished⟩
      · obtain ⟨thread, not_idle⟩ := someone_goes_on locked finished
        rcases engine.turn_cases name crowd thread now with ⟨idle, -⟩ | ⟨-, turned⟩
        · exact absurd idle not_idle
        · obtain ⟨rest, timely, done⟩ :=
            nearer _ (left ▸ turned.brings_on) (turned.keeps_locked locked) rfl
          refine ⟨(thread, now) :: rest, ?_, done⟩
          intro turn member
          rcases List.mem_cons.mp member with rfl | later
          · rfl
          · exact timely turn later

end Turns

section Alone

variable {engine : Engine} {name : String} {count : Nat} {crowd next : Crowd count}
  {thread : Fin count} {now : Instant}

/-- What getting the program still comes to for a thread at a stage, if nobody disturbs it. -/
def finish (engine : Engine) (name : String) (world : World) :
    Stage → Except TemplateError Program × World
  | .arriving => (engine.program name).run.run world
  | .looking | .checking =>
      match engine.stored? world.disk name with
      | some program => (.ok program, world)
      | none => (engine.build name).run.run world
  | .waiting =>
      match if engine.options.isCached then engine.stored? world.disk name else none with
      | some program => (.ok program, world)
      | none => (engine.build name).run.run world
  | .building => (engine.build name).run.run world
  | .storing program =>
      match engine.store.save world.disk program world.now with
      | (.ok (), disk) => (.ok program, { world with disk, compiles := world.compiles + 1 })
      | (.error error, disk) => (.error error, { world with disk })
  | .counting program => (.ok program, { world with compiles := world.compiles + 1 })
  | .leaving outcome | .done outcome => (outcome, world)

end Alone

end Engine

def Crowd.world {count : Nat} (crowd : Crowd count) (now : Instant) : World :=
  ⟨crowd.disk, crowd.compiles, now⟩

namespace Engine

section Alone

variable {engine : Engine} {name : String} {count : Nat} {crowd next : Crowd count}
  {thread : Fin count} {now : Instant}

theorem finish_of_source {world : World} (source : engine.HasSource world.disk name) :
    engine.finish name world (if engine.options.isCached then .looking else .waiting) =
      (engine.program name).run.run world := by
  unfold finish
  cases cached : engine.options.isCached with
  | false =>
      obtain ⟨path, there, is_file⟩ := source
      rw [program_uncached there is_file cached]
      rfl
  | true =>
      rw [program_of_source source cached]
      -- the name of its file must stay closed, it would be computed as a digest
      cases engine.stored? world.disk name <;> rfl

theorem finish_unlocked (engine : Engine) (name : String) (world : World) :
    engine.finish name world (if engine.options.isCached then .checking else .building) =
      engine.finish name world .waiting := by
  unfold finish
  cases engine.options.isCached with
  | false => rfl
  | true => cases engine.stored? world.disk name <;> rfl

theorem finish_building (engine : Engine) (name : String) (world : World) :
    engine.finish name world .building =
      match engine.make name world.disk world.now with
      | .ok program => engine.finish name world (.storing program)
      | .error error => engine.finish name world (.leaving (.error error)) := by
  unfold finish
  rw [build_run]
  cases engine.make name world.disk world.now with
  | error error => rfl
  | ok program =>
      dsimp only
      generalize engine.store.save world.disk program world.now = saving
      obtain ⟨outcome, disk⟩ := saving
      cases outcome <;> rfl

/-- A turn leaves for later what it does not do itself. -/
theorem Turned.finishes (turned : engine.Turned name crowd thread now next) :
    engine.finish name (next.world now) (next.stages thread) =
      engine.finish name (crowd.world now) (crowd.stages thread) := by
  have moved (stage : Stage) : (crowd.move thread stage).world now = crowd.world now := rfl
  have at_disk : crowd.disk = (crowd.world now).disk := rfl
  have at_now : (crowd.world now).now = now := rfl
  cases turned with
  | refused at_stage missing =>
      rw [at_disk] at missing
      rw [at_stage, Crowd.move_self, moved]
      exact (program_missing missing).symm
  | came at_stage source =>
      rw [at_disk] at source
      rw [at_stage, Crowd.move_self, moved, finish_of_source source]
      rfl
  | found at_stage stored =>
      rw [at_disk] at stored
      rw [at_stage, Crowd.move_self, moved]
      unfold finish
      rw [stored]
  | missed at_stage missing =>
      rw [at_disk] at missing
      rw [at_stage, Crowd.move_self, moved]
      unfold finish
      rw [missing, ite_self]
  | locked at_stage free =>
      change engine.finish name (crowd.world now) ((crowd.move thread _).stages thread) = _
      rw [at_stage, Crowd.move_self, finish_unlocked]
  | foundInside at_stage stored =>
      rw [at_disk] at stored
      rw [at_stage, Crowd.move_self, moved]
      unfold finish
      rw [stored]
  | missedInside at_stage missing =>
      rw [at_disk] at missing
      rw [at_stage, Crowd.move_self, moved]
      unfold finish
      rw [missing]
  | failed at_stage fails =>
      rw [at_disk] at fails
      rw [at_stage, Crowd.move_self, moved, finish_building, at_now, fails]
  | made at_stage makes =>
      rw [at_disk] at makes
      change engine.finish name (crowd.world now) ((crowd.move thread _).stages thread) = _
      rw [at_stage, Crowd.move_self, finish_building, at_now, makes]
  | @unstored program error disk at_stage fails =>
      rw [at_disk] at fails
      change engine.finish name ⟨disk, crowd.compiles, now⟩
        ((crowd.move thread _).stages thread) = _
      rw [at_stage, Crowd.move_self]
      unfold finish
      dsimp only
      rw [at_now, fails]
      rfl
  | @stored program disk at_stage saved =>
      rw [at_disk] at saved
      change engine.finish name ⟨disk, crowd.compiles, now⟩
        ((crowd.move thread _).stages thread) = _
      rw [at_stage, Crowd.move_self]
      unfold finish
      dsimp only
      rw [at_now, saved]
      rfl
  | @counted program at_stage =>
      change engine.finish name ⟨crowd.disk, crowd.compiles + 1, now⟩
        ((crowd.move thread _).stages thread) = _
      rw [at_stage, Crowd.move_self]
      rfl
  | left at_stage =>
      change engine.finish name (crowd.world now) ((crowd.move thread _).stages thread) = _
      rw [at_stage, Crowd.move_self]
      rfl

theorem free_of_outside (locked : crowd.Locked)
    (alone : ∀ other, other ≠ thread → (crowd.stages other).isInside = false)
    (outside : (crowd.stages thread).isInside = false) : crowd.holder = none := by
  cases held : crowd.holder with
  | none => rfl
  | some other =>
      have inside := (locked other).mpr held
      by_cases here : other = thread
      · rw [here, outside] at inside
        cases inside
      · rw [alone other here] at inside
        cases inside

structure DoneAlone (thread : Fin count) (now : Instant)
    (result : Except TemplateError Program × World) (before after : Crowd count) : Prop where
  done : after.stages thread = .done result.1
  world : after.world now = result.2
  free : after.holder = none
  others : ∀ other, other ≠ thread → after.stages other = before.stages other

/-- A thread that nobody keeps from the lock gets to its end, by induction on its turns left. -/
theorem finishes_alone (engine : Engine) (name : String) (now : Instant) (locked : crowd.Locked)
    (alone : ∀ other, other ≠ thread → (crowd.stages other).isInside = false) (turns : Nat)
    (enough : (crowd.stages thread).remaining ≤ turns) :
    DoneAlone thread now (engine.finish name (crowd.world now) (crowd.stages thread)) crowd
      (engine.turns name crowd (List.replicate turns (thread, now))) := by
  induction turns generalizing crowd with
  | zero =>
      cases at_stage : crowd.stages thread with
      | done outcome =>
          have free := free_of_outside locked alone (by rw [at_stage]; rfl)
          exact ⟨at_stage, rfl, free, fun _ _ => rfl⟩
      | _ =>
          rw [at_stage] at enough
          simp [Stage.remaining] at enough
  | succ turns further =>
      rw [List.replicate_succ, Engine.turns]
      rcases engine.turn_cases name crowd thread now with ⟨idle, same⟩ | ⟨-, turned⟩
      · rw [same]
        rcases idle with ⟨outcome, is_done⟩ | ⟨waits, other, taken⟩
        · exact further locked alone (by rw [is_done]; exact Nat.zero_le turns)
        · have free := free_of_outside locked alone (by rw [waits]; rfl)
          cases free.symm.trans taken
      · have still_alone (other : Fin count) (different : other ≠ thread) :
            ((engine.turn name crowd thread now).stages other).isInside = false := by
          rw [turned.others different]
          exact alone other different
        have fewer : ((engine.turn name crowd thread now).stages thread).remaining ≤ turns := by
          obtain ⟨stage, moved, less⟩ := turned.moves
          rw [moved, Crowd.move_self]
          omega
        have finished := further (turned.keeps_locked locked) still_alone fewer
        rw [turned.finishes] at finished
        exact ⟨finished.done, finished.world, finished.free, fun other different =>
          (finished.others other different).trans (turned.others different)⟩

/-- A thread that takes all its turns alone does what getting the program does. -/
theorem lone_thread_gets_program (engine : Engine) (name : String) (now : Instant)
    (locked : crowd.Locked) (free : crowd.holder = none)
    (arrives : crowd.stages thread = .arriving) :
    DoneAlone thread now ((engine.program name).run.run (crowd.world now)) crowd
      (engine.turns name crowd (List.replicate 8 (thread, now))) := by
  have outside (other : Fin count) (_ : other ≠ thread) :
      (crowd.stages other).isInside = false := by
    rw [← Bool.not_eq_true]
    intro inside
    cases free.symm.trans ((locked other).mp inside)
  have finished := finishes_alone engine name now locked outside 8 (by rw [arrives]; rfl)
  rw [arrives] at finished
  exact finished

end Alone

end Engine

end Letterpress
