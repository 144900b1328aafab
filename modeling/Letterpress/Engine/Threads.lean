import Letterpress.Engine.Basic

/-!
Threads that want the program of one template at the same time. Each goes through the
stages of getting a program, and they take turns in any order: what one turn does happens at
once. A thread looks for a stored program, and if there is none it takes the lock of the
template and looks again, for another may have built the program meanwhile. A program is
put into its file in one step, so no thread ever reads half of one.
-/

namespace Letterpress

open Files

inductive Stage where
  | arriving
  /-- Looks for a stored program without the lock. -/
  | looking
  /-- Waits for the lock. -/
  | waiting
  /-- Looks for a stored program under the lock. -/
  | checking
  | building
  | storing (program : Program)
  | counting (program : Program)
  /-- Gives back the lock. -/
  | leaving (outcome : Except TemplateError Program)
  | done (outcome : Except TemplateError Program)

structure Crowd (count : Nat) where
  disk : Disk
  compiles : Nat
  /-- The thread that has the lock of the template. -/
  holder : Option (Fin count)
  stages : Fin count → Stage
  /-- The threads that have made a program, in their order. -/
  builders : List (Fin count)

namespace Crowd

def gathering (count : Nat) (disk : Disk) (compiles : Nat) : Crowd count :=
  ⟨disk, compiles, none, fun _ => .arriving, []⟩

def move {count : Nat} (crowd : Crowd count) (thread : Fin count) (stage : Stage) : Crowd count :=
  { crowd with stages := fun other => if other = thread then stage else crowd.stages other }

end Crowd

namespace Engine

variable {count : Nat}

/-- One turn of a thread, at a time. A thread that waits for a lock which another has stays
where it is, and so does one that is done. -/
def turn (engine : Engine) (name : String) (crowd : Crowd count) (thread : Fin count)
    (now : Instant) : Crowd count :=
  match crowd.stages thread with
  | .arriving =>
      match engine.sourcePath name with
      | .error error => crowd.move thread (.done (.error error))
      | .ok path =>
          if !crowd.disk.isFile path then crowd.move thread (.done (.error (.notFound name)))
          else crowd.move thread (if engine.options.isCached then .looking else .waiting)
  | .looking =>
      match engine.stored? crowd.disk name with
      | some program => crowd.move thread (.done (.ok program))
      | none => crowd.move thread .waiting
  | .waiting =>
      match crowd.holder with
      | some _ => crowd
      | none =>
          { crowd.move thread (if engine.options.isCached then .checking else .building) with
            holder := some thread }
  | .checking =>
      match engine.stored? crowd.disk name with
      | some program => crowd.move thread (.leaving (.ok program))
      | none => crowd.move thread .building
  | .building =>
      match engine.compile crowd.disk name >>= fun template => template.generate now with
      | .error error => crowd.move thread (.leaving (.error error))
      | .ok program =>
          { crowd.move thread (.storing program) with builders := crowd.builders ++ [thread] }
  | .storing program =>
      let (saved, disk) := engine.store.save crowd.disk program now
      match saved with
      | .error error => { crowd.move thread (.leaving (.error error)) with disk }
      | .ok () => { crowd.move thread (.counting program) with disk }
  | .counting program =>
      { crowd.move thread (.leaving (.ok program)) with compiles := crowd.compiles + 1 }
  | .leaving outcome => { crowd.move thread (.done outcome) with holder := none }
  | .done _ => crowd

def turns (engine : Engine) (name : String) (crowd : Crowd count) :
    List (Fin count × Instant) → Crowd count
  | [] => crowd
  | (thread, now) :: rest => engine.turns name (engine.turn name crowd thread now) rest

end Engine

end Letterpress
