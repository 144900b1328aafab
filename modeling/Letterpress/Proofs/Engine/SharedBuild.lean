import Letterpress.Proofs.Engine.Freshness
import Letterpress.Proofs.Engine.Threads

/-!
Many threads and one template. Where stored programs are used, whoever has the lock first
builds the program, and all others find it, before they take the lock or after. What they find
has the doubles of the program as they are read again, and is the program if these are exact.
Where stored programs are not used, every thread builds its own, one thread after another.
-/

namespace Letterpress

open Files

/-- Stages of a thread that has found no program and makes none. -/
def Stage.isEarly : Stage → Bool
  | .arriving | .looking | .waiting | .checking => true
  | .building | .storing _ | .counting _ | .leaving _ | .done _ => false

/-- A template that threads are about to ask for, on a disk and at times of a clock. -/
structure Rush where
  engine : Engine
  name : String
  disk : Disk
  /-- Where the store's folder is. -/
  folder : Location
  compiles : Nat
  clock : Instant → Prop

namespace Rush

variable (rush : Rush)

def artifact : Location := rush.folder ++ [Store.fileName rush.name]

/-- Disks on which nothing but the program of the template has changed. -/
structure Alike (disk : Disk) : Prop where
  spared : Disk.Spared (· = rush.artifact) rush.disk disk
  free : ∀ since, disk.lookup rush.artifact ≠ some (.folder since)

/-- The store works, and the template can be compiled at any time, whatever is stored for it.
If stored programs are checked, its files do not look younger than the programs made of them. -/
structure Steady : Prop where
  ready : rush.engine.store.Ready rush.disk rush.folder
  free : ∀ since, rush.disk.lookup rush.artifact ≠ some (.folder since)
  ticks : ∃ now, rush.clock now
  proper : ∀ now, rush.clock now → now.Proper
  makes : ∀ disk now, rush.Alike disk → rush.clock now →
    ∃ program, rush.engine.make rush.name disk now = .ok program ∧ program.FitsMemory
  fresh : rush.engine.options.checkModified = true → ∀ disk now program, rush.Alike disk →
    rush.clock now → rush.engine.make rush.name rush.disk now = .ok program →
      rush.engine.isStale disk program = false

def crowd (count : Nat) : Crowd count := Crowd.gathering count rush.disk rush.compiles

/-- The program is in its file, and may be used as it is read from there. -/
structure Holds (program : Program) (disk : Disk) : Prop where
  alike : rush.Alike disk
  stored : rush.engine.stored? disk rush.name = some program.reread

structure Unbuilt {count : Nat} (crowd : Crowd count) : Prop where
  disk : crowd.disk = rush.disk
  compiles : crowd.compiles = rush.compiles
  builders : crowd.builders = []
  stages : ∀ thread, (crowd.stages thread).isEarly = true ∨ crowd.stages thread = .building

/-- How far a builder is with its program, and what is to be seen of it. -/
inductive Building (program : Program) (disk : Disk) (compiles : Nat) : Stage → Prop
  | storing (unchanged : disk = rush.disk) (uncounted : compiles = rush.compiles) :
      Building program disk compiles (.storing program)
  | counting (holds : rush.Holds program disk) (uncounted : compiles = rush.compiles) :
      Building program disk compiles (.counting program)
  | leaving (holds : rush.Holds program disk) (counted : compiles = rush.compiles + 1) :
      Building program disk compiles (.leaving (.ok program))
  | done (holds : rush.Holds program disk) (counted : compiles = rush.compiles + 1) :
      Building program disk compiles (.done (.ok program))

/-- One thread has made the program, and every other has it from the store or has nothing. -/
structure Built {count : Nat} (builder : Fin count) (program : Program) (crowd : Crowd count) :
    Prop where
  made : ∃ now, rush.clock now ∧ rush.engine.make rush.name rush.disk now = .ok program
  builders : crowd.builders = [builder]
  own : rush.Building program crowd.disk crowd.compiles (crowd.stages builder)
  others : ∀ thread, thread ≠ builder → (crowd.stages thread).isEarly = true ∨
    crowd.stages thread = .leaving (.ok program.reread) ∨
      crowd.stages thread = .done (.ok program.reread)

structure Shares {count : Nat} (crowd : Crowd count) : Prop where
  locked : crowd.Locked
  so_far : rush.Unbuilt crowd ∨ ∃ builder program, rush.Built builder program crowd

section Sharing

variable {rush : Rush} {disk after : Disk} {program : Program} {now later : Instant}

theorem Steady.alike (steady : rush.Steady) : rush.Alike rush.disk := ⟨.refl, steady.free⟩

theorem Steady.fits (steady : rush.Steady) (alike : rush.Alike disk) (ticks : rush.clock now)
    (made : rush.engine.make rush.name disk now = .ok program) : program.FitsMemory := by
  obtain ⟨other, again, fits⟩ := steady.makes disk now alike ticks
  cases made.symm.trans again
  exact fits

theorem Steady.saves {before : Disk} (steady : rush.Steady) (alike : rush.Alike disk)
    (was_alike : rush.Alike before) (ticks : rush.clock now)
    (made : rush.engine.make rush.name before now = .ok program) (later : Instant) :
    ∃ after, rush.engine.store.save disk program later = (.ok (), after) ∧ rush.Alike after ∧
      rush.engine.store.load? after rush.name = some program.reread := by
  obtain ⟨template, compiled, generated⟩ := bind_eq_ok.mp made
  have named := generated_name compiled generated
  have ready := steady.ready.kept alike.spared.kept
  have free := alike.free
  rw [artifact, ← named] at free
  obtain ⟨after, saved⟩ := Store.save_works ready later free
  have spared := Store.save_spares ⟨ready.formed, ready.there⟩ program later
  rw [saved, named] at spared
  have stays_free := Store.free_saved ready saved free
  rw [named] at stays_free
  have loaded := (Store.save_saved saved).load
  rw [Engine.generated_decodes generated (steady.proper now ticks)
    (steady.fits was_alike ticks made), named] at loaded
  exact ⟨after, saved, ⟨alike.spared.trans spared, stays_free⟩, loaded⟩

theorem Steady.source (steady : rush.Steady) (alike : rush.Alike disk) :
    rush.engine.HasSource disk rush.name := by
  obtain ⟨now, ticks⟩ := steady.ticks
  obtain ⟨program, made, -⟩ := steady.makes disk now alike ticks
  obtain ⟨template, compiled, -⟩ := bind_eq_ok.mp made
  exact Engine.source_of_compile compiled

/-- A program that was just stored is used, as it does not look older than its files. -/
theorem Steady.holds (steady : rush.Steady) (alike : rush.Alike disk) (ticks : rush.clock now)
    (made : rush.engine.make rush.name rush.disk now = .ok program)
    (loaded : rush.engine.store.load? disk rush.name = some program.reread) :
    rush.Holds program disk := by
  refine ⟨alike, Engine.stored_eq_some.mpr ⟨loaded, fun checked => ?_⟩⟩
  exact steady.fresh checked disk now program alike ticks made

end Sharing

section Cached

variable {rush : Rush} {count : Nat} {crowd next : Crowd count} {thread builder : Fin count}
  {program other : Program} {now : Instant} {stage : Stage}

theorem Unbuilt.moved (unbuilt : rush.Unbuilt crowd)
    (still : stage.isEarly = true ∨ stage = .building) :
    rush.Unbuilt (crowd.move thread stage) where
  disk := unbuilt.disk
  compiles := unbuilt.compiles
  builders := unbuilt.builders
  stages := by
    intro another
    by_cases here : another = thread
    · rw [here, Crowd.move_self]
      exact still
    · rw [Crowd.move_other here]
      exact unbuilt.stages another

theorem Built.moved (built : rush.Built builder program crowd) (different : thread ≠ builder)
    (fits : stage.isEarly = true ∨ stage = .leaving (.ok program.reread) ∨
      stage = .done (.ok program.reread)) :
    rush.Built builder program (crowd.move thread stage) where
  made := built.made
  builders := built.builders
  own := by
    rw [Crowd.move_other different.symm]
    exact built.own
  others := by
    intro another apart
    by_cases here : another = thread
    · rw [here, Crowd.move_self]
      exact fits
    · rw [Crowd.move_other here]
      exact built.others another apart

/-- Up to the first build, threads find nothing; the first that gets to build makes the
program, while no other is under the lock. -/
theorem Unbuilt.turned (unbuilt : rush.Unbuilt crowd) (steady : rush.Steady)
    (cached : rush.engine.options.isCached = true)
    (unused : rush.engine.stored? rush.disk rush.name = none) (locked : crowd.Locked)
    (ticks : rush.clock now) (turned : rush.engine.Turned rush.name crowd thread now next) :
    rush.Unbuilt next ∨ ∃ program, rush.Built thread program next := by
  have not_past (late : (crowd.stages thread).isEarly = false)
      (other_stage : crowd.stages thread ≠ .building) : False := by
    rcases unbuilt.stages thread with early | builds
    · rw [late] at early
      cases early
    · exact other_stage builds
  cases turned with
  | refused at_stage missing =>
      rw [unbuilt.disk] at missing
      exact absurd (steady.source steady.alike) missing
  | came at_stage source =>
      rw [cached]
      exact .inl (unbuilt.moved (.inl rfl))
  | found at_stage stored =>
      rw [unbuilt.disk, unused] at stored
      cases stored
  | missed at_stage missing => exact .inl (unbuilt.moved (.inl rfl))
  | locked at_stage free =>
      have moved : rush.Unbuilt (crowd.move thread .checking) := unbuilt.moved (.inl rfl)
      rw [cached]
      exact .inl ⟨moved.disk, moved.compiles, moved.builders, moved.stages⟩
  | foundInside at_stage stored =>
      rw [unbuilt.disk, unused] at stored
      cases stored
  | missedInside at_stage missing => exact .inl (unbuilt.moved (.inr rfl))
  | failed at_stage fails =>
      obtain ⟨program, made, -⟩ := steady.makes rush.disk now steady.alike ticks
      rw [unbuilt.disk, made] at fails
      cases fails
  | @made program at_stage makes =>
      rw [unbuilt.disk] at makes
      refine .inr ⟨program, ⟨now, ticks, makes⟩, ?_, ?_, ?_⟩
      · dsimp only
        rw [unbuilt.builders]
        rfl
      · dsimp only
        rw [Crowd.move_self]
        exact .storing unbuilt.disk unbuilt.compiles
      · intro another apart
        have inside : (crowd.stages thread).isInside = true := by rw [at_stage]; rfl
        dsimp only
        rw [Crowd.move_other apart]
        rcases unbuilt.stages another with early | builds
        · exact .inl early
        · have other_inside : (crowd.stages another).isInside = true := by rw [builds]; rfl
          exact absurd (locked.alone inside other_inside) apart
  | unstored at_stage | stored at_stage | counted at_stage | left at_stage =>
      exact (not_past (by rw [at_stage]; rfl) (by simp [at_stage])).elim

theorem Built.own_turned (built : rush.Built builder program crowd) (steady : rush.Steady)
    (turned : rush.engine.Turned rush.name crowd builder now next) :
    rush.Built builder program next := by
  obtain ⟨made, builders, own, others⟩ := built
  have others_still (stage : Stage) (thread : Fin count) (apart : thread ≠ builder) :
      ((crowd.move builder stage).stages thread).isEarly = true ∨
        (crowd.move builder stage).stages thread = .leaving (.ok program.reread) ∨
          (crowd.move builder stage).stages thread = .done (.ok program.reread) := by
    rw [Crowd.move_other apart]
    exact others thread apart
  cases turned with
  | refused at_stage | came at_stage | found at_stage | missed at_stage | locked at_stage
  | foundInside at_stage | missedInside at_stage | failed at_stage | made at_stage =>
      rw [at_stage] at own
      cases own
  | unstored at_stage fails =>
      rw [at_stage] at own
      cases own with
      | storing unchanged uncounted =>
          obtain ⟨made_at, ticks, makes⟩ := made
          obtain ⟨after, saved, -⟩ := steady.saves steady.alike steady.alike ticks makes now
          rw [unchanged, saved] at fails
          cases fails
  | stored at_stage saved =>
      rw [at_stage] at own
      cases own with
      | storing unchanged uncounted =>
          obtain ⟨made_at, ticks, makes⟩ := made
          obtain ⟨after, saved_so, alike, loaded⟩ :=
            steady.saves steady.alike steady.alike ticks makes now
          rw [unchanged, saved_so] at saved
          cases saved
          have holds := steady.holds alike ticks makes loaded
          refine ⟨⟨made_at, ticks, makes⟩, builders, ?_, others_still _⟩
          dsimp only
          rw [Crowd.move_self]
          exact .counting holds uncounted
  | counted at_stage =>
      rw [at_stage] at own
      cases own with
      | counting holds uncounted =>
          refine ⟨made, builders, ?_, others_still _⟩
          dsimp only
          rw [Crowd.move_self]
          exact .leaving holds (congrArg (· + 1) uncounted)
  | left at_stage =>
      rw [at_stage] at own
      cases own with
      | leaving holds counted =>
          refine ⟨made, builders, ?_, others_still _⟩
          dsimp only
          rw [Crowd.move_self]
          exact .done holds counted

/-- The program is still to be stored, or it is there for all. -/
theorem Built.stored_or (built : rush.Built builder program crowd) :
    crowd.stages builder = .storing program ∧ crowd.disk = rush.disk ∨
      rush.Holds program crowd.disk := by
  have own := built.own
  generalize crowd.stages builder = stage at own ⊢
  cases own with
  | storing unchanged uncounted => exact .inl ⟨rfl, unchanged⟩
  | counting holds | leaving holds | done holds => exact .inr holds

theorem Built.same (built : rush.Built builder program crowd)
    (unused : rush.engine.stored? rush.disk rush.name = none)
    (stored : rush.engine.stored? crowd.disk rush.name = some other) : other = program.reread := by
  rcases built.stored_or with ⟨-, unchanged⟩ | holds
  · rw [unchanged, unused] at stored
    cases stored
  · exact Option.some.inj (stored.symm.trans holds.stored)

/-- Threads that come while the program is built or later wait for it and find it. -/
theorem Built.other_turned (built : rush.Built builder program crowd) (steady : rush.Steady)
    (cached : rush.engine.options.isCached = true)
    (unused : rush.engine.stored? rush.disk rush.name = none) (locked : crowd.Locked)
    (different : thread ≠ builder)
    (turned : rush.engine.Turned rush.name crowd thread now next) :
    rush.Built builder program next := by
  have others := built.others thread different
  cases turned with
  | refused at_stage missing =>
      have alike : rush.Alike crowd.disk := by
        rcases built.stored_or with ⟨-, unchanged⟩ | holds
        · exact unchanged ▸ steady.alike
        · exact holds.alike
      exact absurd (steady.source alike) missing
  | came at_stage source =>
      rw [cached]
      exact built.moved different (.inl rfl)
  | found at_stage stored =>
      cases built.same unused stored
      exact built.moved different (.inr (.inr rfl))
  | missed at_stage missing => exact built.moved different (.inl rfl)
  | locked at_stage free =>
      have moved : rush.Built builder program (crowd.move thread .checking) :=
        built.moved different (.inl rfl)
      rw [cached]
      exact ⟨moved.made, moved.builders, moved.own, moved.others⟩
  | foundInside at_stage stored =>
      cases built.same unused stored
      exact built.moved different (.inr (.inl rfl))
  | missedInside at_stage missing =>
      rcases built.stored_or with ⟨builder_stage, -⟩ | holds
      · have builder_inside : (crowd.stages builder).isInside = true := by rw [builder_stage]; rfl
        have inside : (crowd.stages thread).isInside = true := by rw [at_stage]; rfl
        exact absurd (locked.alone builder_inside inside) different
      · cases missing.symm.trans holds.stored
  | failed at_stage | made at_stage | unstored at_stage | stored at_stage | counted at_stage =>
      rw [at_stage] at others
      rcases others with early | leaves | is_done
      · cases early
      · cases leaves
      · cases is_done
  | left at_stage =>
      rw [at_stage] at others
      rcases others with early | leaves | is_done
      · cases early
      · cases leaves
        have moved : rush.Built builder program (crowd.move thread (.done (.ok program.reread))) :=
          built.moved different (.inr (.inr rfl))
        exact ⟨moved.made, moved.builders, moved.own, moved.others⟩
      · cases is_done

theorem Shares.turned (shares : rush.Shares crowd) (steady : rush.Steady)
    (cached : rush.engine.options.isCached = true)
    (unused : rush.engine.stored? rush.disk rush.name = none) (ticks : rush.clock now)
    (turned : rush.engine.Turned rush.name crowd thread now next) : rush.Shares next := by
  obtain ⟨locked, so_far⟩ := shares
  refine ⟨turned.keeps_locked locked, ?_⟩
  rcases so_far with unbuilt | ⟨builder, program, built⟩
  · rcases unbuilt.turned steady cached unused locked ticks turned with still | made
    · exact .inl still
    · exact .inr ⟨thread, made⟩
  · by_cases here : thread = builder
    · subst here
      exact .inr ⟨thread, program, built.own_turned steady turned⟩
    · exact .inr ⟨builder, program,
        built.other_turned steady cached unused locked here turned⟩

end Cached

end Rush

namespace Stage

def hasMade : Stage → Bool
  | .storing _ | .counting _ | .leaving _ | .done _ => true
  | .arriving | .looking | .waiting | .checking | .building => false

/-- A program that was made and is still to be counted. -/
def owed : Stage → Nat
  | .storing _ | .counting _ => 1
  | .arriving | .looking | .waiting | .checking | .building | .leaving _ | .done _ => 0

end Stage

namespace Rush

/-- Stages of a thread that builds its own program, none of which fails. -/
inductive Separate (rush : Rush) : Stage → Prop
  | arriving : rush.Separate .arriving
  | waiting : rush.Separate .waiting
  | building : rush.Separate .building
  | storing {disk : Disk} {now : Instant} {program : Program} (alike : rush.Alike disk)
      (ticks : rush.clock now) (made : rush.engine.make rush.name disk now = .ok program) :
      rush.Separate (.storing program)
  | counting {program : Program} : rush.Separate (.counting program)
  | leaving {program : Program} : rush.Separate (.leaving (.ok program))
  | done {program : Program} : rush.Separate (.done (.ok program))

/-- Each thread that has come so far has made one program, and all programs were counted but
for those that are still to be. -/
structure Counted (rush : Rush) {count : Nat} (crowd : Crowd count) : Prop where
  alike : rush.Alike crowd.disk
  stages : ∀ thread, rush.Separate (crowd.stages thread)
  made : ∀ thread, thread ∈ crowd.builders ↔ (crowd.stages thread).hasMade = true
  distinct : crowd.builders.Nodup
  counted : crowd.compiles + crowd.total Stage.owed = rush.compiles + crowd.builders.length

section Uncached

variable {rush : Rush} {count : Nat} {crowd next : Crowd count} {thread : Fin count}
  {now : Instant} {stage : Stage}

theorem Counted.moved_stages (counted : rush.Counted crowd) (separate : rush.Separate stage)
    (other : Fin count) : rush.Separate ((crowd.move thread stage).stages other) := by
  by_cases here : other = thread
  · rw [here, Crowd.move_self]
    exact separate
  · rw [Crowd.move_other here]
    exact counted.stages other

theorem Counted.moved_made (counted : rush.Counted crowd)
    (same : stage.hasMade = (crowd.stages thread).hasMade) (other : Fin count) :
    other ∈ crowd.builders ↔ ((crowd.move thread stage).stages other).hasMade = true := by
  by_cases here : other = thread
  · rw [here, Crowd.move_self, same]
    exact counted.made thread
  · rw [Crowd.move_other here]
    exact counted.made other

theorem Counted.moved (counted : rush.Counted crowd) (separate : rush.Separate stage)
    (same_made : stage.hasMade = (crowd.stages thread).hasMade)
    (same_owed : stage.owed = (crowd.stages thread).owed) :
    rush.Counted (crowd.move thread stage) where
  alike := counted.alike
  stages := counted.moved_stages separate
  made := counted.moved_made same_made
  distinct := counted.distinct
  counted := by
    have sums := crowd.total_moved thread stage Stage.owed
    have before := counted.counted
    change crowd.compiles + _ = rush.compiles + crowd.builders.length
    omega

theorem Counted.turned (counted : rush.Counted crowd) (steady : rush.Steady)
    (uncached : rush.engine.options.isCached = false) (ticks : rush.clock now)
    (turned : rush.engine.Turned rush.name crowd thread now next) : rush.Counted next := by
  have here := counted.stages thread
  cases turned with
  | refused at_stage missing => exact absurd (steady.source counted.alike) missing
  | came at_stage source =>
      rw [uncached]
      exact counted.moved .waiting (by rw [at_stage]; rfl) (by rw [at_stage]; rfl)
  | found at_stage | missed at_stage | foundInside at_stage | missedInside at_stage =>
      rw [at_stage] at here
      cases here
  | locked at_stage free =>
      have moved : rush.Counted (crowd.move thread .building) :=
        counted.moved .building (by rw [at_stage]; rfl) (by rw [at_stage]; rfl)
      rw [uncached]
      exact ⟨moved.alike, moved.stages, moved.made, moved.distinct, moved.counted⟩
  | failed at_stage fails =>
      obtain ⟨program, made, -⟩ := steady.makes crowd.disk now counted.alike ticks
      cases made.symm.trans fails
  | @made program at_stage makes =>
      have unbuilt : thread ∉ crowd.builders := by
        rw [counted.made thread, at_stage]
        nofun
      refine ⟨counted.alike, counted.moved_stages (.storing counted.alike ticks makes), ?_, ?_, ?_⟩
      · intro other
        dsimp only
        rw [List.mem_append, List.mem_singleton]
        by_cases same : other = thread
        · rw [same, Crowd.move_self]
          exact iff_of_true (.inr rfl) rfl
        · rw [Crowd.move_other same, or_iff_left same]
          exact counted.made other
      · exact List.concat_eq_append ▸ counted.distinct.concat unbuilt
      · have sums := crowd.total_moved thread (.storing program) Stage.owed
        have before := counted.counted
        rw [at_stage] at sums
        change crowd.compiles + (crowd.move thread (.storing program)).total Stage.owed =
          rush.compiles + (crowd.builders ++ [thread]).length
        simp only [Stage.owed, List.length_append, List.length_singleton] at sums ⊢
        omega
  | unstored at_stage fails =>
      rw [at_stage] at here
      cases here with
      | storing was_alike ticked made =>
          obtain ⟨after, saved, -⟩ := steady.saves counted.alike was_alike ticked made now
          cases saved.symm.trans fails
  | @stored program disk at_stage saved =>
      rw [at_stage] at here
      cases here with
      | storing was_alike ticked made =>
          obtain ⟨after, saved_so, alike, -⟩ :=
            steady.saves counted.alike was_alike ticked made now
          cases saved_so.symm.trans saved
          have moved : rush.Counted (crowd.move thread (.counting program)) :=
            counted.moved .counting (by rw [at_stage]; rfl) (by rw [at_stage]; rfl)
          exact ⟨alike, moved.stages, moved.made, moved.distinct, moved.counted⟩
  | @counted program at_stage =>
      have same : (Stage.leaving (.ok program)).hasMade = (crowd.stages thread).hasMade := by
        rw [at_stage]
        rfl
      refine ⟨counted.alike, counted.moved_stages .leaving, counted.moved_made same,
        counted.distinct, ?_⟩
      have sums := crowd.total_moved thread (.leaving (.ok program)) Stage.owed
      have before := counted.counted
      rw [at_stage] at sums
      change crowd.compiles + 1 + (crowd.move thread (.leaving (.ok program))).total Stage.owed =
        rush.compiles + crowd.builders.length
      simp only [Stage.owed] at sums
      omega
  | left at_stage =>
      rw [at_stage] at here
      cases here with
      | @leaving program =>
          have moved : rush.Counted (crowd.move thread (.done (.ok program))) :=
            counted.moved .done (by rw [at_stage]; rfl) (by rw [at_stage]; rfl)
          exact ⟨moved.alike, moved.stages, moved.made, moved.distinct, moved.counted⟩

theorem Counted.all_built (counted : rush.Counted crowd) (finished : crowd.AllDone) :
    crowd.builders.Perm (List.finRange count) ∧ crowd.compiles = rush.compiles + count := by
  have all (thread : Fin count) : thread ∈ crowd.builders := by
    obtain ⟨outcome, is_done⟩ := finished thread
    rw [counted.made thread, is_done]
    rfl
  have each_once : crowd.builders.Perm (List.finRange count) :=
    (List.perm_ext_iff_of_nodup counted.distinct (List.nodup_finRange count)).mpr
      fun thread => iff_of_true (all thread) (List.mem_finRange thread)
  have nothing_owed : crowd.total Stage.owed = 0 := by
    apply Finset.sum_eq_zero
    intro thread _
    obtain ⟨outcome, is_done⟩ := finished thread
    rw [is_done]
    rfl
  have sums := counted.counted
  rw [each_once.length_eq, List.length_finRange, nothing_owed] at sums
  exact ⟨each_once, sums⟩

end Uncached

section Rushing

variable {rush : Rush} {count : Nat} {crowd : Crowd count}

theorem crowd_locked (rush : Rush) (count : Nat) : (rush.crowd count).Locked := by
  intro thread
  exact iff_of_false nofun nofun

theorem crowd_unbuilt (rush : Rush) (count : Nat) : rush.Unbuilt (rush.crowd count) where
  disk := rfl
  compiles := rfl
  builders := rfl
  stages := fun _ => .inl rfl

theorem crowd_counted (steady : rush.Steady) (count : Nat) : rush.Counted (rush.crowd count) where
  alike := steady.alike
  stages := fun _ => .arriving
  made := fun _ => iff_of_false nofun nofun
  distinct := List.nodup_nil
  counted := by
    have nothing_owed : (rush.crowd count).total Stage.owed = 0 := Finset.sum_eq_zero fun _ _ => rfl
    rw [nothing_owed]
    rfl

/-- The builder is done with the program that it made, and all others with what is stored. -/
theorem Built.outcome {builder thread : Fin count} {program : Program}
    {outcome : Except TemplateError Program} (built : rush.Built builder program crowd)
    (is_done : crowd.stages thread = .done outcome) :
    outcome = .ok (if thread ∈ crowd.builders then program else program.reread) := by
  rw [built.builders]
  by_cases here : thread = builder
  · have own := built.own
    rw [← here, is_done] at own
    cases own
    rw [if_pos (List.mem_singleton.mpr here)]
  · have others := built.others thread here
    rw [is_done] at others
    rw [if_neg (mt List.mem_singleton.mp here)]
    rcases others with early | leaves | same
    · cases early
    · cases leaves
    · cases same
      rfl

/-- Where the file gives the program back, it does not matter who built it. -/
theorem Built.outcome_exact {builder thread : Fin count} {program : Program}
    {outcome : Except TemplateError Program} (built : rush.Built builder program crowd)
    (exact_floats : program.FloatsExact) (is_done : crowd.stages thread = .done outcome) :
    outcome = .ok program := by
  obtain ⟨now, -, made⟩ := built.made
  obtain ⟨template, -, generated⟩ := bind_eq_ok.mp made
  have got := built.outcome is_done
  rwa [Program.reread_of_exact generated exact_floats, ite_self] at got

theorem Built.all_counted {builder : Fin count} {program : Program}
    (built : rush.Built builder program crowd) (finished : crowd.AllDone) :
    crowd.compiles = rush.compiles + 1 := by
  obtain ⟨outcome, is_done⟩ := finished builder
  have own := built.own
  rw [is_done] at own
  cases own with
  | done holds counted => exact counted

theorem Unbuilt.not_done {thread : Fin count} {outcome : Except TemplateError Program}
    (unbuilt : rush.Unbuilt crowd) : crowd.stages thread ≠ .done outcome := by
  intro is_done
  have early := unbuilt.stages thread
  rw [is_done] at early
  rcases early with early | builds
  · cases early
  · cases builds

/-- However the threads take their turns, at most one is under the lock. If stored programs
are used and there was none, one thread builds the program, and the others get it as it is read
again, which is the same program if its doubles are exact; if stored programs are not used,
each thread builds one. And there are always turns after which all are done. -/
theorem threads_share_one_build (steady : rush.Steady) (schedule : List (Fin count × Instant))
    (timely : ∀ turn ∈ schedule, rush.clock turn.2) :
    let crowd := rush.engine.turns rush.name (rush.crowd count) schedule
    (∀ thread other, (crowd.stages thread).isInside = true →
      (crowd.stages other).isInside = true → thread = other) ∧
    (rush.engine.options.isCached = true →
      rush.engine.stored? rush.disk rush.name = none →
        (∃ program now, rush.clock now ∧
          rush.engine.make rush.name rush.disk now = .ok program ∧
          (∀ thread outcome, crowd.stages thread = .done outcome →
            outcome = .ok (if thread ∈ crowd.builders then program else program.reread)) ∧
          (program.FloatsExact → ∀ thread outcome, crowd.stages thread = .done outcome →
            outcome = .ok program)) ∧
        crowd.builders.length ≤ 1 ∧
        (0 < count → crowd.AllDone →
          (∃ builder, crowd.builders = [builder]) ∧ crowd.compiles = rush.compiles + 1)) ∧
    (rush.engine.options.isCached = false →
      (∀ thread outcome, crowd.stages thread = .done outcome → ∃ program, outcome = .ok program) ∧
      (crowd.AllDone →
        crowd.builders.Perm (List.finRange count) ∧ crowd.compiles = rush.compiles + count)) ∧
    ∃ rest, (∀ turn ∈ rest, rush.clock turn.2) ∧
      (rush.engine.turns rush.name (rush.crowd count) (schedule ++ rest)).AllDone := by
  intro crowd
  have locked : crowd.Locked := Engine.turns_locked _ _ schedule (rush.crowd_locked count)
  refine ⟨fun thread other inside other_inside => locked.alone other_inside inside, ?_, ?_, ?_⟩
  · intro cached unused
    have shares : rush.Shares crowd := by
      have start : rush.Shares (rush.crowd count) :=
        ⟨rush.crowd_locked count, .inl (rush.crowd_unbuilt count)⟩
      exact Engine.turns_keep
        (fun shares ticks turned => shares.turned steady cached unused ticks turned)
        schedule timely start
    rcases shares.so_far with unbuilt | ⟨builder, program, built⟩
    · obtain ⟨now, ticks⟩ := steady.ticks
      obtain ⟨program, made, -⟩ := steady.makes rush.disk now steady.alike ticks
      refine ⟨⟨program, now, ticks, made, ?_, ?_⟩, ?_, ?_⟩
      · intro thread outcome is_done
        exact absurd is_done unbuilt.not_done
      · intro _ thread outcome is_done
        exact absurd is_done unbuilt.not_done
      · rw [unbuilt.builders]
        exact Nat.zero_le 1
      · intro some_thread finished
        obtain ⟨outcome, is_done⟩ := finished ⟨0, some_thread⟩
        exact absurd is_done unbuilt.not_done
    · obtain ⟨now, ticks, made⟩ := built.made
      refine ⟨⟨program, now, ticks, made, fun _ _ => built.outcome,
        fun exact_floats _ _ => built.outcome_exact exact_floats⟩, ?_, ?_⟩
      · rw [built.builders]
        exact Nat.le_refl 1
      · intro _ finished
        exact ⟨⟨builder, built.builders⟩, built.all_counted finished⟩
  · intro uncached
    have counted : rush.Counted crowd :=
      Engine.turns_keep (fun counted ticks turned => counted.turned steady uncached ticks turned)
        schedule timely (crowd_counted steady count)
    refine ⟨?_, counted.all_built⟩
    intro thread outcome is_done
    have separate := counted.stages thread
    rw [is_done] at separate
    cases separate with
    | @done program => exact ⟨program, rfl⟩
  · obtain ⟨now, ticks⟩ := steady.ticks
    obtain ⟨rest, at_now, finished⟩ :=
      rush.engine.turns_to_the_end rush.name locked now
    refine ⟨rest, ?_, ?_⟩
    · intro turn member
      rw [at_now turn member]
      exact ticks
    · rw [Engine.turns_append]
      exact finished

end Rushing

section Apart

variable {rush : Rush} {disk : Disk} {template : Template} {program : Program} {began : Instant}

/-- The files of a template are there, no younger than the clock, and none of them is the one
that its program is stored in. -/
def FilesApart (rush : Rush) (template : Template) : Prop :=
  ∀ source ∈ template.chain, ∃ path location content modified,
    rush.engine.sourcePath source = .ok path ∧
      rush.disk.entry path = .ok (location, .file content modified) ∧
      location ≠ rush.artifact ∧ ∀ now, rush.clock now → modified.isAfter now = false

theorem FilesApart.agree (apart : rush.FilesApart template) (alike : rush.Alike disk) :
    rush.engine.Agree (· ∈ template.chain) rush.disk disk := by
  intro source path member there
  obtain ⟨_, location, content, modified, again, found, elsewhere, -⟩ := apart source member
  cases there.symm.trans again
  rw [found]
  exact alike.spared.entry_same found elsewhere

theorem FilesApart.compile_same (apart : rush.FilesApart template) (alike : rush.Alike disk)
    (compiled : rush.engine.compile rush.disk rush.name = .ok template) :
    rush.engine.compile disk rush.name = .ok template := by
  have closed : Template.Closed (rush.engine.library rush.disk) (· ∈ template.chain) :=
    Template.chain_closed compiled
  have own : rush.name ∈ template.chain := by
    rw [← Template.compile_from_name compiled]
    exact List.mem_cons_self
  rw [(apart.agree alike).compile_same closed own]
  exact compiled

/-- It is enough to compile the template once, and to look at its files before. -/
theorem FilesApart.steady (apart : rush.FilesApart template)
    (ready : rush.engine.store.Ready rush.disk rush.folder)
    (free : ∀ since, rush.disk.lookup rush.artifact ≠ some (.folder since))
    (ticks : ∃ now, rush.clock now) (proper : ∀ now, rush.clock now → now.Proper)
    (compiled : rush.engine.compile rush.disk rush.name = .ok template)
    (generated : template.generate began = .ok program) (fits : program.FitsMemory) :
    rush.Steady where
  ready := ready
  free := free
  ticks := ticks
  proper := proper
  makes := by
    intro disk now alike _
    refine ⟨{ program with compiledAt := now }, ?_, fits.instructions, fits.codes⟩
    rw [Engine.make, apart.compile_same alike compiled]
    change template.generate now = _
    rw [Template.generate_later template began now, generated]
    rfl
  fresh := by
    intro _ disk now other alike clock made
    obtain ⟨same, compiled_again, generated_now⟩ := bind_eq_ok.mp made
    cases compiled.symm.trans compiled_again
    obtain ⟨-, sources, compiled_at, -⟩ := generate_eq_ok generated_now
    rw [stale_eq_false, sources, compiled_at]
    intro source member
    obtain ⟨path, location, content, modified, there, found, elsewhere, old⟩ := apart source member
    exact ⟨path, location, .file content modified, there,
      alike.spared.entry_same found elsewhere, old now clock⟩

end Apart

end Rush

def letterRush : Rush where
  engine := letters.engine { cached := some true, checkModified := true }
  name := "letter.html"
  disk := letters.disk
  folder := [".tmp"]
  compiles := 0
  clock now := now = .ofSeconds 1 ∨ now = .ofSeconds 2

namespace Rush

theorem letter_cached : letterRush.engine.options.isCached = true := by
  decide

theorem letter_clock : ∀ now, letterRush.clock now →
    now.Proper ∧ (Instant.ofSeconds 0).isAfter now = false := by
  rintro now (rfl | rfl) <;> decide

/-- The letter's file is apart from the program's, whatever it says. -/
theorem apart_of_letter {rush : Rush} {template : Template} {content : ByteArray}
    (folder : rush.folder = [".tmp"]) (clock : rush.clock = letterRush.clock)
    (there : rush.engine.sourcePath "letter.html" = .ok "/srv/letter.html")
    (found : rush.disk.entry "/srv/letter.html" =
      .ok (["letter.html"], .file content (.ofSeconds 0)))
    (alone : template.chain = ["letter.html"]) : rush.FilesApart template := by
  intro source member
  rw [alone, List.mem_singleton] at member
  subst member
  refine ⟨"/srv/letter.html", ["letter.html"], content, .ofSeconds 0, there, found, ?_, ?_⟩
  · rw [artifact, folder]
    intro same
    cases congrArg List.length same
  · rw [clock]
    exact fun now ticks => (letter_clock now ticks).2

theorem letter_steady : letterRush.Steady := by
  obtain ⟨-, there, -⟩ := Engine.letter_there
  obtain ⟨template, program, compiled, generated, whole⟩ := Engine.letter_made
  have apart : letterRush.FilesApart template :=
    apart_of_letter rfl rfl (toOption_eq_some.mp there)
      (Disk.entry_eq_ok.mpr ⟨Engine.letter_located, rfl⟩)
      (Template.assemble_chain (Engine.letter_compiled.symm.trans compiled))
  exact apart.steady letters_store (letters_ready.free "letter.html" rfl)
    ⟨.ofSeconds 1, .inl rfl⟩ (fun now ticks => (letter_clock now ticks).1) compiled generated
    whole.fits

theorem letter_unused : letterRush.engine.stored? letterRush.disk letterRush.name = none := by
  have spoiled := Option.isNone_iff_eq_none.mp letter_read.2.2.2
  have held : letters.disk.lookup (letters.folder ++ [Store.fileName "letter.html"]) =
      some (.file "{}".toUTF8 (.ofSeconds 0)) := by
    unfold letters
    generalize Store.fileName "letter.html" = file
    simp [Disk.lookup, Disk.find?]
  have loaded := Store.load_eq letters_store "letter.html"
  rw [held] at loaded
  exact Engine.stored_none (loaded.trans spoiled)

/-- Two of three threads look for the program before any of them builds it. -/
def firstLooks : List (Fin 3 × Instant) :=
  [(0, .ofSeconds 1), (1, .ofSeconds 1), (0, .ofSeconds 1), (1, .ofSeconds 2)]

theorem first_looks_timely : ∀ turn ∈ firstLooks, letterRush.clock turn.2 := by
  intro turn member
  simp only [firstLooks, List.mem_cons, List.not_mem_nil, or_false] at member
  rcases member with rfl | rfl | rfl | rfl
  · exact .inl rfl
  · exact .inl rfl
  · exact .inl rfl
  · exact .inr rfl

theorem letter_built_once : ∃ rest builder program,
    let crowd := letterRush.engine.turns letterRush.name (letterRush.crowd 3) (firstLooks ++ rest)
    crowd.builders = [builder] ∧ crowd.compiles = 1 ∧
      ∀ thread, crowd.stages thread = .done (.ok program) := by
  obtain ⟨-, -, -, rest, rest_timely, finished⟩ :=
    threads_share_one_build letter_steady firstLooks first_looks_timely
  have timely : ∀ turn ∈ firstLooks ++ rest, letterRush.clock turn.2 := by
    intro turn member
    rcases List.mem_append.mp member with early | late
    · exact first_looks_timely turn early
    · exact rest_timely turn late
  obtain ⟨-, shared, -, -⟩ := threads_share_one_build letter_steady (firstLooks ++ rest) timely
  obtain ⟨⟨program, now, -, made, -, same⟩, -, once⟩ := shared letter_cached letter_unused
  have exact_floats : program.FloatsExact := by
    obtain ⟨template, compiled, generated⟩ := bind_eq_ok.mp made
    exact Program.exact_of_pushless letter_read.2.2.1
      (Engine.letter_compiled.symm.trans compiled) generated
  obtain ⟨⟨builder, built⟩, counted⟩ := once (by decide) finished
  refine ⟨rest, builder, program, built, counted, ?_⟩
  intro thread
  obtain ⟨outcome, is_done⟩ := finished thread
  rw [← same exact_floats thread outcome is_done]
  exact is_done

def figuresRush : Rush := { letterRush with engine := Engine.figuresEngine, disk := Engine.figures }

theorem figures_steady : figuresRush.Steady := by
  obtain ⟨-, there, -⟩ := Engine.letter_there
  obtain ⟨program, disk, makes, fits, -⟩ := Engine.figures_gotten
  obtain ⟨template, compiled, generated⟩ := bind_eq_ok.mp makes
  have located : Engine.figures.locate "/srv/letter.html" = .ok ["letter.html"] :=
    (Disk.replaced_by_set rfl).located Engine.letter_located
  have apart : figuresRush.FilesApart template :=
    apart_of_letter rfl rfl (toOption_eq_some.mp there)
      (Disk.entry_eq_ok.mpr ⟨located, Disk.lookup_set_self⟩)
      (Template.assemble_chain (Engine.figures_compiled.symm.trans compiled))
  exact apart.steady Engine.figures_store (Engine.figures_free rfl) ⟨.ofSeconds 1, .inl rfl⟩
    (fun now ticks => (letter_clock now ticks).1) compiled generated fits

/-- One thread builds the program of a number and another finds it stored. They get different
programs, and with them different pages. -/
theorem figures_shared_otherwise :
    figuresRush.Steady ∧ figuresRush.engine.options.isCached = true ∧
    figuresRush.engine.stored? figuresRush.disk figuresRush.name = none ∧
    ∃ program other : Program, program ≠ other ∧
      program.execute .emptyMap = .ok "0.9999999999999999" ∧
      other.execute .emptyMap = .ok "1" ∧
      let crowd := figuresRush.engine.turns figuresRush.name (figuresRush.crowd 2)
        (List.replicate 8 (0, .ofSeconds 1) ++ List.replicate 8 (1, .ofSeconds 1))
      crowd.stages 0 = .done (.ok program) ∧ crowd.stages 1 = .done (.ok other) := by
  obtain ⟨program, disk, -, -, first, -, second, shown⟩ := Engine.figures_gotten
  obtain ⟨page, page_from_store⟩ := shown .emptyMap
  refine ⟨figures_steady, Engine.figures_found.2.2, Engine.figures_unstored, program,
    program.reread, Engine.ne_of_pages page page_from_store (by decide), page, page_from_store, ?_⟩
  have start := figuresRush.crowd_locked 2
  have builds := Engine.lone_thread_gets_program figuresRush.engine figuresRush.name
    (.ofSeconds 1) start rfl (rfl : (figuresRush.crowd 2).stages 0 = .arriving)
  have first_run : (figuresRush.engine.program figuresRush.name).run.run
      ((figuresRush.crowd 2).world (.ofSeconds 1)) =
        (.ok program, ⟨disk, 1, .ofSeconds 1⟩) := first
  rw [first_run] at builds
  have finds := Engine.lone_thread_gets_program figuresRush.engine figuresRush.name
    (.ofSeconds 1) (Engine.turns_locked _ _ _ start) builds.free (builds.others 1 (by decide))
  have second_run : (figuresRush.engine.program figuresRush.name).run.run
      ⟨disk, 1, .ofSeconds 1⟩ = (.ok program.reread, ⟨disk, 1, .ofSeconds 1⟩) := second
  rw [builds.world, second_run] at finds
  dsimp only
  rw [Engine.turns_append]
  exact ⟨(finds.others 0 (by decide)).trans builds.done, finds.done⟩

end Rush

end Letterpress
