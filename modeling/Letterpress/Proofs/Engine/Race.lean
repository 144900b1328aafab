import Letterpress.Engine.Race
import Letterpress.Proofs.Engine.Failure
import Letterpress.Proofs.Engine.Freshness

/-!
A build among rewrites. Left alone, its steps do what building does. Among rewrites that all
bear times of one clock, a stored program is stale as soon as one of its sources was rewritten
after the program got its time, and not before: the time says when all files had been read, so
a file that was rewritten after it was read and before that time does not look changed.
-/

namespace Letterpress

open Files

namespace Build

/-- The files that a build has read and that are still in what it makes. -/
def sources : Build → List String
  | .reading waiting _ => waiting.map Prod.fst
  | .generating template => template.chain
  | .storing program | .stored program => program.sources
  | .failed _ => []

def program? : Build → Option Program
  | .storing program | .stored program => some program
  | .reading _ _ | .generating _ | .failed _ => none

def afterReading : Except TemplateError Template → Build
  | .ok template => .generating template
  | .error error => .failed error

end Build

namespace Engine

section Alone

variable {engine : Engine} {disk : Disk} {name : String} {now : Instant}

def steps (times : List Instant) : List (Instant × Happening) := times.map (·, .step)

theorem happen_all_append (race : Race) (first rest : List (Instant × Happening)) :
    engine.happenAll race (first ++ rest) =
      engine.happenAll (engine.happenAll race first) rest := by
  induction first generalizing race with
  | nil => rfl
  | cons happening first later => exact later _

theorem step_reads {waiting : List (String × Template.Reading)} :
    engine.happen ⟨disk, .reading waiting name⟩ now .step =
      ⟨disk, match engine.readNext disk waiting name with
        | .ok build => build
        | .error error => .failed error⟩ := by
  simp only [happen, advance]
  cases engine.readNext disk waiting name <;> rfl

theorem advance_storing (engine : Engine) (disk : Disk) (now : Instant) (program : Program) :
    engine.advance disk now (.storing program) =
      ((engine.store.save disk program now).1.map fun _ => .stored program,
        (engine.store.save disk program now).2) := rfl

theorem step_generates {template : Template} {program : Program}
    (generated : template.generate now = .ok program) :
    engine.happen ⟨disk, .generating template⟩ now .step = ⟨disk, .storing program⟩ := by
  simp only [happen, advance, generated, Except.map]

theorem step_stores {program : Program} {after : Disk}
    (saved : engine.store.save disk program now = (.ok (), after)) :
    engine.happen ⟨disk, .storing program⟩ now .step = ⟨after, .stored program⟩ := by
  simp only [happen, advance_storing, saved, Except.map]

theorem read_alone {text : String} {waiting : List (String × Template.Reading)}
    (loaded : engine.load disk name = .ok text)
    (alone : (Template.readSource text).parent = none) :
    engine.readNext disk waiting name =
      (Template.assemble name (Template.readSource text) [] >>= (·.complete waiting)).map
        .generating := by
  unfold readNext
  simp only [loaded, alone, bind, Except.bind]
  cases Template.assemble name (Template.readSource text) [] with
  | error error => rfl
  | ok last =>
      dsimp only
      cases last.complete waiting <;> rfl

theorem read_extending {text target : String} {offset : Nat}
    {waiting : List (String × Template.Reading)} (loaded : engine.load disk name = .ok text)
    (extended : (Template.readSource text).parent = some (target, offset)) :
    engine.readNext disk waiting name =
      if target ∈ (waiting.map Prod.fst).reverse ++ [name] then
        .error (.directive name
          (.circular ((waiting.map Prod.fst).reverse ++ [name] ++ [target])) offset)
      else .ok (.reading ((name, Template.readSource text) :: waiting) target) := by
  unfold readNext
  simp only [loaded, extended, bind, Except.bind]
  rfl

theorem reads_on {text target : String} {offset : Nat}
    {waiting : List (String × Template.Reading)} (loaded : engine.load disk name = .ok text)
    (extended : (Template.readSource text).parent = some (target, offset))
    (fresh : target ∉ (waiting.map Prod.fst).reverse ++ [name]) :
    engine.happen ⟨disk, .reading waiting name⟩ now .step =
      ⟨disk, .reading ((name, Template.readSource text) :: waiting) target⟩ := by
  rw [step_reads, read_extending loaded extended, if_neg fresh]

theorem waiting_extended {trail : Template.Trail} {text target : String} {offset : Nat}
    {waiting : List (String × Template.Reading)}
    (names : trail.names = (waiting.map Prod.fst).reverse ++ [name])
    (extended : (Template.readSource text).parent = some (target, offset)) :
    (trail.extend text target offset extended).names =
      (((name, Template.readSource text) :: waiting).map Prod.fst).reverse ++ [target] := by
  rw [List.map_cons, List.reverse_cons, ← names]
  rfl

/-- Left alone, a build comes to something, whatever the times of its steps are. -/
def Reaches (engine : Engine) (race after : Race) : Prop :=
  ∃ count, ∀ times : List Instant, times.length = count →
    engine.happenAll race (steps times) = after

theorem Reaches.last {race after : Race} (last : ∀ now, engine.happen race now .step = after) :
    engine.Reaches race after := by
  refine ⟨1, fun times one => ?_⟩
  obtain ⟨now, rfl⟩ := List.length_eq_one_iff.mp one
  exact last now

theorem Reaches.next {race next after : Race}
    (first : ∀ now, engine.happen race now .step = next) (rest : engine.Reaches next after) :
    engine.Reaches race after := by
  obtain ⟨count, later⟩ := rest
  refine ⟨count + 1, fun times length => ?_⟩
  obtain ⟨now, times, rfl⟩ := List.exists_cons_of_length_eq_add_one length
  change engine.happenAll (engine.happen race now .step) (steps times) = after
  rw [first]
  exact later times (Nat.succ.inj length)

/-- Reading goes as compiling does, by induction on the search through what files extend. -/
theorem reads_as_compile (trail : Template.Trail) (name : String)
    (waiting : List (String × Template.Reading))
    (names : trail.names = (waiting.map Prod.fst).reverse ++ [name]) :
    engine.Reaches ⟨disk, .reading waiting name⟩
      ⟨disk, .afterReading
        (Template.compileFrom (engine.library disk) trail name >>= (·.complete waiting))⟩ := by
  fun_induction Template.compileFrom (engine.library disk) trail name generalizing waiting with
  | case1 trail name error loaded =>
      change engine.load disk name = .error error at loaded
      apply Reaches.last
      intro now
      rw [step_reads, readNext, loaded]
      rfl
  | case2 trail name text loaded alone =>
      apply Reaches.last
      intro now
      rw [step_reads, read_alone loaded alone]
      cases Template.assemble name (Template.readSource text) [] >>= (·.complete waiting) <;> rfl
  | case3 trail name text loaded target offset extended seen =>
      apply Reaches.last
      intro now
      rw [names] at seen ⊢
      rw [step_reads, read_extending loaded extended, if_pos seen]
      rfl
  | case4 trail name text loaded target offset extended fresh error failed above =>
      rw [names] at fresh
      have on := above _ (waiting_extended names extended)
      rw [failed] at on
      exact Reaches.next (fun _ => reads_on loaded extended fresh) on
  | case5 trail name text loaded target offset extended fresh parent compiled above =>
      rw [names] at fresh
      have on := above _ (waiting_extended names extended)
      rw [compiled] at on
      exact Reaches.next (fun _ => reads_on loaded extended fresh) on

/-- A build that nothing comes between makes the program of the files, and stores it. -/
theorem undisturbed (engine : Engine) (disk : Disk) (name : String) :
    ∃ count, ∀ times : List Instant, times.length = count → ∀ stamped saved,
      engine.happenAll ⟨disk, .reading [] name⟩ (steps (times ++ [stamped, saved])) =
        match engine.make name disk stamped with
        | .error error => ⟨disk, .failed error⟩
        | .ok program =>
            match engine.store.save disk program saved with
            | (.error error, after) => ⟨after, .failed error⟩
            | (.ok (), after) => ⟨after, .stored program⟩ := by
  have reads : engine.Reaches ⟨disk, .reading [] name⟩
      ⟨disk, .afterReading (engine.compile disk name >>= Except.ok)⟩ :=
    reads_as_compile (Template.Trail.ofName name) name [] rfl
  obtain ⟨count, read⟩ := reads
  refine ⟨count, fun times length stamped saved => ?_⟩
  rw [steps, List.map_append, happen_all_append]
  change engine.happenAll (engine.happenAll _ (steps times)) _ = _
  rw [read times length]
  unfold make
  cases engine.compile disk name with
  | error error => rfl
  | ok template =>
      simp only [bind, Except.bind, Build.afterReading, List.map_cons, List.map_nil, happenAll,
        happen, advance]
      cases template.generate stamped with
      | error error => rfl
      | ok program =>
          dsimp only [Except.map]
          generalize engine.store.save disk program saved = saving
          obtain ⟨outcome, after⟩ := saving
          cases outcome <;> rfl

end Alone

section Following

variable {engine : Engine} {disk start after : Disk} {name : String} {now : Instant}
  {build next : Build} {race : Race} {past : List (Instant × Happening)} {location : Location}
  {content : ByteArray}

theorem place_eq_some :
    engine.place? disk name = some location ↔
      ∃ path, engine.sourcePath name = .ok path ∧ disk.locate path = .ok location := by
  unfold place?
  cases engine.sourcePath name with
  | error error => simp
  | ok path => simp [toOption_eq_some]

theorem place_same (same : Disk.SameFolders disk after) (name : String) :
    engine.place? after name = engine.place? disk name := by
  ext location
  simp only [place_eq_some]
  constructor
  · rintro ⟨path, there, located⟩
    exact ⟨path, there, same.symm.located located⟩
  · rintro ⟨path, there, located⟩
    exact ⟨path, there, same.located located⟩

theorem source_iff : engine.HasSource disk name ↔ ∃ location content modified,
    engine.place? disk name = some location ∧
      disk.lookup location = some (.file content modified) := by
  constructor
  · rintro ⟨path, there, is_file⟩
    unfold Disk.isFile at is_file
    split at is_file
    · next location content modified found =>
        obtain ⟨located, stands⟩ := Disk.entry_eq_ok.mp found
        exact ⟨location, content, modified, place_eq_some.mpr ⟨path, there, located⟩, stands⟩
    · cases is_file
  · rintro ⟨location, content, modified, placed, stands⟩
    obtain ⟨path, there, located⟩ := place_eq_some.mp placed
    refine ⟨path, there, ?_⟩
    rw [Disk.isFile, Disk.entry_eq_ok.mpr ⟨located, stands⟩]

theorem complete_chain {parent template : Template} {waiting : List (String × Template.Reading)}
    (completed : parent.complete waiting = .ok template) :
    template.chain = (waiting.map Prod.fst).reverse ++ parent.chain := by
  induction waiting generalizing parent with
  | nil =>
      cases completed
      rfl
  | cons first waiting later =>
      obtain ⟨child, assembled, completed⟩ := bind_eq_ok.mp completed
      rw [later completed, Template.assemble_chain assembled]
      simp [Template.chain]

/-- All that a step of a build can do when it does not fail. -/
inductive Advanced (engine : Engine) (disk : Disk) (now : Instant) :
    Build → Build → Disk → Prop
  | read {waiting : List (String × Template.Reading)} {name : String} {next : Build}
      (source : engine.HasSource disk name) (unmade : next.program? = none)
      (few : ∀ source ∈ next.sources, source = name ∨ source ∈ waiting.map Prod.fst) :
      Advanced engine disk now (.reading waiting name) next disk
  | generated {template : Template} {program : Program}
      (generated : template.generate now = .ok program) :
      Advanced engine disk now (.generating template) (.storing program) disk
  | saved {program : Program} {after : Disk}
      (saved : engine.store.save disk program now = (.ok (), after)) :
      Advanced engine disk now (.storing program) (.stored program) after
  | rested {program : Program} : Advanced engine disk now (.stored program) (.stored program) disk

theorem read_next_cases {waiting : List (String × Template.Reading)}
    (read : engine.readNext disk waiting name = .ok next) :
    engine.HasSource disk name ∧ next.program? = none ∧
      ∀ source ∈ next.sources, source = name ∨ source ∈ waiting.map Prod.fst := by
  obtain ⟨text, loaded, -⟩ := bind_eq_ok.mp read
  refine ⟨source_of_load loaded, ?_⟩
  cases extended : (Template.readSource text).parent with
  | none =>
      rw [read_alone loaded extended] at read
      cases completed : Template.assemble name (Template.readSource text) [] >>=
          (·.complete waiting) with
      | error error =>
          rw [completed] at read
          cases read
      | ok template =>
          rw [completed] at read
          cases read
          obtain ⟨last, assembled, completed⟩ := bind_eq_ok.mp completed
          refine ⟨rfl, fun source member => ?_⟩
          change source ∈ template.chain at member
          rw [complete_chain completed, Template.assemble_chain assembled] at member
          simpa [or_comm] using member
  | some parent =>
      obtain ⟨target, offset⟩ := parent
      rw [read_extending loaded extended] at read
      split at read
      · cases read
      · cases read
        exact ⟨rfl, fun source member => List.mem_cons.mp member⟩

theorem advance_cases (advanced : engine.advance disk now build = (.ok next, after)) :
    engine.Advanced disk now build next after := by
  cases build with
  | reading waiting name =>
      obtain ⟨read, rfl⟩ := Prod.mk.inj advanced
      obtain ⟨source, unmade, few⟩ := read_next_cases read
      exact .read source unmade few
  | generating template =>
      obtain ⟨mapped, rfl⟩ := Prod.mk.inj advanced
      obtain ⟨program, generated, rfl⟩ := map_eq_ok.mp mapped
      exact .generated generated
  | storing program =>
      rcases saved : engine.store.save disk program now with ⟨outcome, stored⟩
      rw [advance_storing, saved] at advanced
      cases outcome with
      | error error => cases advanced
      | ok done =>
          cases advanced
          exact .saved saved
  | stored program =>
      cases advanced
      exact .rested
  | failed error => cases advanced

/-- A step that fails leaves the files alone, and no program was stored before it. -/
theorem advance_fails {error : TemplateError}
    (failed : engine.advance disk now build = (.error error, after)) :
    (∀ program, build ≠ .stored program) ∧ Disk.Touched disk after := by
  cases build with
  | reading waiting name | generating template | failed problem =>
      obtain ⟨-, rfl⟩ := Prod.mk.inj failed
      exact ⟨nofun, .refl disk⟩
  | storing program =>
      rcases saved : engine.store.save disk program now with ⟨outcome, stored⟩
      rw [advance_storing, saved] at failed
      cases outcome with
      | error problem =>
          cases failed
          exact ⟨nofun, Store.save_fails saved⟩
      | ok done => cases failed
  | stored program => cases failed

theorem rewrite_cases (engine : Engine) (disk : Disk) (name : String) (content : ByteArray)
    (now : Instant) :
    (∃ location before modified, engine.place? disk name = some location ∧
        disk.lookup location = some (.file before modified) ∧
        engine.rewrite disk name content now = disk.set location (.file content now)) ∨
      (∀ location before modified, engine.place? disk name = some location →
        disk.lookup location ≠ some (.file before modified)) ∧
        engine.rewrite disk name content now = disk := by
  unfold rewrite
  cases engine.place? disk name with
  | none => exact .inr ⟨by simp, rfl⟩
  | some location =>
      dsimp only
      split
      · next before modified stands => exact .inl ⟨location, before, modified, rfl, stands, rfl⟩
      · next no_file =>
          refine .inr ⟨fun _ before modified there stands => ?_, rfl⟩
          cases there
          exact no_file before modified stands

def RewrittenAt (engine : Engine) (start : Disk) (past : List (Instant × Happening))
    (location : Location) (time : Instant) : Prop :=
  ∃ name content, (time, .rewrite name content) ∈ past ∧ engine.place? start name = some location

def StoredAt (engine : Engine) (start : Disk) (build : Build) (location : Location) : Prop :=
  ∃ program, build = .stored program ∧
    start.locate (engine.store.path program.name) = .ok location

/-- What holds after things have happened: files but for that of the program bear the time of
their last rewrite, or have the time they had. What was read are files. -/
structure Followed (engine : Engine) (start : Disk) (past : List (Instant × Happening))
    (race : Race) : Prop where
  folders : Disk.SameFolders start race.disk
  files : ∀ location content modified,
    race.disk.lookup location = some (.file content modified) →
      ¬engine.StoredAt start race.build location →
        (engine.RewrittenAt start past location modified ∨
          ∃ before, start.lookup location = some (.file before modified)) ∧
        ∀ time, engine.RewrittenAt start past location time →
          modified = time ∨ modified.isAfter time = true
  read : ∀ source ∈ race.build.sources, engine.HasSource race.disk source

theorem rewritten_after_step {time : Instant} :
    engine.RewrittenAt start (past ++ [(now, Happening.step)]) location time ↔
      engine.RewrittenAt start past location time := by
  simp [RewrittenAt]

theorem rewritten_after_rewrite {time : Instant} :
    engine.RewrittenAt start (past ++ [(now, Happening.rewrite name content)]) location time ↔
      engine.RewrittenAt start past location time ∨
        time = now ∧ engine.place? start name = some location := by
  constructor
  · rintro ⟨other, held, member, there⟩
    rcases List.mem_append.mp member with before | last
    · exact .inl ⟨other, held, before, there⟩
    · cases List.mem_singleton.mp last
      exact .inr ⟨rfl, there⟩
  · rintro (⟨other, held, before, there⟩ | ⟨rfl, there⟩)
    · exact ⟨other, held, List.mem_append_left _ before, there⟩
    · exact ⟨name, content, by simp, there⟩

theorem Followed.begun (engine : Engine) (start : Disk) (name : String) :
    engine.Followed start [] ⟨start, .reading [] name⟩ where
  folders := .refl start
  files := by
    intro location content modified stands _
    refine ⟨.inr ⟨content, stands⟩, ?_⟩
    rintro time ⟨_, _, member, _⟩
    cases member
  read := by simp [Build.sources]

/-- A rewrite comes after all that has happened, so its file bears the last time of all. -/
theorem Followed.file_rewritten {before content : ByteArray} {since : Instant}
    (followed : engine.Followed start past race)
    (later : ∀ happened ∈ past, now.isAfter happened.1 = true)
    (there : engine.place? start name = some location)
    (stood : race.disk.lookup location = some (.file before since)) :
    engine.Followed start (past ++ [(now, Happening.rewrite name content)])
      { race with disk := race.disk.set location (.file content now) } where
  folders := followed.folders.trans (Disk.replaced_by_set stood).same_folders
  files := by
    intro place held modified stands unstored
    dsimp only at stands
    simp only [rewritten_after_rewrite]
    by_cases here : place = location
    · -- no rewrite of this file is later, since none at all is
      subst here
      cases Disk.lookup_set_self.symm.trans stands
      refine ⟨.inl (.inr ⟨rfl, there⟩), ?_⟩
      rintro time (⟨other, text, member, -⟩ | ⟨rfl, -⟩)
      · exact .inr (later _ member)
      · exact .inl rfl
    · rw [Disk.lookup_set_of_ne here] at stands
      obtain ⟨dated, noticed⟩ := followed.files place held modified stands unstored
      refine ⟨dated.imp_left .inl, ?_⟩
      rintro time (rewritten | ⟨-, elsewhere⟩)
      · exact noticed time rewritten
      · cases there.symm.trans elsewhere
        exact absurd rfl here
  read := fun source member => (followed.read source member).kept (Disk.replaced_by_set stood)

theorem Followed.nothing_rewritten (followed : engine.Followed start past race)
    (no_file : ∀ location before since, engine.place? start name = some location →
      race.disk.lookup location ≠ some (.file before since)) :
    engine.Followed start (past ++ [(now, Happening.rewrite name content)]) race where
  folders := followed.folders
  files := by
    intro place held modified stands unstored
    simp only [rewritten_after_rewrite]
    obtain ⟨dated, noticed⟩ := followed.files place held modified stands unstored
    refine ⟨dated.imp_left .inl, ?_⟩
    rintro time (rewritten | ⟨-, there⟩)
    · exact noticed time rewritten
    · exact absurd stands (no_file place held modified there)
  read := followed.read

/-- A step of the build leaves files and their times alone, but for the file of the program. -/
theorem Followed.stepped (followed : engine.Followed start past race)
    (folders : Disk.SameFolders race.disk after)
    (files : ∀ location content modified, after.lookup location = some (.file content modified) →
      ¬engine.StoredAt start next location →
        race.disk.lookup location = some (.file content modified) ∧
          ¬engine.StoredAt start race.build location)
    (read : ∀ source ∈ next.sources, engine.HasSource after source) :
    engine.Followed start (past ++ [(now, Happening.step)]) ⟨after, next⟩ where
  folders := followed.folders.trans folders
  files := by
    intro location content modified stands unstored
    obtain ⟨stood, unstored_before⟩ := files location content modified stands unstored
    simp only [rewritten_after_step]
    exact followed.files location content modified stood unstored_before
  read := read

theorem not_stored_at (unstored : ∀ program, build ≠ .stored program) :
    ¬engine.StoredAt start build location := by
  rintro ⟨program, rfl, -⟩
  exact unstored program rfl

theorem Followed.advanced (followed : engine.Followed start past race)
    (advanced : engine.Advanced race.disk now race.build next after) :
    engine.Followed start (past ++ [(now, Happening.step)]) ⟨after, next⟩ := by
  obtain ⟨disk, build⟩ := race
  cases advanced with
  | read source unmade few =>
      apply followed.stepped (.refl disk)
      · intro location content modified stands _
        exact ⟨stands, not_stored_at (by simp)⟩
      · intro other member
        rcases few other member with rfl | before
        · exact source
        · exact followed.read other before
  | @generated template program generated =>
      obtain ⟨-, sources, -, -⟩ := generate_eq_ok generated
      apply followed.stepped (.refl disk)
      · intro location content modified stands _
        exact ⟨stands, not_stored_at (by simp)⟩
      · intro source member
        have read_before : source ∈ (Build.generating template).sources := by
          rw [Build.sources, ← sources]
          exact member
        exact followed.read source read_before
  | @saved program after saved =>
      obtain ⟨place, there, -, replaced⟩ := Store.save_saved saved
      -- paths lead where they led at the start, so this is the one file left out of account
      have there_before := followed.folders.symm.located there
      apply followed.stepped replaced.same_folders
      · intro location content modified stands unstored
        have different : location ≠ place := by
          rintro rfl
          exact unstored ⟨program, rfl, there_before⟩
        exact ⟨(replaced.elsewhere different).mp stands, not_stored_at (by simp)⟩
      · intro source member
        exact (followed.read source member).kept replaced
  | rested =>
      apply followed.stepped (.refl disk)
      · exact fun _ _ _ stands unstored => ⟨stands, unstored⟩
      · exact followed.read

theorem Followed.happened (followed : engine.Followed start past race)
    (later : ∀ happened ∈ past, now.isAfter happened.1 = true) (happening : Happening) :
    engine.Followed start (past ++ [(now, happening)]) (engine.happen race now happening) := by
  cases happening with
  | step =>
      unfold happen
      dsimp only
      split
      · next next advanced => exact followed.advanced (advance_cases (Prod.ext advanced rfl))
      · next error failed =>
          obtain ⟨unstored, touched⟩ := advance_fails (Prod.ext failed rfl)
          apply followed.stepped touched.same_folders
          · intro location content modified stands _
            exact ⟨(touched.alike location).file_iff.mp stands, not_stored_at unstored⟩
          · simp [Build.sources]
  | rewrite name content =>
      have same_place : engine.place? race.disk name = engine.place? start name :=
        place_same followed.folders name
      unfold happen
      dsimp only
      rcases engine.rewrite_cases race.disk name content now with
        ⟨location, before, since, there, stood, put⟩ | ⟨no_file, nothing⟩
      · rw [put]
        exact followed.file_rewritten later (same_place.symm.trans there) stood
      · rw [nothing]
        apply followed.nothing_rewritten
        intro location before since there
        exact no_file location before since (same_place.trans there)

/-- All that happens at increasing times, by induction from the first to the last. -/
theorem Followed.all_happened (followed : engine.Followed start past race)
    (happenings : List (Instant × Happening))
    (clock : (past ++ happenings).Pairwise fun earlier later =>
      later.1.isAfter earlier.1 = true) :
    engine.Followed start (past ++ happenings) (engine.happenAll race happenings) := by
  induction happenings generalizing past race with
  | nil =>
      rw [List.append_nil]
      exact followed
  | cons first rest later =>
      obtain ⟨now, happening⟩ := first
      have after_past : ∀ happened ∈ past, now.isAfter happened.1 = true :=
        fun happened member =>
          (List.pairwise_append.mp clock).2.2 happened member _ List.mem_cons_self
      rw [List.append_cons] at clock ⊢
      exact later (followed.happened after_past happening) clock

theorem stale_of_files {program : Program}
    (files : ∀ source ∈ program.sources, engine.HasSource disk source) :
    engine.isStale disk program = true ↔
      ∃ source ∈ program.sources, ∃ location content modified,
        engine.place? disk source = some location ∧
          disk.lookup location = some (.file content modified) ∧
            modified.isAfter program.compiledAt = true := by
  constructor
  · intro stale
    by_contra none_younger
    have fresh : engine.isStale disk program = false := by
      apply stale_eq_false.mpr
      intro source member
      obtain ⟨location, content, modified, placed, stands⟩ := source_iff.mp (files source member)
      obtain ⟨path, there, located⟩ := place_eq_some.mp placed
      refine ⟨path, location, .file content modified, there,
        Disk.entry_eq_ok.mpr ⟨located, stands⟩, ?_⟩
      rw [Bool.eq_false_iff]
      intro younger
      exact none_younger ⟨source, member, location, content, modified, placed, stands, younger⟩
    rw [fresh] at stale
    cases stale
  · rintro ⟨source, member, location, content, modified, placed, stands, younger⟩
    rw [← Bool.not_eq_false]
    intro fresh
    obtain ⟨path, there, located⟩ := place_eq_some.mp placed
    obtain ⟨path', elsewhere, entry, there', found, old⟩ := stale_eq_false.mp fresh source member
    cases there.symm.trans there'
    cases (Disk.entry_eq_ok.mpr ⟨located, stands⟩).symm.trans found
    cases younger.symm.trans old

theorem Followed.stale_iff {program : Program}
    (followed : engine.Followed start past ⟨disk, .stored program⟩)
    (old : ∀ location content modified, start.lookup location = some (.file content modified) →
      modified.isAfter program.compiledAt = false)
    (apart : ∀ source ∈ program.sources, ∀ location,
      engine.place? start source = some location →
        start.locate (engine.store.path program.name) ≠ .ok location) :
    engine.isStale disk program = true ↔
      ∃ source ∈ program.sources, ∃ location time,
        engine.place? start source = some location ∧
          engine.RewrittenAt start past location time ∧
            time.isAfter program.compiledAt = true := by
  have unstored : ∀ source ∈ program.sources, ∀ location,
      engine.place? start source = some location →
        ¬engine.StoredAt start (.stored program) location := by
    rintro source member location placed ⟨other, same, located⟩
    cases same
    exact apart source member location placed located
  have same_place (source : String) : engine.place? disk source = engine.place? start source :=
    place_same followed.folders source
  rw [stale_of_files followed.read]
  constructor
  · rintro ⟨source, member, location, content, modified, placed, stands, younger⟩
    rw [same_place] at placed
    have dated := (followed.files location content modified stands
      (unstored source member location placed)).1
    rcases dated with rewritten | ⟨before, stood⟩
    · exact ⟨source, member, location, modified, placed, rewritten, younger⟩
    · cases younger.symm.trans (old location before modified stood)
  · rintro ⟨source, member, location, time, placed, rewritten, younger⟩
    obtain ⟨_, content, modified, placed_now, stands⟩ :=
      source_iff.mp (followed.read source member)
    cases placed.symm.trans ((same_place source).symm.trans placed_now)
    have noticed := (followed.files location content modified stands
      (unstored source member location placed)).2 time rewritten
    refine ⟨source, member, location, content, modified, placed_now, stands, ?_⟩
    rcases noticed with rfl | later
    · exact younger
    · exact Instant.after_trans later younger

theorem Advanced.program_kept {program : Program}
    (advanced : engine.Advanced disk now build next after) (made : next.program? = some program) :
    build.program? = some program ∨
      ∃ template, build = .generating template ∧ template.generate now = .ok program := by
  cases advanced with
  | read source unmade few => cases unmade.symm.trans made
  | generated generated =>
      cases made
      exact .inr ⟨_, rfl, generated⟩
  | saved saved => exact .inl made
  | rested => exact .inl made

/-- A program was made by a step that found all files read, and bears the time of this step. -/
theorem stamped_after_reading {program : Program} (race : Race)
    (unmade : race.build.program? = none) (happenings : List (Instant × Happening))
    (made : (engine.happenAll race happenings).build.program? = some program) :
    ∃ before rest template, happenings = before ++ (program.compiledAt, Happening.step) :: rest ∧
      (engine.happenAll race before).build = .generating template ∧
        template.generate program.compiledAt = .ok program := by
  -- from the last: if it did not make the program, it kept the one that was there
  induction happenings using List.reverseRecOn with
  | nil => cases unmade.symm.trans made
  | append_singleton past last earlier =>
      obtain ⟨now, happening⟩ := last
      have kept : (engine.happenAll race past).build.program? = some program →
          ∃ before rest template,
            past ++ [(now, happening)] = before ++ (program.compiledAt, Happening.step) :: rest ∧
              (engine.happenAll race before).build = .generating template ∧
                template.generate program.compiledAt = .ok program := by
        intro made_before
        obtain ⟨before, rest, template, rfl, read, generated⟩ := earlier made_before
        exact ⟨before, rest ++ [(now, happening)], template, by simp, read, generated⟩
      rw [happen_all_append] at made
      change (engine.happen (engine.happenAll race past) now happening).build.program? = _ at made
      cases happening with
      | rewrite name content => exact kept made
      | step =>
          unfold happen at made
          dsimp only at made
          split at made
          · next next advanced =>
              have goes := advance_cases (Prod.ext advanced rfl)
              rcases goes.program_kept made with before | now_made
              · exact kept before
              · obtain ⟨template, read, generated⟩ := now_made
                have stamped := (generate_eq_ok generated).2.2.1
                subst stamped
                exact ⟨past, [], template, rfl, read, generated⟩
          · cases made

/-- However a build and rewrites take turns, the stored program counts as stale exactly if the
file of a source was rewritten after the program got its time. By then all files have been
read, so a rewrite between the reading of a file and that time makes no difference. -/
theorem stale_iff_rewritten_since_stamp {happenings : List (Instant × Happening)}
    {program : Program}
    (clock : happenings.Pairwise fun earlier later => later.1.isAfter earlier.1 = true)
    (older : ∀ location content modified, start.lookup location = some (.file content modified) →
      ∀ happened ∈ happenings, happened.1.isAfter modified = true)
    (ended : engine.happenAll ⟨start, .reading [] name⟩ happenings = ⟨disk, .stored program⟩)
    (apart : ∀ source ∈ program.sources, ∀ location,
      engine.place? start source = some location →
        start.locate (engine.store.path program.name) ≠ .ok location) :
    (∃ before rest template, happenings = before ++ (program.compiledAt, Happening.step) :: rest ∧
      (engine.happenAll ⟨start, .reading [] name⟩ before).build = .generating template ∧
        template.generate program.compiledAt = .ok program) ∧
      (engine.isStale disk program = true ↔
        ∃ source ∈ program.sources, ∃ location time,
          engine.place? start source = some location ∧
            engine.RewrittenAt start happenings location time ∧
              time.isAfter program.compiledAt = true) := by
  have made : (engine.happenAll ⟨start, .reading [] name⟩ happenings).build.program? =
      some program := by
    rw [ended]
    rfl
  have stamp := stamped_after_reading ⟨start, .reading [] name⟩ rfl happenings made
  refine ⟨stamp, ?_⟩
  have followed : engine.Followed start happenings ⟨disk, .stored program⟩ := by
    rw [← ended]
    exact (Followed.begun engine start name).all_happened happenings clock
  apply followed.stale_iff _ apart
  intro location content modified stood
  obtain ⟨before, rest, template, split, -⟩ := stamp
  have stamped : (program.compiledAt, .step) ∈ happenings := by simp [split]
  exact Instant.not_after_earlier (older location content modified stood _ stamped)

end Following

section Letter

def letterEngine : Engine := letters.engine { cached := some true, checkModified := true }

def reworded (now : Instant) : Disk :=
  letters.disk.set ["letter.html"] (.file "Hello".toUTF8 now)

/-- The letter is rewritten after it was read, and before its program gets a time. -/
def rewriteBeforeStamp : List (Instant × Happening) :=
  [(.ofSeconds 1, .step), (.ofSeconds 2, .rewrite "letter.html" "Hello".toUTF8),
    (.ofSeconds 3, .step), (.ofSeconds 4, .step)]

/-- The letter is rewritten after its program got a time. -/
def rewriteAfterStamp : List (Instant × Happening) :=
  [(.ofSeconds 1, .step), (.ofSeconds 2, .step),
    (.ofSeconds 3, .rewrite "letter.html" "Hello".toUTF8), (.ofSeconds 4, .step)]

theorem letter_path : letterEngine.sourcePath "letter.html" = .ok "/srv/letter.html" :=
  toOption_eq_some.mp letter_there.2.1

theorem letter_placed : letterEngine.place? letters.disk "letter.html" = some ["letter.html"] :=
  place_eq_some.mpr ⟨_, letter_path, letter_located⟩

theorem letter_reworded (build : Build) (now : Instant) :
    letterEngine.happen ⟨letters.disk, build⟩ now (.rewrite "letter.html" "Hello".toUTF8) =
      ⟨reworded now, build⟩ := by
  unfold happen rewrite
  dsimp only
  rw [letter_placed]
  rfl

theorem reworded_replaced (now : Instant) :
    Disk.Replaced ["letter.html"] "Hello".toUTF8 letters.disk (reworded now) :=
  Disk.replaced_by_set rfl

theorem letters_dated {location : Location} {content : ByteArray} {modified : Instant}
    (stood : letters.disk.lookup location = some (.file content modified)) :
    modified = .ofSeconds 0 := by
  have held := Disk.mem_of_find? stood
  unfold letters at held
  generalize Store.fileName "letter.html" = file at held
  simp only [List.mem_cons, Prod.mk.injEq, reduceCtorEq, and_false, Entry.file.injEq,
    List.not_mem_nil, or_false, false_or] at held
  rcases held with ⟨-, -, dated⟩ | ⟨-, -, dated⟩ <;> exact dated

theorem letter_drafted : ∃ template,
    Template.assemble "letter.html" (Template.readSource "Dear {{ name }}") [] = .ok template ∧
      (∀ now, letterEngine.happen ⟨letters.disk, .reading [] "letter.html"⟩ now .step =
        ⟨letters.disk, .generating template⟩) ∧
      ∀ now, ∃ program, template.generate now = .ok program ∧ program.KeptWhole ∧
        program.name = "letter.html" ∧ program.sources = ["letter.html"] ∧
          program.compiledAt = now := by
  obtain ⟨program, made, whole⟩ := letter_generated
  obtain ⟨template, assembled, generated⟩ := bind_eq_ok.mp made
  obtain ⟨loaded, alone, pushless, -⟩ := letter_read
  refine ⟨template, assembled, fun now => ?_, fun now => ?_⟩
  · have loaded_here : letterEngine.load letters.disk "letter.html" = .ok "Dear {{ name }}" :=
      toOption_eq_some.mp loaded
    rw [step_reads, read_alone loaded_here alone, assembled]
    rfl
  · have chain : template.chain = ["letter.html"] := Template.assemble_chain assembled
    obtain ⟨named, sources, -⟩ := generate_eq_ok generated
    have later : template.generate now = .ok { program with compiledAt := now } := by
      rw [Template.generate_later template (.ofSeconds 1) now, generated]
      rfl
    exact ⟨{ program with compiledAt := now }, later,
      ⟨⟨whole.fits.instructions, whole.fits.codes⟩,
        Program.exact_of_pushless pushless assembled later⟩,
      named.trans (List.cons.inj chain).1, sources.trans chain, rfl⟩

theorem reworded_stores {program : Program} (named : program.name = "letter.html")
    (now saved : Instant) : ∃ after,
      letterEngine.store.save (reworded now) program saved = (.ok (), after) ∧
        after.entry "/srv/letter.html" = .ok (["letter.html"], .file "Hello".toUTF8 now) := by
  have ready := letters_store.kept (letters_overwritten "Hello".toUTF8 now)
  have free (since : Instant) :
      (reworded now).lookup (letters.folder ++ [Store.fileName program.name]) ≠
        some (.folder since) := by
    rw [named, reworded, Disk.lookup_set_of_ne (by simp [letters])]
    exact letters_ready.free "letter.html" rfl since
  obtain ⟨after, stored⟩ := Store.save_works ready saved free
  obtain ⟨place, located, -, replaced⟩ := Store.save_saved stored
  cases (Store.locate_program ready program.name).symm.trans located
  have letter : (reworded now).locate "/srv/letter.html" = .ok ["letter.html"] :=
    (reworded_replaced now).located letter_located
  have different : ["letter.html"] ≠ letters.folder ++ [Store.fileName program.name] := by
    intro same
    cases congrArg List.length same
  refine ⟨after, stored, Disk.entry_eq_ok.mpr ⟨replaced.located letter, ?_⟩⟩
  exact (replaced.elsewhere different).mpr Disk.lookup_set_self

theorem reworded_loaded {disk : Disk} {modified : Instant}
    (found : disk.entry "/srv/letter.html" =
      .ok (["letter.html"], .file "Hello".toUTF8 modified)) :
    letterEngine.load disk "letter.html" = .ok "Hello" := by
  rw [load, letter_path]
  dsimp only
  rw [Disk.readText, Disk.read, found]
  rfl

/-- The letter is rewritten between being read and the time of its program. The program has the
old words, and yet it is not stale, and the next page comes from it. -/
theorem rewrite_before_stamp_missed :
    (rewriteBeforeStamp.Pairwise fun earlier later => later.1.isAfter earlier.1 = true) ∧
    ∃ template program disk,
      letterEngine.happen ⟨letters.disk, .reading [] "letter.html"⟩ (.ofSeconds 1) .step =
        ⟨letters.disk, .generating template⟩ ∧
      letterEngine.happenAll ⟨letters.disk, .reading [] "letter.html"⟩ rewriteBeforeStamp =
        ⟨disk, .stored program⟩ ∧
      Template.assemble "letter.html" (Template.readSource "Dear {{ name }}") [] = .ok template ∧
      template.generate (.ofSeconds 3) = .ok program ∧
      letterEngine.load disk "letter.html" = .ok "Hello" ∧
      letterEngine.isStale disk program = false ∧
      ∀ now, (letterEngine.program "letter.html").run.run ⟨disk, 1, now⟩ =
        (.ok program, ⟨disk, 1, now⟩) := by
  refine ⟨by decide, ?_⟩
  obtain ⟨template, assembled, reads, generates⟩ := letter_drafted
  obtain ⟨program, generated, whole, named, sources, compiled⟩ := generates (.ofSeconds 3)
  obtain ⟨disk, stored, found⟩ := reworded_stores named (.ofSeconds 2) (.ofSeconds 4)
  have loaded := reworded_loaded found
  have fresh : letterEngine.isStale disk program = false := by
    apply stale_eq_false.mpr
    intro source member
    rw [sources, List.mem_singleton] at member
    subst member
    refine ⟨_, _, _, letter_path, found, ?_⟩
    rw [compiled]
    decide
  refine ⟨template, program, disk, reads _, ?_, assembled, generated, loaded, fresh, ?_⟩
  · unfold rewriteBeforeStamp
    rw [happenAll, reads, happenAll, letter_reworded, happenAll, step_generates generated,
      happenAll, step_stores stored, happenAll]
  · intro now
    have reads_back := (Store.save_saved stored).load
    rw [generated_decodes generated (by decide) whole.fits,
      Program.reread_of_exact generated whole.exact_floats, named] at reads_back
    have kept := stored_eq_some.mpr ⟨reads_back, fun _ => fresh⟩
    rw [program_of_source (source_of_load loaded) rfl, kept]

/-- The letter is rewritten once its program has a time, and the program is stale. -/
theorem rewrite_after_stamp_noticed : ∃ program disk,
    letterEngine.happenAll ⟨letters.disk, .reading [] "letter.html"⟩ rewriteAfterStamp =
      ⟨disk, .stored program⟩ ∧ letterEngine.isStale disk program = true := by
  obtain ⟨template, -, reads, generates⟩ := letter_drafted
  obtain ⟨program, generated, -, named, sources, compiled⟩ := generates (.ofSeconds 2)
  obtain ⟨disk, stored, found⟩ := reworded_stores named (.ofSeconds 3) (.ofSeconds 4)
  have ended : letterEngine.happenAll ⟨letters.disk, .reading [] "letter.html"⟩
      rewriteAfterStamp = ⟨disk, .stored program⟩ := by
    unfold rewriteAfterStamp
    rw [happenAll, reads, happenAll, step_generates generated, happenAll, letter_reworded,
      happenAll, step_stores stored, happenAll]
  have older : ∀ location content modified,
      letters.disk.lookup location = some (.file content modified) →
        ∀ happened ∈ rewriteAfterStamp, happened.1.isAfter modified = true := by
    intro location content modified stood
    rw [letters_dated stood]
    decide
  have apart : ∀ source ∈ program.sources, ∀ location,
      letterEngine.place? letters.disk source = some location →
        letters.disk.locate (letterEngine.store.path program.name) ≠ .ok location := by
    intro source member location placed located
    rw [sources, List.mem_singleton] at member
    rw [member, letter_placed] at placed
    cases placed
    have program_there := Store.locate_program letters_store program.name
    cases congrArg List.length (Except.ok.inj (located.symm.trans program_there))
  obtain ⟨-, noticed⟩ := stale_iff_rewritten_since_stamp (by decide) older ended apart
  refine ⟨program, disk, ended, noticed.mpr ?_⟩
  refine ⟨"letter.html", by simp [sources], ["letter.html"], .ofSeconds 3, letter_placed, ?_, ?_⟩
  · exact ⟨"letter.html", "Hello".toUTF8, by simp [rewriteAfterStamp], letter_placed⟩
  · rw [compiled]
    decide

end Letter

end Engine

end Letterpress
