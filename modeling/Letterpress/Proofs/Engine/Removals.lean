import Letterpress.Engine.Removals
import Letterpress.Proofs.Store
import Mathlib.Algebra.BigOperators.Fin
import Mathlib.Data.List.Nodup

/-!
Calls that drop stored programs, in any order of their steps. Each file goes once, and the
call that removed it counts it. A call that drops one program takes a file that has gone
for no failure. A call that clears the store goes by the list that it made at first: where
another call was faster with a file of that list it stops there, with the files that come
later still in place; where none was, nothing is left when it answers.
-/

namespace Letterpress

open Files

namespace Store

/-- A name whose path in the store a file system takes. -/
structure Fits (store : Store) (name : String) : Prop where
  named : Path.IsName name
  clean : (name.toList.any fun char => char.toNat == 0) = false
  short : name.utf8ByteSize ≤ Disk.nameLimit
  path_short : store.directory.utf8ByteSize + 1 + name.utf8ByteSize < Disk.pathLimit

/-- The folder of a store is there, and what counts as a program in it is a file that can be
reached. -/
structure Tidy (store : Store) (disk : Disk) (folder : Location) : Prop
    extends store.Ready disk folder where
  files : ∀ name entry, isArtifactName name = true →
    disk.lookup (folder ++ [name]) = some entry → entry.isFile = true ∧ store.Fits name

def artifacts (disk : Disk) (folder : Location) : List String :=
  ((disk.children folder).map Prod.fst).filter isArtifactName

section Files

variable {store : Store} {disk after : Disk} {folder : Location} {name template : String}
  {now : Instant}

theorem artifacts_nodup (disk : Disk) (folder : Location) : (artifacts disk folder).Nodup :=
  (Disk.children_names disk folder).1.filter _

theorem mem_artifacts :
    name ∈ artifacts disk folder ↔
      isArtifactName name = true ∧ (disk.lookup (folder ++ [name])).isSome = true := by
  rw [artifacts, List.mem_filter, (Disk.children_names disk folder).2, and_comm]

theorem file_name_fits (ready : store.Ready disk folder) (template : String) :
    store.Fits (fileName template) where
  named := file_name_is_name template
  clean := file_name_no_null template
  short := by
    rw [file_name_size]
    decide
  path_short := by
    have short := ready.short
    rw [file_name_size]
    omega

theorem file_name_is_artifact (template : String) : isArtifactName (fileName template) = true := by
  have digits := Digest.text_length template
  have suffix : ".json".toList.reverse = ['n', 'o', 's', 'j', '.'] := by decide
  have parts : (fileName template).toList.reverse =
      'n' :: 'o' :: 's' :: 'j' :: '.' :: (Digest.ofText template).toList.reverse := by
    rw [fileName, String.toList_append, List.reverse_append, suffix]
    rfl
  cases reversed : (Digest.ofText template).toList.reverse with
  | nil =>
      have empty := congrArg List.length reversed
      rw [List.length_reverse, digits] at empty
      cases empty
  | cons last others =>
      rw [reversed] at parts
      rw [isArtifactName, Path.extension?, parts]
      simp

theorem Fits.located (fits : store.Fits name) (ready : store.Ready disk folder) :
    disk.locate (Path.join store.directory name) = .ok (folder ++ [name]) := by
  obtain ⟨modified, found⟩ := ready.there
  exact Disk.locate_in_folder ready.formed.toMounted found fits.named fits.clean fits.short
    fits.path_short

/-- What is listed to be removed are the names in the folder that count as programs. -/
theorem Ready.lists (ready : store.Ready disk folder) :
    ∃ entries, disk.list store.directory = .ok entries ∧
      (entries.map Prod.fst).filter isArtifactName = artifacts disk folder := by
  obtain ⟨modified, found⟩ := ready.there
  refine ⟨disk.children folder, ?_, rfl⟩
  rw [Disk.list, found]
  rfl

theorem remove_absent (ready : store.Ready disk folder) (fits : store.Fits name)
    (artifact : isArtifactName name = true) (absent : name ∉ artifacts disk folder) :
    disk.removeFile (Path.join store.directory name) now = .error .notFound := by
  have nothing : disk.lookup (folder ++ [name]) = none := by
    rw [← Option.not_isSome_iff_eq_none]
    exact fun there => absent (mem_artifacts.mpr ⟨artifact, there⟩)
  rw [Disk.remove_located (fits.located ready), nothing]

theorem remove_present (tidy : store.Tidy disk folder) (now : Instant)
    (present : name ∈ artifacts disk folder) :
    ∃ after, disk.removeFile (Path.join store.directory name) now = .ok after ∧
      store.Tidy after folder ∧
      (artifacts disk folder).Perm (name :: artifacts after folder) := by
  obtain ⟨artifact, there⟩ := mem_artifacts.mp present
  obtain ⟨entry, held⟩ := Option.isSome_iff_exists.mp there
  obtain ⟨file, fits⟩ := tidy.files name entry artifact held
  obtain ⟨content, modified, rfl⟩ : ∃ content modified, entry = .file content modified := by
    cases entry with
    | file content modified => exact ⟨content, modified, rfl⟩
    | folder modified => cases file
  have shrunk : Disk.ShrunkIn folder disk (disk.eraseTree (folder ++ [name]) now) :=
    Disk.erase_shrinks tidy.toReady.names held
  refine ⟨disk.eraseTree (folder ++ [name]) now, ?_, ⟨tidy.toReady.kept shrunk.changed, ?_⟩, ?_⟩
  · rw [Disk.remove_located (fits.located tidy.toReady), held]
  · intro other entry artifact held
    rw [Disk.erase_lookup_beside] at held
    split at held
    · cases held
    · exact tidy.files other entry artifact held
  · have gone : name ∉ artifacts (disk.eraseTree (folder ++ [name]) now) folder := by
      rw [mem_artifacts, Disk.erase_lookup_beside, if_pos rfl]
      simp
    refine (List.perm_ext_iff_of_nodup (artifacts_nodup disk folder)
      (List.nodup_cons.mpr ⟨gone, artifacts_nodup _ folder⟩)).mpr ?_
    intro other
    rw [List.mem_cons, mem_artifacts, mem_artifacts, Disk.erase_lookup_beside]
    by_cases same : other = name
    · simp [same, artifact, there]
    · simp [same]

theorem not_left (gone : (artifacts disk folder).Perm (name :: artifacts after folder)) :
    name ∉ artifacts after folder :=
  (List.nodup_cons.mp (gone.nodup_iff.mp (artifacts_nodup disk folder))).1

end Files

end Store

namespace Removal

inductive IsFresh : Removal → Prop
  | dropping (template : String) : IsFresh (.dropping template)
  | listing : IsFresh .listing

def reported? : Removal → Option Nat
  | .dropped (.ok answer) => some answer.toNat
  | .cleared (.ok removed) => some removed
  | _ => none

def remaining (listed : Nat) : Removal → Nat
  | .dropping _ => 1
  | .listing => listed + 2
  | .removing names _ => names.length + 1
  | .dropped _ => 0
  | .cleared _ => 0

end Removal

section Calls

variable {count : Nat} {store : Store} {start disk after : Disk} {folder : Location}
  {taken : List (Fin count × String)} {caller other : Fin count} {removal : Removal}
  {name : String} {removals : Removals count} {now : Instant} {first : Removal}
  {calls : Fin count → Removal}

@[simp] theorem move_self : (removals.move caller removal).calls caller = removal := if_pos rfl

theorem move_other (different : other ≠ caller) :
    (removals.move caller removal).calls other = removals.calls other := if_neg different

@[simp] theorem take_self {disk : Disk} :
    (removals.take caller removal name disk).calls caller = removal := if_pos rfl

theorem take_other {disk : Disk} (different : other ≠ caller) :
    (removals.take caller removal name disk).calls other = removals.calls other :=
  if_neg different

section Turns

variable {template : String} {rest : List String} {removed : Nat} {failure : Failure}
  {entries : List (String × Entry)}

theorem turn_dropping (call : removals.calls caller = .dropping template)
    (went : removals.disk.removeFile (store.path template) now = .ok after) :
    store.removalTurn removals caller now =
      removals.take caller (.dropped (.ok true)) (Store.fileName template) after := by
  have dropped : store.remove removals.disk template now = .ok (true, after) := by
    unfold Store.remove
    rw [went]
  unfold Store.removalTurn
  rw [call]
  dsimp only
  rw [dropped]

theorem turn_missing (call : removals.calls caller = .dropping template)
    (absent : removals.disk.removeFile (store.path template) now = .error .notFound) :
    store.removalTurn removals caller now = removals.move caller (.dropped (.ok false)) := by
  have missing : store.remove removals.disk template now = .ok (false, removals.disk) := by
    unfold Store.remove
    rw [absent]
  unfold Store.removalTurn
  rw [call]
  dsimp only
  rw [missing]
  rfl

theorem turn_listing (call : removals.calls caller = .listing)
    (listed : removals.disk.list store.directory = .ok entries) :
    store.removalTurn removals caller now = removals.move caller
      (.removing ((entries.map Prod.fst).filter Store.isArtifactName) 0) := by
  simp only [Store.removalTurn, call, listed]

theorem turn_unlisted (call : removals.calls caller = .listing)
    (failed : removals.disk.list store.directory = .error failure) :
    store.removalTurn removals caller now = removals.move caller
      (.cleared (.error (.artifact store.directory failure))) := by
  simp only [Store.removalTurn, call, failed]

theorem turn_removing (call : removals.calls caller = .removing (name :: rest) removed)
    (went : removals.disk.removeFile (Path.join store.directory name) now = .ok after) :
    store.removalTurn removals caller now =
      removals.take caller (.removing rest (removed + 1)) name after := by
  simp only [Store.removalTurn, call, went]

theorem turn_refused (call : removals.calls caller = .removing (name :: rest) removed)
    (failed : removals.disk.removeFile (Path.join store.directory name) now = .error failure) :
    store.removalTurn removals caller now = removals.move caller
      (.cleared (.error (.artifact (Path.join store.directory name) failure))) := by
  simp only [Store.removalTurn, call, failed]

theorem turn_finished (call : removals.calls caller = .removing [] removed) :
    store.removalTurn removals caller now = removals.move caller (.cleared (.ok removed)) := by
  simp only [Store.removalTurn, call]

theorem turn_cleared {outcome : Except TemplateError Nat}
    (call : removals.calls caller = .cleared outcome) :
    store.removalTurn removals caller now = removals := by
  simp only [Store.removalTurn, call]

theorem turn_dropped {outcome : Except TemplateError Bool}
    (call : removals.calls caller = .dropped outcome) :
    store.removalTurn removals caller now = removals := by
  simp only [Store.removalTurn, call]

end Turns

def takenBy (taken : List (Fin count × String)) (caller : Fin count) : List String :=
  (taken.filter fun pair => pair.1 = caller).map Prod.snd

theorem taken_by_self : takenBy (taken ++ [(caller, name)]) caller =
    takenBy taken caller ++ [name] := by
  simp [takenBy]

theorem taken_by_other (different : caller ≠ other) :
    takenBy (taken ++ [(other, name)]) caller = takenBy taken caller := by
  simp [takenBy, different.symm]

theorem mem_taken_by : name ∈ takenBy taken caller ↔ (caller, name) ∈ taken := by
  simp [takenBy]

theorem sum_taken_by (taken : List (Fin count × String)) :
    ∑ caller, (takenBy taken caller).length = taken.length := by
  induction taken with
  | nil => simp [takenBy]
  | cons pair rest counted =>
      have one : ∀ caller, (takenBy (pair :: rest) caller).length =
          (if pair.1 = caller then 1 else 0) + (takenBy rest caller).length := by
        intro caller
        by_cases mine : pair.1 = caller <;> simp [takenBy, mine, Nat.add_comm]
      rw [Finset.sum_congr rfl fun caller _ => one caller, Finset.sum_add_distrib, counted,
        Finset.sum_ite_eq Finset.univ pair.1, if_pos (Finset.mem_univ _), List.length_cons,
        Nat.add_comm]

/-- Where a call stands that set out in one way, with what it has removed and what it still
knows of. -/
inductive Standing (store : Store) (folder : Location) (start disk : Disk)
    (taken : List (Fin count × String)) (caller : Fin count) : Removal → Removal → Prop
  | dropping {template : String} (none_yet : takenBy taken caller = []) :
      Standing store folder start disk taken caller (.dropping template) (.dropping template)
  | dropped {template : String} {answer : Bool}
      (took : takenBy taken caller = if answer then [Store.fileName template] else [])
      (gone : Store.fileName template ∉ Store.artifacts disk folder) :
      Standing store folder start disk taken caller (.dropping template) (.dropped (.ok answer))
  | listing (none_yet : takenBy taken caller = []) :
      Standing store folder start disk taken caller .listing .listing
  | removing {names : List String} {removed : Nat}
      (counted : (takenBy taken caller).length = removed) (distinct : names.Nodup)
      (known : ∀ name ∈ Store.artifacts disk folder, name ∈ names)
      (listed : ∀ name ∈ names, name ∈ Store.artifacts start folder ∧
        name ∉ takenBy taken caller) :
      Standing store folder start disk taken caller .listing (.removing names removed)
  | cleared {removed : Nat} (counted : (takenBy taken caller).length = removed)
      (nothing : Store.artifacts disk folder = []) :
      Standing store folder start disk taken caller .listing (.cleared (.ok removed))
  | overtaken {name : String} {other : Fin count} (different : other ≠ caller)
      (took : (other, name) ∈ taken) :
      Standing store folder start disk taken caller .listing
        (.cleared (.error (.artifact (Path.join store.directory name) .notFound)))

theorem Standing.counted {number : Nat}
    (standing : Standing store folder start disk taken caller first removal)
    (reported : removal.reported? = some number) : (takenBy taken caller).length = number := by
  cases standing with
  | @dropped template answer took gone =>
      cases reported
      cases answer <;> rw [took] <;> rfl
  | cleared counted nothing =>
      cases reported
      exact counted
  | dropping | listing | removing | overtaken => cases reported

/-- A call that was to drop a program has no steps left only with an answer, and then the
program is gone. -/
theorem Standing.drop_answered {template : String} {listed : Nat}
    (standing : Standing store folder start disk taken caller (.dropping template) removal)
    (none_left : removal.remaining listed = 0) :
    ∃ removed, removal = .dropped (.ok removed) ∧
      takenBy taken caller = (if removed then [Store.fileName template] else []) ∧
      Store.fileName template ∉ Store.artifacts disk folder := by
  cases standing with
  | dropping none_yet => cases none_left
  | dropped took gone => exact ⟨_, rfl, took, gone⟩

theorem Standing.clear_answered {listed : Nat}
    (standing : Standing store folder start disk taken caller .listing removal)
    (none_left : removal.remaining listed = 0) : ∃ outcome, removal = .cleared outcome := by
  cases standing with
  | listing | removing => cases none_left
  | cleared counted nothing => exact ⟨_, rfl⟩
  | overtaken different took => exact ⟨_, rfl⟩

theorem Standing.kept (standing : Standing store folder start disk taken caller first removal)
    (different : caller ≠ other)
    (gone : (Store.artifacts disk folder).Perm (name :: Store.artifacts after folder)) :
    Standing store folder start after (taken ++ [(other, name)]) caller first removal := by
  have fewer : ∀ wanted ∈ Store.artifacts after folder, wanted ∈ Store.artifacts disk folder :=
    fun wanted member => gone.mem_iff.mpr (List.mem_cons_of_mem name member)
  have same : takenBy (taken ++ [(other, name)]) caller = takenBy taken caller :=
    taken_by_other different
  cases standing with
  | dropping none_yet => exact .dropping (same.trans none_yet)
  | dropped took absent => exact .dropped (same.trans took) fun there => absent (fewer _ there)
  | listing none_yet => exact .listing (same.trans none_yet)
  | removing counted distinct known listed =>
      refine .removing (by rw [same, counted]) distinct ?_ ?_
      · exact fun wanted member => known wanted (fewer wanted member)
      · rw [same]
        exact listed
  | cleared counted nothing =>
      rw [nothing] at gone
      cases gone.nil_eq
  | overtaken apart took => exact .overtaken apart (List.mem_append_left _ took)

theorem Standing.goes_on {rest : List String} {removed : Nat}
    (standing : Standing store folder start disk taken caller first
      (.removing (name :: rest) removed))
    (gone : (Store.artifacts disk folder).Perm (name :: Store.artifacts after folder)) :
    Standing store folder start after (taken ++ [(caller, name)]) caller first
      (.removing rest (removed + 1)) := by
  cases standing with
  | removing counted distinct known listed =>
      obtain ⟨apart, rest_distinct⟩ := List.nodup_cons.mp distinct
      refine .removing ?_ rest_distinct ?_ ?_
      · rw [taken_by_self, List.length_append, counted]
        rfl
      · intro wanted member
        have before := gone.mem_iff.mpr (List.mem_cons_of_mem name member)
        rcases List.mem_cons.mp (known wanted before) with rfl | later
        · exact absurd member (Store.not_left gone)
        · exact later
      · intro wanted member
        obtain ⟨in_start, not_taken⟩ := listed wanted (List.mem_cons_of_mem name member)
        refine ⟨in_start, ?_⟩
        rw [taken_by_self, List.mem_append, List.mem_singleton]
        rintro (already | rfl)
        · exact not_taken already
        · exact apart member

/-- All files that were there at the start are there or were removed by one of the calls, and
each call stands where it can come from what it set out to do. -/
structure Accounted (store : Store) (folder : Location) (start : Disk)
    (calls : Fin count → Removal) (removals : Removals count) : Prop where
  began : store.Tidy start folder
  tidy : store.Tidy removals.disk folder
  split : (Store.artifacts start folder).Perm
    (removals.taken.map Prod.snd ++ Store.artifacts removals.disk folder)
  standing : ∀ caller, Standing store folder start removals.disk removals.taken caller
    (calls caller) (removals.calls caller)

namespace Accounted

theorem starting (tidy : store.Tidy disk folder) (fresh : ∀ caller, (calls caller).IsFresh) :
    Accounted store folder disk calls (.starting disk calls) where
  began := tidy
  tidy := tidy
  split := .refl _
  standing caller := by
    have begins := fresh caller
    change Standing store folder disk disk [] caller (calls caller) (calls caller)
    generalize calls caller = removal at begins
    cases begins with
    | dropping template => exact .dropping rfl
    | listing => exact .listing rfl

theorem move (accounted : Accounted store folder start calls removals)
    (standing : Standing store folder start removals.disk removals.taken caller (calls caller)
      removal) :
    Accounted store folder start calls (removals.move caller removal) where
  began := accounted.began
  tidy := accounted.tidy
  split := accounted.split
  standing other := by
    change Standing store folder start removals.disk removals.taken other (calls other)
      (if other = caller then removal else removals.calls other)
    split
    · next same => exact same ▸ standing
    · exact accounted.standing other

theorem take (accounted : Accounted store folder start calls removals)
    (tidy : store.Tidy after folder)
    (gone : (Store.artifacts removals.disk folder).Perm (name :: Store.artifacts after folder))
    (standing : Standing store folder start after (removals.taken ++ [(caller, name)]) caller
      (calls caller) removal) :
    Accounted store folder start calls (removals.take caller removal name after) where
  began := accounted.began
  tidy := tidy
  split := by
    refine (accounted.split.trans (gone.append_left _)).trans ?_
    simp [Removals.take, Removals.move]
  standing other := by
    change Standing store folder start after (removals.taken ++ [(caller, name)]) other
      (calls other) (if other = caller then removal else removals.calls other)
    split
    · next same => exact same ▸ standing
    · next different => exact (accounted.standing other).kept different gone

/-- A file that is listed and gone was removed by another of the calls, and cannot be removed
again. -/
theorem overtaken {rest : List String} {removed : Nat}
    (accounted : Accounted store folder start calls removals)
    (standing : Standing store folder start removals.disk removals.taken caller first
      (.removing (name :: rest) removed))
    (gone : name ∉ Store.artifacts removals.disk folder) (now : Instant) :
    removals.disk.removeFile (Path.join store.directory name) now = .error .notFound ∧
      Standing store folder start removals.disk removals.taken caller first
        (.cleared (.error (.artifact (Path.join store.directory name) .notFound))) := by
  cases standing with
  | removing counted distinct known listed =>
      obtain ⟨in_start, not_mine⟩ := listed name List.mem_cons_self
      obtain ⟨artifact, there⟩ := Store.mem_artifacts.mp in_start
      obtain ⟨entry, held⟩ := Option.isSome_iff_exists.mp there
      have fits := (accounted.began.files name entry artifact held).2
      have absent :
          removals.disk.removeFile (Path.join store.directory name) now = .error .notFound :=
        Store.remove_absent accounted.tidy.toReady fits artifact gone
      rcases List.mem_append.mp (accounted.split.mem_iff.mp in_start) with was_taken | present
      · obtain ⟨⟨other, _⟩, took, rfl⟩ := List.mem_map.mp was_taken
        refine ⟨absent, .overtaken ?_ took⟩
        rintro rfl
        exact not_mine (mem_taken_by.mpr took)
      · exact absurd present gone

/-- A step of one call leaves all calls accounted for. -/
theorem turn (accounted : Accounted store folder start calls removals) (caller : Fin count)
    (now : Instant) :
    Accounted store folder start calls (store.removalTurn removals caller now) := by
  have tidy := accounted.tidy
  have here := accounted.standing caller
  cases call : removals.calls caller with
  | dropping template =>
      rw [call] at here
      generalize set_out : calls caller = first at here
      cases here with
      | dropping none_yet =>
          by_cases present : Store.fileName template ∈ Store.artifacts removals.disk folder
          · obtain ⟨after, went, after_tidy, gone⟩ := Store.remove_present tidy now present
            rw [turn_dropping call went]
            refine accounted.take after_tidy gone ?_
            rw [set_out]
            exact .dropped (by rw [taken_by_self, none_yet]; rfl) (Store.not_left gone)
          · have absent :
                removals.disk.removeFile (store.path template) now = .error .notFound :=
              Store.remove_absent tidy.toReady (Store.file_name_fits tidy.toReady template)
                (Store.file_name_is_artifact template) present
            rw [turn_missing call absent]
            refine accounted.move ?_
            rw [set_out]
            exact .dropped none_yet present
  | listing =>
      rw [call] at here
      obtain ⟨entries, listed, names⟩ := tidy.toReady.lists
      rw [turn_listing call listed, names]
      refine accounted.move ?_
      generalize calls caller = first at here ⊢
      cases here with
      | listing none_yet =>
          refine .removing (by rw [none_yet]; rfl) (Store.artifacts_nodup _ folder)
            (fun _ member => member) ?_
          intro name member
          rw [none_yet]
          exact ⟨accounted.split.mem_iff.mpr (List.mem_append_right _ member), List.not_mem_nil⟩
  | removing names removed =>
      rw [call] at here
      cases names with
      | nil =>
          rw [turn_finished call]
          refine accounted.move ?_
          generalize calls caller = first at here ⊢
          cases here with
          | removing counted distinct known listed =>
              refine .cleared counted ?_
              exact List.eq_nil_iff_forall_not_mem.mpr fun name member =>
                List.not_mem_nil (known name member)
      | cons name rest =>
          by_cases present : name ∈ Store.artifacts removals.disk folder
          · obtain ⟨after, went, after_tidy, gone⟩ := Store.remove_present tidy now present
            rw [turn_removing call went]
            exact accounted.take after_tidy gone (here.goes_on gone)
          · obtain ⟨absent, overtaken⟩ := accounted.overtaken here present now
            rw [turn_refused call absent]
            exact accounted.move overtaken
  | dropped outcome =>
      rw [turn_dropped call]
      exact accounted
  | cleared outcome =>
      rw [turn_cleared call]
      exact accounted

theorem turns (accounted : Accounted store folder start calls removals)
    (schedule : List (Fin count × Instant)) :
    Accounted store folder start calls (store.removalTurns removals schedule) := by
  induction schedule generalizing removals with
  | nil => exact accounted
  | cons first rest further =>
      obtain ⟨caller, now⟩ := first
      exact further (accounted.turn caller now)

theorem listed_at_most (accounted : Accounted store folder start calls removals) :
    (Store.artifacts removals.disk folder).length ≤ (Store.artifacts start folder).length := by
  rw [accounted.split.length_eq, List.length_append]
  omega

end Accounted

theorem turn_other (different : other ≠ caller) :
    (store.removalTurn removals caller now).calls other = removals.calls other := by
  unfold Store.removalTurn
  cases removals.calls caller with
  | dropping template =>
      dsimp only
      split <;> exact if_neg different
  | listing =>
      dsimp only
      split <;> exact if_neg different
  | removing names removed =>
      cases names with
      | nil => exact if_neg different
      | cons name rest =>
          dsimp only
          split <;> exact if_neg different
  | dropped outcome => rfl
  | cleared outcome => rfl

theorem turns_other {schedule : List (Fin count × Instant)}
    (elsewhere : ∀ turn ∈ schedule, other ≠ turn.1) :
    (store.removalTurns removals schedule).calls other = removals.calls other := by
  induction schedule generalizing removals with
  | nil => rfl
  | cons turn rest later =>
      obtain ⟨here, behind⟩ := List.forall_mem_cons.mp elsewhere
      rw [Store.removalTurns, later behind, turn_other here]

theorem turns_append (store : Store) (removals : Removals count)
    (first rest : List (Fin count × Instant)) :
    store.removalTurns removals (first ++ rest) =
      store.removalTurns (store.removalTurns removals first) rest := by
  induction first generalizing removals with
  | nil => rfl
  | cons turn first later => exact later _

/-- With each step that it takes a call is nearer to its answer. -/
theorem turn_nearer (accounted : Accounted store folder start calls removals) (caller : Fin count)
    (now : Instant) :
    ((store.removalTurn removals caller now).calls caller).remaining
        (Store.artifacts start folder).length ≤
      (removals.calls caller).remaining (Store.artifacts start folder).length - 1 := by
  unfold Store.removalTurn
  cases call : removals.calls caller with
  | dropping template =>
      dsimp only
      split <;> simp [Removals.move, Removals.take, Removal.remaining]
  | listing =>
      obtain ⟨entries, listed, names⟩ := accounted.tidy.toReady.lists
      have few := accounted.listed_at_most
      dsimp only
      rw [listed]
      simp only [names, move_self, Removal.remaining]
      omega
  | removing names removed =>
      cases names with
      | nil => simp [Removal.remaining]
      | cons name rest =>
          dsimp only
          split <;> simp [Removal.remaining]
  | dropped outcome => simp [call, Removal.remaining]
  | cleared outcome => simp [call, Removal.remaining]

theorem turns_nearer (accounted : Accounted store folder start calls removals)
    (schedule : List (Fin count × Instant)) (caller : Fin count) :
    ((store.removalTurns removals schedule).calls caller).remaining
        (Store.artifacts start folder).length ≤
      (removals.calls caller).remaining (Store.artifacts start folder).length -
        (schedule.map Prod.fst).count caller := by
  induction schedule generalizing removals with
  | nil => exact Nat.le_refl _
  | cons first rest further =>
      obtain ⟨other, now⟩ := first
      have after := further (accounted.turn other now)
      rw [Store.removalTurns, List.map_cons, List.count_cons]
      by_cases own : other = caller
      · subst own
        have nearer := turn_nearer accounted other now
        simp only [BEq.rfl, if_true]
        omega
      · rw [turn_other (Ne.symm own)] at after
        simpa [own] using after

theorem turns_of_cleared {outcome : Except TemplateError Nat}
    (answered : removals.calls caller = .cleared outcome) (further : Nat) :
    store.removalTurns removals (List.replicate further (caller, now)) = removals := by
  induction further with
  | zero => rfl
  | succ further same =>
      rw [List.replicate_succ, Store.removalTurns, turn_cleared answered, same]

/-- Undisturbed, a call that removes files one by one removes them all or stops at the first
that cannot be removed. -/
theorem removing_undisturbed (store : Store) (now : Instant) {names : List String}
    {removed : Nat} (call : removals.calls caller = .removing names removed) :
    (store.removalTurns removals (List.replicate (names.length + 1) (caller, now))).calls caller =
        .cleared ((store.removeAll now removals.disk names).1.map (· + removed)) ∧
      (store.removalTurns removals (List.replicate (names.length + 1) (caller, now))).disk =
        (store.removeAll now removals.disk names).2 := by
  induction names generalizing removals removed with
  | nil =>
      rw [List.length_nil, List.replicate_succ, List.replicate_zero, Store.removalTurns,
        Store.removalTurns, turn_finished call, move_self]
      unfold Store.removeAll
      rw [Except.map, Nat.zero_add]
      exact ⟨rfl, rfl⟩
  | cons name rest later =>
      rw [List.length_cons, List.replicate_succ, Store.removalTurns]
      unfold Store.removeAll
      dsimp only
      cases went : removals.disk.removeFile (Path.join store.directory name) now with
      | error failure =>
          rw [turn_refused call went, turns_of_cleared move_self]
          exact ⟨move_self, rfl⟩
      | ok disk =>
          have call_now : (removals.take caller (.removing rest (removed + 1)) name disk).calls
              caller = .removing rest (removed + 1) := take_self
          obtain ⟨answer, left⟩ := later call_now
          rw [turn_removing call went, answer, left]
          refine ⟨?_, rfl⟩
          dsimp only [Removals.take, Removals.move]
          cases (store.removeAll now disk rest).1 with
          | error error => rfl
          | ok more => simp [Except.map, Nat.add_assoc, Nat.add_comm 1]

/-- Undisturbed, a call that clears the store does what clearing does, and a call that drops a
program what dropping does. -/
theorem calls_undisturbed (store : Store) (removals : Removals count) (caller : Fin count)
    (now : Instant) :
    (removals.calls caller = .listing →
      ∃ turns, (store.removalTurns removals (List.replicate turns (caller, now))).calls caller =
          .cleared (store.clear removals.disk now).1 ∧
        (store.removalTurns removals (List.replicate turns (caller, now))).disk =
          (store.clear removals.disk now).2) ∧
      ∀ template, removals.calls caller = .dropping template →
        (store.removalTurn removals caller now).calls caller =
            .dropped ((store.remove removals.disk template now).map Prod.fst) ∧
          ∀ answer disk, store.remove removals.disk template now = .ok (answer, disk) →
            (store.removalTurn removals caller now).disk = disk := by
  constructor
  · intro call
    unfold Store.clear
    cases listed : removals.disk.list store.directory with
    | error failure =>
        refine ⟨1, ?_⟩
        rw [List.replicate_succ, Store.removalTurns, turn_unlisted call listed,
          turns_of_cleared move_self]
        exact ⟨move_self, rfl⟩
    | ok entries =>
        have call_now : (removals.move caller
            (.removing ((entries.map Prod.fst).filter Store.isArtifactName) 0)).calls caller =
              .removing ((entries.map Prod.fst).filter Store.isArtifactName) 0 := move_self
        refine ⟨((entries.map Prod.fst).filter Store.isArtifactName).length + 2, ?_⟩
        obtain ⟨answer, left⟩ := removing_undisturbed store now call_now
        rw [List.replicate_succ, Store.removalTurns, turn_listing call listed, answer, left]
        refine ⟨?_, rfl⟩
        dsimp only [Removals.move]
        cases (store.removeAll now removals.disk
          ((entries.map Prod.fst).filter Store.isArtifactName)).1 <;> rfl
  · intro template call
    unfold Store.removalTurn
    rw [call]
    dsimp only
    cases done : store.remove removals.disk template now with
    | error error => exact ⟨move_self, nofun⟩
    | ok result =>
        obtain ⟨answer, disk⟩ := result
        cases answer with
        | false =>
            refine ⟨move_self, ?_⟩
            rintro answer disk same
            cases same
            rfl
        | true =>
            refine ⟨take_self, ?_⟩
            rintro answer disk same
            cases same
            rfl

/-- Calls that drop programs and calls that clear the store, in any order of their steps. Each
comes to its answer. One that drops a program is never refused: the program is gone then, and
the answer tells whether it was this call that removed it. One that clears the store is refused
only if another call was faster with a file, and then says which; after one that was not
refused nothing is left. Every file goes once and is counted by the call that removed it, so
where no call was refused the answers add up to the files that are gone. -/
theorem removals_account_for_files {schedule : List (Fin count × Instant)}
    {calls : Fin count → Removal} {after : Removals count} (tidy : store.Tidy disk folder)
    (fresh : ∀ caller, (calls caller).IsFresh)
    (ran : store.removalTurns (.starting disk calls) schedule = after) :
    (∀ caller template, calls caller = .dropping template →
        1 ≤ (schedule.map Prod.fst).count caller →
        ∃ removed, after.calls caller = .dropped (.ok removed) ∧
          takenBy after.taken caller = (if removed then [Store.fileName template] else []) ∧
          Store.fileName template ∉ Store.artifacts after.disk folder) ∧
      (∀ caller, calls caller = .listing →
        (Store.artifacts disk folder).length + 2 ≤ (schedule.map Prod.fst).count caller →
        ∃ outcome, after.calls caller = .cleared outcome) ∧
      (∀ caller error, after.calls caller = .cleared (.error error) →
        ∃ name other, other ≠ caller ∧ (other, name) ∈ after.taken ∧
          error = .artifact (Path.join store.directory name) .notFound) ∧
      (∀ caller removed, after.calls caller = .cleared (.ok removed) →
        Store.artifacts after.disk folder = []) ∧
      (Store.artifacts disk folder).Perm
        (after.taken.map Prod.snd ++ Store.artifacts after.disk folder) ∧
      (∀ caller number, (after.calls caller).reported? = some number →
        (takenBy after.taken caller).length = number) ∧
      ((∀ caller, (after.calls caller).reported?.isSome = true) →
        ∑ caller, (after.calls caller).reported?.getD 0 +
            (Store.artifacts after.disk folder).length =
          (Store.artifacts disk folder).length) := by
  have accounted : Accounted store folder disk calls after :=
    ran ▸ (Accounted.starting tidy fresh).turns schedule
  have counts : ∀ caller number, (after.calls caller).reported? = some number →
      (takenBy after.taken caller).length = number :=
    fun caller number reported => (accounted.standing caller).counted reported
  have none_left : ∀ caller,
      (calls caller).remaining (Store.artifacts disk folder).length ≤
        (schedule.map Prod.fst).count caller →
      (after.calls caller).remaining (Store.artifacts disk folder).length = 0 := by
    intro caller enough
    have nearer := turns_nearer (Accounted.starting tidy fresh) schedule caller
    rw [ran] at nearer
    exact Nat.le_zero.mp (nearer.trans (Nat.sub_eq_zero_of_le enough).le)
  refine ⟨?_, ?_, ?_, ?_, accounted.split, counts, ?_⟩
  · intro caller template drops enough
    have answered := none_left caller (by rw [drops]; exact enough)
    exact Standing.drop_answered (drops ▸ accounted.standing caller) answered
  · intro caller clears enough
    have answered := none_left caller (by rw [clears]; exact enough)
    exact Standing.clear_answered (clears ▸ accounted.standing caller) answered
  · intro caller error refused
    have standing := accounted.standing caller
    rw [refused] at standing
    generalize calls caller = first at standing
    cases standing with
    | overtaken different took => exact ⟨_, _, different, took, rfl⟩
  · intro caller removed answered
    have standing := accounted.standing caller
    rw [answered] at standing
    generalize calls caller = first at standing
    cases standing with
    | cleared counted nothing => exact nothing
  · intro answered
    rw [accounted.split.length_eq, List.length_append, List.length_map, ← sum_taken_by]
    congr 1
    apply Finset.sum_congr rfl
    intro caller _
    obtain ⟨number, reported⟩ := Option.isSome_iff_exists.mp (answered caller)
    rw [reported, counts caller number reported]
    rfl

theorem turn_lists {calls : Fin count → Removal} {names : List String}
    (tidy : store.Tidy disk folder) (listed : Store.artifacts disk folder = names)
    (clears : calls caller = .listing) (now : Instant) :
    ∃ first, store.removalTurn (.starting disk calls) caller now = first ∧
      first.calls caller = .removing names 0 ∧
      (∀ other, other ≠ caller → first.calls other = calls other) ∧ first.disk = disk := by
  obtain ⟨entries, found, made⟩ := tidy.toReady.lists
  refine ⟨_, turn_listing clears found, ?_, fun other => move_other, rfl⟩
  rw [move_self, made, listed]

/-- Wherever something is stored, a call can be faster than one that clears the store: it drops
the first program of the list once the list is made. The clearing is refused over a file that
has gone as it should, and all that comes after it in the list stays. -/
theorem clear_overtaken {template : String} {rest : List String} {calls : Fin count → Removal}
    (tidy : store.Tidy disk folder)
    (listed : Store.artifacts disk folder = Store.fileName template :: rest)
    (clears : calls caller = .listing) (drops : calls other = .dropping template)
    (different : other ≠ caller) (now : Instant) :
    ∃ after, store.removalTurns (.starting disk calls)
        [(caller, now), (other, now), (caller, now)] = after ∧
      after.calls caller = .cleared (.error (.artifact (store.path template) .notFound)) ∧
      after.calls other = .dropped (.ok true) ∧
      (Store.artifacts after.disk folder).Perm rest := by
  have present : Store.fileName template ∈ Store.artifacts disk folder := by
    rw [listed]
    exact List.mem_cons_self
  obtain ⟨left, went, left_tidy, gone⟩ := Store.remove_present tidy now present
  have others : (Store.artifacts left folder).Perm rest :=
    ((listed ▸ gone : (Store.fileName template :: rest).Perm _).cons_inv).symm
  have missing : left.removeFile (store.path template) now = .error .notFound :=
    Store.remove_absent left_tidy.toReady (Store.file_name_fits left_tidy.toReady template)
      (Store.file_name_is_artifact template) (Store.not_left gone)
  -- the three steps, one after the other
  obtain ⟨first, lists, list_made, others_wait, same⟩ := turn_lists tidy listed clears now
  have to_drop := (others_wait other different).trans drops
  obtain ⟨second, drop_done, in_list, was_dropped, fewer⟩ : ∃ second : Removals count,
      store.removalTurn first other now = second ∧
        second.calls caller = .removing (Store.fileName template :: rest) 0 ∧
        second.calls other = .dropped (.ok true) ∧ second.disk = left := by
    have there : first.disk.removeFile (store.path template) now = .ok left := same ▸ went
    exact ⟨_, turn_dropping to_drop there, (take_other different.symm).trans list_made,
      take_self, rfl⟩
  have refused : store.removalTurn second caller now = second.move caller
      (.cleared (.error (.artifact (store.path template) .notFound))) :=
    turn_refused in_list (fewer ▸ missing)
  refine ⟨second.move caller (.cleared (.error (.artifact (store.path template) .notFound))), ?_,
    move_self, (move_other different).trans was_dropped, ?_⟩
  · rw [Store.removalTurns, Store.removalTurns, Store.removalTurns, Store.removalTurns, lists,
      drop_done, refused]
  · exact fewer ▸ others

/-- A call that drops a program which another has just cleared away finds nothing to drop. -/
theorem drop_behind {template : String} {rest : List String} {calls : Fin count → Removal}
    (tidy : store.Tidy disk folder)
    (listed : Store.artifacts disk folder = Store.fileName template :: rest)
    (clears : calls caller = .listing) (drops : calls other = .dropping template)
    (different : other ≠ caller) (now : Instant) :
    (store.removalTurns (.starting disk calls)
      [(caller, now), (caller, now), (other, now)]).calls other = .dropped (.ok false) := by
  have present : Store.fileName template ∈ Store.artifacts disk folder := by
    rw [listed]
    exact List.mem_cons_self
  obtain ⟨left, went, left_tidy, gone⟩ := Store.remove_present tidy now present
  have missing : left.removeFile (store.path template) now = .error .notFound :=
    Store.remove_absent left_tidy.toReady (Store.file_name_fits left_tidy.toReady template)
      (Store.file_name_is_artifact template) (Store.not_left gone)
  obtain ⟨first, lists, list_made, others_wait, same⟩ := turn_lists tidy listed clears now
  obtain ⟨second, cleared, to_drop, fewer⟩ : ∃ second : Removals count,
      store.removalTurn first caller now = second ∧
        second.calls other = .dropping template ∧ second.disk = left := by
    have there : first.disk.removeFile (Path.join store.directory (Store.fileName template)) now =
        .ok left := same ▸ went
    refine ⟨_, turn_removing list_made there, ?_, rfl⟩
    rw [take_other different, others_wait other different, drops]
  rw [Store.removalTurns, Store.removalTurns, Store.removalTurns, Store.removalTurns, lists,
    cleared, turn_missing to_drop (fewer ▸ missing), move_self]

end Calls

def pair : Disk where
  mount := "/srv"
  entries := [([], .folder (.ofSeconds 0)), ([".tmp"], .folder (.ofSeconds 0)),
    ([".tmp", Store.fileName "a"], .file "\x7b\x7d".toUTF8 (.ofSeconds 0)),
    ([".tmp", Store.fileName "b"], .file "\x7b\x7d".toUTF8 (.ofSeconds 0))]

def pairStore : Store := ⟨"/srv/.tmp"⟩

theorem pair_paths : (Path.isAbsolute "/srv" = true ∧ Path.endsWithSlash "/srv" = false) ∧
    Path.IsName ".tmp" ∧ (pair.locate "/srv/.tmp").toOption = some [".tmp"] ∧
    "/srv/.tmp".utf8ByteSize + 70 < Disk.pathLimit := by
  decide

theorem pair_tidy : pairStore.Tidy pair [".tmp"] := by
  obtain ⟨⟨absolute, named⟩, hidden, located, short⟩ := pair_paths
  have ready : pairStore.Ready pair [".tmp"] := by
    refine ⟨⟨⟨absolute, named⟩, ?_⟩, ?_, short⟩
    · intro entry member name part
      have first := Store.file_name_is_name "a"
      have second := Store.file_name_is_name "b"
      unfold pair at member
      generalize Store.fileName "a" = a at member first
      generalize Store.fileName "b" = b at member second
      simp only [List.mem_cons, List.not_mem_nil, or_false] at member
      rcases member with rfl | rfl | rfl | rfl <;>
        simp only [List.mem_cons, List.not_mem_nil, or_false] at part
      · exact part ▸ hidden
      · rcases part with rfl | rfl
        · exact hidden
        · exact first
      · rcases part with rfl | rfl
        · exact hidden
        · exact second
    · exact ⟨.ofSeconds 0, Disk.entry_eq_ok.mpr ⟨toOption_eq_some.mp located, rfl⟩⟩
  refine ⟨ready, ?_⟩
  intro name entry _ held
  have first := Store.file_name_fits ready "a"
  have second := Store.file_name_fits ready "b"
  unfold pair at held
  generalize Store.fileName "a" = a at held first
  generalize Store.fileName "b" = b at held second
  have member := Disk.mem_of_find? held
  simp at member
  rcases member with ⟨rfl, rfl⟩ | ⟨rfl, rfl⟩
  · exact ⟨rfl, first⟩
  · exact ⟨rfl, second⟩

theorem pair_artifacts :
    Store.artifacts pair [".tmp"] = [Store.fileName "b", Store.fileName "a"] := by
  have first : Store.fileName "a" =
      "ca978112ca1bbdcafac231b39a23dc4da786eff8147c4e72b9807785afee48bb.json" := by
    decide +kernel
  have second : Store.fileName "b" =
      "3e23e8160039594a33894f6564e1b1348bbd7a0088d42c4acb73eeaed59c009d.json" := by
    decide +kernel
  rw [pair, first, second]
  decide +kernel

def rivals : Fin 2 → Removal := ![.listing, .dropping "b"]

theorem rivals_fresh (caller : Fin 2) : (rivals caller).IsFresh := by
  match caller with
  | 0 => exact .listing
  | 1 => exact .dropping "b"

/-- Of two programs one stays: the call that clears the store is refused over the other, which
has been dropped before it came to it. -/
theorem pair_overtaken :
    pairStore.Tidy pair [".tmp"] ∧ (∀ caller, (rivals caller).IsFresh) ∧
      ∃ after, pairStore.removalTurns (.starting pair rivals)
          [(0, .ofSeconds 1), (1, .ofSeconds 1), (0, .ofSeconds 1)] = after ∧
        after.calls 0 = .cleared (.error (.artifact (pairStore.path "b") .notFound)) ∧
        after.calls 1 = .dropped (.ok true) ∧
        Store.artifacts after.disk [".tmp"] = [Store.fileName "a"] := by
  obtain ⟨after, ran, refused, dropped, left⟩ :=
    clear_overtaken pair_tidy pair_artifacts (show rivals 0 = .listing from rfl)
      (show rivals 1 = .dropping "b" from rfl) (by decide) (.ofSeconds 1)
  exact ⟨pair_tidy, rivals_fresh, after, ran, refused, dropped, List.perm_singleton.mp left⟩

def inTurn : List (Fin 2 × Instant) :=
  [(0, .ofSeconds 1), (0, .ofSeconds 1), (1, .ofSeconds 1)] ++
    [(0, .ofSeconds 2), (0, .ofSeconds 2)]

/-- Where neither call overtakes the other, the one that clears the store counts both programs. -/
theorem rivals_in_turn : ∃ after,
    pairStore.removalTurns (.starting pair rivals) inTurn = after ∧
      after.calls 0 = .cleared (.ok 2) ∧ after.calls 1 = .dropped (.ok false) ∧
      Store.artifacts after.disk [".tmp"] = [] := by
  have behind := drop_behind pair_tidy pair_artifacts (show rivals 0 = .listing from rfl)
    (show rivals 1 = .dropping "b" from rfl) (by decide) (.ofSeconds 1)
  -- what comes of it must stay closed, its names would be computed as digests
  obtain ⟨after, ran, dropped⟩ : ∃ after,
      pairStore.removalTurns (.starting pair rivals) inTurn = after ∧
        after.calls 1 = .dropped (.ok false) := by
    refine ⟨_, rfl, ?_⟩
    rw [inTurn, turns_append, turns_other (by decide), behind]
  obtain ⟨drops, clears, refused, empties, -, -, sums⟩ :=
    removals_account_for_files pair_tidy rivals_fresh ran
  obtain ⟨answer, answered, took, -⟩ := drops 1 "b" rfl (by decide)
  cases dropped.symm.trans answered
  obtain ⟨outcome, cleared⟩ := clears 0 rfl (by rw [pair_artifacts]; decide)
  refine ⟨after, ran, ?_⟩
  cases outcome with
  | error error =>
      obtain ⟨name, other, different, faster, -⟩ := refused 0 error cleared
      have same : other = 1 := by omega
      subst same
      have taken := mem_taken_by.mpr faster
      rw [took] at taken
      cases taken
  | ok removed =>
      have nothing := empties 0 removed cleared
      have total := sums fun caller => by
        match caller with
        | 0 => rw [cleared]; rfl
        | 1 => rw [dropped]; rfl
      have two : (Store.artifacts pair [".tmp"]).length = 2 := by
        rw [pair_artifacts]
        rfl
      rw [Fin.sum_univ_two, cleared, dropped, nothing, two] at total
      change removed = 2 at total
      subst total
      exact ⟨cleared, dropped, nothing⟩

end Letterpress
