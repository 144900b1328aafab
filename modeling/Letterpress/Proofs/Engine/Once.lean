import Letterpress.Proofs.Engine.Errand
import Letterpress.Proofs.Engine.Failure

/-!
Programs that are made once. An engine that uses stored programs without a look at their
sources compiles a template the first time that this goes well, and never again. What
becomes of the files later does not show: pages come from the first program for as long as
the file of their own template is there.
-/

namespace Letterpress

open Files

namespace Engine

def contextOfData (data : Datum) : Except TemplateError Value :=
  (data.toValue.mapError fun error => .context (.datum error)) >>= contextOf

/-- Shows a template in a context that may have failed to come about. -/
def showIn (engine : Engine) (name : String) (made : Except TemplateError Value) :
    Action String := do
  let context ← ExceptT.mk (pure made)
  let program ← engine.program name
  ExceptT.mk (pure (program.execute context))

end Engine

namespace Errand

/-- The template that an errand is about, if it is about one and leaves the store its programs. -/
def asks? : Errand → Option String
  | .render name _ | .renderValue name _ | .respond name _ | .compile name => some name
  | .precompileAll | .invalidate _ | .clear => none

def shows? : Errand → Option String
  | .render name data | .respond name data =>
      if (Engine.contextOfData data).isOk then some name else none
  | .renderValue name value => if (Engine.contextOf value).isOk then some name else none
  | .compile _ | .precompileAll | .invalidate _ | .clear => none

theorem asks_of_shows {errand : Errand} {name : String} (shows : errand.shows? = some name) :
    errand.asks? = some name := by
  cases errand with
  | render | respond | renderValue => exact (Option.ite_none_right_eq_some.mp shows).2
  | compile | precompileAll | invalidate | clear => cases shows

end Errand

namespace Engine

/-- The programs of the templates that were shown so far and could be compiled, each as it
came out the first time, after one more was shown. -/
def withFirst (engine : Engine) (world : World) (firsts : List (String × Program))
    (name : String) : List (String × Program) :=
  if name ∈ firsts.map Prod.fst then firsts
  else
    match engine.make name world.disk world.now with
    | .ok program => firsts ++ [(name, program)]
    | .error _ => firsts

def firstsAfter (engine : Engine) (world : World) (firsts : List (String × Program))
    (errand : Errand) : List (String × Program) :=
  match errand.shows? with
  | none => firsts
  | some name => engine.withFirst world firsts name

/-- An engine that was just opened, with no program stored for a used template. It uses
those that it stores as they are, and no two used templates share a file. -/
structure Fresh (engine : Engine) (folder : Location) (used : String → Prop) (start : World) :
    Prop where
  ready : engine.store.Ready start.disk folder
  cached : engine.options.isCached = true
  unchecked : engine.options.checkModified = false
  apart : ∀ name other, used name → used other →
    Store.fileName name = Store.fileName other → name = other
  empty : ∀ name, used name → start.disk.lookup (folder ++ [Store.fileName name]) = none
  uncounted : start.compiles = 0

/-- A world to which errands and edits have led, with the first programs on the way. Errands
are about used templates. Edits may do anything but to the programs of these, and leave the
folder of the store where it is. -/
inductive Chronicle (engine : Engine) (folder : Location) (used : String → Prop)
    (start : World) : World → List (String × Program) → Prop
  | begun : Chronicle engine folder used start start []
  | attended {world : World} {firsts : List (String × Program)} {errand : Errand}
      {name : String} {now : Instant} (so_far : Chronicle engine folder used start world firsts)
      (proper : now.Proper) (asks : errand.asks? = some name) (here : used name) :
      Chronicle engine folder used start (engine.attend { world with now } errand)
        (engine.firstsAfter { world with now } firsts errand)
  | edited {world : World} {firsts : List (String × Program)} {after : Disk}
      (so_far : Chronicle engine folder used start world firsts)
      (ready : engine.store.Ready after folder)
      (alone : ∀ name, used name → after.lookup (folder ++ [Store.fileName name]) =
        world.disk.lookup (folder ++ [Store.fileName name])) :
      Chronicle engine folder used start { world with disk := after } firsts

/-- What holds all along: the first programs were counted and are what the store gives, and
for other used templates it holds nothing. -/
structure Remembers (engine : Engine) (folder : Location) (used : String → Prop) (world : World)
    (firsts : List (String × Program)) : Prop where
  ready : engine.store.Ready world.disk folder
  counted : world.compiles = firsts.length
  distinct : (firsts.map Prod.fst).Nodup
  known : ∀ name program, (name, program) ∈ firsts → used name
  stored : ∀ name program, (name, program) ∈ firsts →
    engine.store.load? world.disk name = some program
  missing : ∀ name, used name → name ∉ firsts.map Prod.fst →
    world.disk.lookup (folder ++ [Store.fileName name]) = none

section Showing

variable {engine : Engine} {name : String} {world : World} {errand : Errand}
  {made : Except TemplateError Value}

theorem render_shows (engine : Engine) (name : String) (data : Datum) (world : World) :
    (engine.render name data).run.run world =
      (engine.showIn name (contextOfData data)).run.run world := by
  unfold render contextOfData
  rw [run_bind, run_outcome]
  cases data.toValue.mapError fun error => TemplateError.context (.datum error) <;> rfl

theorem show_run (engine : Engine) (name : String) (made : Except TemplateError Value)
    (world : World) :
    (engine.showIn name made).run.run world =
      match made with
      | .error error => (.error error, world)
      | .ok context =>
          (((engine.program name).run.run world).1 >>= fun program => program.execute context,
            ((engine.program name).run.run world).2) := by
  unfold showIn
  rw [run_bind, run_outcome]
  cases made with
  | error error => rfl
  | ok context =>
      dsimp only
      rw [run_bind]
      rcases (engine.program name).run.run world with ⟨outcome, after⟩
      cases outcome <;> rfl

theorem show_world (engine : Engine) (name : String) (made : Except TemplateError Value)
    (world : World) :
    ((engine.showIn name made).run.run world).2 =
      match if made.isOk then some name else none with
      | none => world
      | some shown => ((engine.program shown).run.run world).2 := by
  rw [show_run]
  cases made <;> rfl

theorem attend_asked (asks : errand.asks? = some name) :
    engine.attend world errand =
      match errand.shows? with
      | none => world
      | some shown => ((engine.program shown).run.run world).2 := by
  unfold attend Errand.shows?
  cases errand with
  | render asked data =>
      dsimp only
      rw [render_shows, show_world]
  | respond asked data =>
      have same : (engine.respond asked data world).2 =
          ((engine.render asked data).run.run world).2 := rfl
      dsimp only
      rw [same, render_shows, show_world]
  | renderValue asked value => exact show_world engine asked (contextOf value) world
  | compile asked => rfl
  | precompileAll | invalidate | clear => cases asks

theorem attend_shown (shows : errand.shows? = some name) :
    engine.attend world errand = ((engine.program name).run.run world).2 := by
  rw [attend_asked (Errand.asks_of_shows shows), shows]

end Showing

section Remembering

variable {engine : Engine} {folder : Location} {used : String → Prop} {start world : World}
  {firsts : List (String × Program)} {name : String} {program : Program} {now : Instant}

theorem Fresh.remembers (fresh : engine.Fresh folder used start) :
    engine.Remembers folder used start [] where
  ready := fresh.ready
  counted := fresh.uncounted
  distinct := List.nodup_nil
  known := nofun
  stored := nofun
  missing := fun name here _ => fresh.empty name here

theorem Remembers.later (remembers : engine.Remembers folder used world firsts) (now : Instant) :
    engine.Remembers folder used { world with now } firsts where
  ready := remembers.ready
  counted := remembers.counted
  distinct := remembers.distinct
  known := remembers.known
  stored := remembers.stored
  missing := remembers.missing

theorem Remembers.edited {after : Disk} (remembers : engine.Remembers folder used world firsts)
    (ready : engine.store.Ready after folder)
    (alone : ∀ name, used name → after.lookup (folder ++ [Store.fileName name]) =
      world.disk.lookup (folder ++ [Store.fileName name])) :
    engine.Remembers folder used { world with disk := after } firsts where
  ready := ready
  counted := remembers.counted
  distinct := remembers.distinct
  known := remembers.known
  stored := by
    intro name program first
    have same := alone name (remembers.known name program first)
    rw [Store.load_eq ready, same, ← Store.load_eq remembers.ready]
    exact remembers.stored name program first
  missing := by
    intro name here unknown
    rw [alone name here]
    exact remembers.missing name here unknown

theorem Remembers.stored_first (remembers : engine.Remembers folder used world firsts)
    (unchecked : engine.options.checkModified = false) (first : (name, program) ∈ firsts) :
    engine.stored? world.disk name = some program := by
  refine stored_eq_some.mpr ⟨remembers.stored name program first, fun checked => ?_⟩
  cases unchecked.symm.trans checked

theorem Remembers.nothing_stored (remembers : engine.Remembers folder used world firsts)
    (here : used name) (unknown : name ∉ firsts.map Prod.fst) :
    engine.stored? world.disk name = none := by
  apply stored_none
  rw [Store.load_eq remembers.ready, remembers.missing name here unknown]

theorem Remembers.built {disk : Disk} (fresh : engine.Fresh folder used start)
    (remembers : engine.Remembers folder used world firsts) (proper : world.now.Proper)
    (here : used name) (unknown : name ∉ firsts.map Prod.fst) (whole : program.KeptWhole)
    (stores : engine.Stores name world program disk) :
    engine.Remembers folder used { world with disk, compiles := world.compiles + 1 }
      (firsts ++ [(name, program)]) := by
  obtain ⟨template, compiled, generated⟩ := bind_eq_ok.mp stores.makes
  have named := generated_name compiled generated
  obtain ⟨changed, held⟩ := Store.save_changes remembers.ready stores.saved
  rw [named] at held
  have ready := remembers.ready.kept changed
  have other_same : ∀ other, used other → other ≠ name →
      disk.lookup (folder ++ [Store.fileName other]) =
        world.disk.lookup (folder ++ [Store.fileName other]) := by
    intro other other_here different
    rw [held _ (Disk.child_apart folder _), Disk.lookup_set_of_ne]
    intro same
    have same_file := List.append_cancel_left same
    exact different (fresh.apart other name other_here here (List.cons.inj same_file).1)
  refine ⟨ready, ?_, ?_, ?_, ?_, ?_⟩
  · rw [List.length_append, ← remembers.counted]
    rfl
  · rw [List.map_append]
    exact List.concat_eq_append ▸ remembers.distinct.concat unknown
  · intro other made_so first
    rcases List.mem_append.mp first with before | last
    · exact remembers.known other made_so before
    · cases List.mem_singleton.mp last
      exact here
  · intro other made_so first
    rcases List.mem_append.mp first with before | last
    · have different : other ≠ name := by
        rintro rfl
        exact unknown (List.mem_map_of_mem before)
      have same := other_same other (remembers.known other made_so before) different
      rw [Store.load_eq ready, same, ← Store.load_eq remembers.ready]
      exact remembers.stored other made_so before
    · cases List.mem_singleton.mp last
      exact stores.loaded proper whole
  · intro other other_here other_unknown
    rw [List.map_append, List.mem_append, not_or] at other_unknown
    have different : other ≠ name := fun same => other_unknown.2 (List.mem_singleton.mpr same)
    rw [other_same other other_here different]
    exact remembers.missing other other_here other_unknown.1

theorem Remembers.build_works (remembers : engine.Remembers folder used world firsts)
    (here : used name) (unknown : name ∉ firsts.map Prod.fst)
    (made : engine.make name world.disk world.now = .ok program) :
    ∃ disk, engine.Stores name world program disk := by
  obtain ⟨template, compiled, generated⟩ := bind_eq_ok.mp made
  have free (since : Instant) :
      world.disk.lookup (folder ++ [Store.fileName program.name]) ≠ some (.folder since) := by
    rw [generated_name compiled generated, remembers.missing name here unknown]
    nofun
  obtain ⟨disk, saved⟩ := Store.save_works remembers.ready world.now free
  exact ⟨disk, made, saved⟩

theorem Remembers.builds {disk : Disk} (remembers : engine.Remembers folder used world firsts)
    (fresh : engine.Fresh folder used start) (here : used name)
    (unknown : name ∉ firsts.map Prod.fst) (stores : engine.Stores name world program disk) :
    (engine.program name).run.run world =
      (.ok program, { world with disk, compiles := world.compiles + 1 }) := by
  obtain ⟨template, compiled, -⟩ := bind_eq_ok.mp stores.makes
  rw [program_of_source (source_of_compile compiled) fresh.cached,
    remembers.nothing_stored here unknown]
  exact stores.run

theorem Remembers.got (remembers : engine.Remembers folder used world firsts)
    (fresh : engine.Fresh folder used start) (proper : world.now.Proper) (here : used name)
    (whole : ∀ first ∈ engine.withFirst world firsts name, first.2.KeptWhole) :
    engine.Remembers folder used ((engine.program name).run.run world).2
      (engine.withFirst world firsts name) := by
  unfold withFirst at whole ⊢
  by_cases known : name ∈ firsts.map Prod.fst
  · obtain ⟨⟨name, program⟩, first, rfl⟩ := List.mem_map.mp known
    rw [if_pos known]
    dsimp only at here ⊢
    by_cases source : engine.HasSource world.disk name
    · rw [program_of_source source fresh.cached, remembers.stored_first fresh.unchecked first]
      exact remembers
    · rw [program_missing source]
      exact remembers
  · rw [if_neg known] at whole ⊢
    cases makes : engine.make name world.disk world.now with
    | error error =>
        by_cases source : engine.HasSource world.disk name
        · rw [program_of_source source fresh.cached, remembers.nothing_stored here known]
          dsimp only
          rw [build_run, makes]
          exact remembers
        · rw [program_missing source]
          exact remembers
    | ok program =>
        rw [makes] at whole
        obtain ⟨disk, stores⟩ := remembers.build_works here known makes
        rw [remembers.builds fresh here known stores]
        have whole_last := whole (name, program) (List.mem_append_right _ List.mem_cons_self)
        exact remembers.built fresh proper here known whole_last stores

theorem Remembers.attended {errand : Errand}
    (remembers : engine.Remembers folder used world firsts)
    (fresh : engine.Fresh folder used start) (proper : world.now.Proper)
    (asks : errand.asks? = some name) (here : used name)
    (whole : ∀ first ∈ engine.firstsAfter world firsts errand, first.2.KeptWhole) :
    engine.Remembers folder used (engine.attend world errand)
      (engine.firstsAfter world firsts errand) := by
  rw [attend_asked asks]
  unfold firstsAfter at whole ⊢
  cases shows : errand.shows? with
  | none => exact remembers
  | some shown =>
      rw [shows] at whole
      cases asks.symm.trans (Errand.asks_of_shows shows)
      exact remembers.got fresh proper here whole

/-- First programs are never given up. -/
theorem first_after {first : String × Program} (errand : Errand) (before : first ∈ firsts) :
    first ∈ engine.firstsAfter world firsts errand := by
  unfold firstsAfter withFirst
  split
  · exact before
  · split
    · exact before
    · split
      · exact List.mem_append_left _ before
      · exact before

theorem Chronicle.remembers (chronicle : engine.Chronicle folder used start world firsts)
    (fresh : engine.Fresh folder used start)
    (whole : ∀ first ∈ firsts, first.2.KeptWhole) :
    engine.Remembers folder used world firsts := by
  induction chronicle with
  | begun => exact fresh.remembers
  | @attended world firsts errand name now so_far proper asks here remembered =>
      have before := remembered fun first member => whole first (first_after errand member)
      exact (before.later now).attended fresh proper asks here whole
  | edited so_far ready alone remembered => exact (remembered whole).edited ready alone

theorem Remembers.shows (remembers : engine.Remembers folder used world firsts)
    (fresh : engine.Fresh folder used start) (first : (name, program) ∈ firsts)
    (made : Except TemplateError Value) :
    (engine.HasSource world.disk name → ((engine.showIn name made).run.run world).1 =
        made >>= fun context => program.execute context) ∧
      (¬engine.HasSource world.disk name → ((engine.showIn name made).run.run world).1 =
        made >>= fun _ => .error (.notFound name)) := by
  rw [show_run]
  constructor
  · intro source
    rw [program_of_source source fresh.cached, remembers.stored_first fresh.unchecked first]
    cases made <;> rfl
  · intro missing
    rw [program_missing missing]
    cases made <;> rfl

/-- However often templates are shown and whatever becomes of their files, each is compiled
at most once, and its pages come from the program of that first time. When the file of the
template itself is gone, there is no page. The programs are ones that the store gives back. -/
theorem compiled_once (fresh : engine.Fresh folder used start)
    (chronicle : engine.Chronicle folder used start world firsts)
    (fits : ∀ first ∈ firsts, first.2.FitsMemory)
    (exact_floats : ∀ first ∈ firsts, first.2.FloatsExact) :
    world.compiles = firsts.length ∧ (firsts.map Prod.fst).Nodup ∧
      ∀ name program, (name, program) ∈ firsts → ∀ now,
        (engine.HasSource world.disk name →
          (∀ data, ((engine.render name data).run.run { world with now }).1 =
            contextOfData data >>= fun context => program.execute context) ∧
          ∀ value, ((engine.renderValue name value).run.run { world with now }).1 =
            contextOf value >>= fun context => program.execute context) ∧
        (¬engine.HasSource world.disk name →
          (∀ data, ((engine.render name data).run.run { world with now }).1 =
            contextOfData data >>= fun _ => .error (.notFound name)) ∧
          ∀ value, ((engine.renderValue name value).run.run { world with now }).1 =
            contextOf value >>= fun _ => .error (.notFound name)) := by
  have remembers := chronicle.remembers fresh fun first member =>
    ⟨fits first member, exact_floats first member⟩
  refine ⟨remembers.counted, remembers.distinct, ?_⟩
  intro name program first now
  have shows := (remembers.later now).shows fresh first
  constructor
  · intro source
    refine ⟨fun data => ?_, fun value => (shows (contextOf value)).1 source⟩
    rw [render_shows]
    exact (shows (contextOfData data)).1 source
  · intro missing
    refine ⟨fun data => ?_, fun value => (shows (contextOf value)).2 missing⟩
    rw [render_shows]
    exact (shows (contextOfData data)).2 missing

end Remembering

section Letter

def draft : Disk :=
  ⟨"/srv", [([], .folder (.ofSeconds 0)),
    (["letter.html"], .file "Dear {{ name }}".toUTF8 (.ofSeconds 0)),
    ([".tmp"], .folder (.ofSeconds 0))]⟩

def draftEngine : Engine := letters.engine { cached := some true }

def spoil (disk : Disk) : Disk := disk.set ["letter.html"] (.file "{% endif %}".toUTF8 (.ofSeconds 2))

theorem draft_paths : draftEngine.options.isCached = true ∧
    (draft.locate draftEngine.store.directory).toOption = some [".tmp"] ∧
    (draft.checkedParts "/srv/letter.html").toOption = some ["letter.html"] ∧
    (draftEngine.sourcePath "letter.html").toOption = some "/srv/letter.html" ∧
    (draftEngine.load draft "letter.html").toOption = some "Dear {{ name }}" := by
  decide

theorem draft_formed : draft.WellFormed where
  absolute := letters_names.1.1
  named := letters_names.1.2
  names := by
    have names := letters_names.2
    intro entry member name part
    simp only [draft, List.mem_cons, List.not_mem_nil, or_false] at member
    rcases member with rfl | rfl | rfl
    · cases part
    · exact names name (by simp_all)
    · exact names name (by simp_all)

theorem draft_fresh : draftEngine.Fresh [".tmp"] (· = "letter.html") ⟨draft, 0, .ofSeconds 0⟩ where
  ready :=
    { formed := draft_formed
      there := by
        have located := toOption_eq_some.mp draft_paths.2.1
        exact ⟨.ofSeconds 0, Disk.entry_eq_ok.mpr ⟨located, rfl⟩⟩
      short := letters_store.short }
  cached := draft_paths.1
  unchecked := rfl
  apart := fun _ _ here other_here _ => here.trans other_here.symm
  empty := by
    rintro name rfl
    generalize Store.fileName "letter.html" = file
    simp [draft, Disk.lookup, Disk.find?]
  uncounted := rfl

theorem draft_makes : ∃ program, program.KeptWhole ∧
    draftEngine.make "letter.html" draft (.ofSeconds 1) = .ok program := by
  obtain ⟨program, made, whole⟩ := letter_generated
  obtain ⟨-, -, -, -, loaded⟩ := draft_paths
  have assembled : draftEngine.compile draft "letter.html" =
      Template.assemble "letter.html" (Template.readSource "Dear {{ name }}") [] :=
    Template.compile_alone (toOption_eq_some.mp loaded) letter_read.2.1
  refine ⟨program, whole, ?_⟩
  rw [make, assembled]
  exact made

theorem draft_shown : ∃ program world, program.KeptWhole ∧
    Disk.ChangedIn [".tmp"] draft world.disk ∧
    draftEngine.Chronicle [".tmp"] (· = "letter.html") ⟨draft, 0, .ofSeconds 0⟩ world
      [("letter.html", program)] := by
  obtain ⟨program, whole, makes⟩ := draft_makes
  have remembers := draft_fresh.remembers.later (.ofSeconds 1)
  obtain ⟨disk, stores⟩ := remembers.build_works rfl (by simp) makes
  have asks : (Errand.renderValue "letter.html" .null).asks? = some "letter.html" := rfl
  have shows : (Errand.renderValue "letter.html" .null).shows? = some "letter.html" := rfl
  have first : draftEngine.firstsAfter ⟨draft, 0, .ofSeconds 1⟩ []
      (.renderValue "letter.html" .null) = [("letter.html", program)] := by
    rw [firstsAfter, shows]
    dsimp only
    rw [withFirst, makes]
    rfl
  have attended : draftEngine.attend ⟨draft, 0, .ofSeconds 1⟩ (.renderValue "letter.html" .null) =
      ⟨disk, 1, .ofSeconds 1⟩ := by
    rw [attend_shown shows, remembers.builds draft_fresh rfl (by simp) stores]
  have start : draftEngine.Chronicle [".tmp"] (· = "letter.html") ⟨draft, 0, .ofSeconds 0⟩
      ⟨draft, 0, .ofSeconds 0⟩ [] := .begun
  have proper : (Instant.ofSeconds 1).Proper := by decide
  have grown := start.attended proper asks rfl
  rw [first, attended] at grown
  exact ⟨program, ⟨disk, 1, .ofSeconds 1⟩, whole,
    (Store.save_changes remembers.ready stores.saved).1, grown⟩

theorem spoiled_found {disk : Disk} (changed : Disk.ChangedIn [".tmp"] draft disk) :
    draftEngine.load (spoil disk) "letter.html" = .ok "{% endif %}" ∧
      draftEngine.HasSource (spoil disk) "letter.html" := by
  obtain ⟨-, -, checked, there, -⟩ := draft_paths
  have mount : (spoil disk).mount = draft.mount := changed.mount
  have top : (spoil disk).lookup [] = some (.folder (.ofSeconds 0)) := by
    rw [spoil, Disk.lookup_set_of_ne (by simp), changed.lookup (by simp)]
    rfl
  have down : Disk.Leads [] "letter.html" ["letter.html"] :=
    .down (by decide) (by decide) (by decide)
  have found : (spoil disk).entry "/srv/letter.html" =
      .ok (["letter.html"], .file "{% endif %}".toUTF8 (.ofSeconds 2)) := by
    rw [toOption_eq_some, ← Disk.checked_same mount] at checked
    have followed : (spoil disk).follow [] ["letter.html"] = .ok ["letter.html"] :=
      Disk.follow_cons_eq_ok.mpr ⟨_, _, top, down, rfl⟩
    exact Disk.entry_eq_ok.mpr
      ⟨Disk.locate_eq_ok.mpr ⟨_, checked, followed⟩, Disk.lookup_set_self⟩
  rw [toOption_eq_some] at there
  constructor
  · rw [load, there]
    dsimp only
    rw [Disk.readText, Disk.read, found]
    rfl
  · refine ⟨_, there, ?_⟩
    rw [Disk.isFile, found]

/-- The letter is shown by its first program after it was spoiled. -/
theorem letter_kept : ∃ program world,
    draftEngine.Chronicle [".tmp"] (· = "letter.html") ⟨draft, 0, .ofSeconds 0⟩ world
      [("letter.html", program)] ∧
    world.compiles = 1 ∧ (draftEngine.compile world.disk "letter.html").isOk = false ∧
    ((draftEngine.renderValue "letter.html" .null).run.run { world with now := .ofSeconds 3 }).1 =
      program.execute .emptyMap := by
  obtain ⟨program, world, whole, changed, shown⟩ := draft_shown
  have all_whole : ∀ first ∈ [("letter.html", program)], first.2.KeptWhole := by
    intro first member
    rw [List.mem_singleton.mp member]
    exact whole
  have remembers := shown.remembers draft_fresh all_whole
  have put : Disk.ChangedIn [] world.disk (spoil world.disk) := by
    apply Disk.ChangedIn.set List.nil_prefix
    · exact List.forall_mem_singleton.mpr (letters_names.2 "letter.html" (by simp))
    · rintro ⟨modified, folder⟩
      rw [changed.lookup (by simp)] at folder
      cases folder
  have alone (name : String) (_ : name = "letter.html") :
      (spoil world.disk).lookup ([".tmp"] ++ [Store.fileName name]) =
        world.disk.lookup ([".tmp"] ++ [Store.fileName name]) := by
    exact Disk.lookup_set_of_ne (by simp)
  have spoiled := shown.edited (remembers.ready.kept put) alone
  obtain ⟨loaded, source⟩ := spoiled_found changed
  have once := compiled_once draft_fresh spoiled (fun first member => (all_whole first member).fits)
    fun first member => (all_whole first member).exact_floats
  refine ⟨program, _, spoiled, once.1, ?_, ?_⟩
  · have broken : (Template.assemble "letter.html" (Template.readSource "{% endif %}") []).isOk =
        false ∧ (Template.readSource "{% endif %}").parent = none := by
      decide +kernel
    have assembled : draftEngine.compile (spoil world.disk) "letter.html" =
        Template.assemble "letter.html" (Template.readSource "{% endif %}") [] :=
      Template.compile_alone loaded broken.2
    dsimp only
    rw [assembled]
    exact broken.1
  · exact ((once.2.2 _ _ List.mem_cons_self (.ofSeconds 3)).1 source).2 .null

end Letter

end Engine

end Letterpress
