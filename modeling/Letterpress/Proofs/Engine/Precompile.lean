import Letterpress.Proofs.Engine.Walk

/-!
Compiling everything at once, so that nothing is left to compile: an engine over the same
directories that uses stored programs shows all templates from there, and shows what one that
builds them anew does, as far as doubles are read as they were written. Where the path of the
store takes a detour, the walk goes on into the folder that it fills.
-/

namespace Letterpress

open Files

namespace Engine

/-- What a render from the store comes to, beside one that builds the program anew: nothing is
built or changed, and if the doubles of the program are exact, the outcomes are the same. -/
structure FromStore (program : Program) (current : World)
    (stored anew : Except TemplateError String × World) : Prop where
  unchanged : stored.2 = current
  outcome : program.FloatsExact → stored.1 = anew.1

section Opening

variable {engine : Engine} {disk opened : Disk} {root folder : Location} {directory : String}
  {now modified : Instant}

theorem placed_of_open {options : Options} (formed : disk.WellFormed)
    (opens : openAt disk directory options now = (.ok engine, opened))
    (short : engine.store.directory.utf8ByteSize + 70 < Disk.pathLimit) :
    ∃ root folder, engine.Placed opened root folder := by
  obtain ⟨root, -, rooted⟩ := rooted_of_open formed opens
  obtain ⟨-, folder, housed⟩ := open_at_houses formed opens
  obtain ⟨location, since, -, same, -⟩ := open_eq_ok opens
  refine ⟨root, folder, rooted, ?_, housed.formed, housed.there, short⟩
  rw [same]

theorem Placed.kept {place : Location} (placed : engine.Placed disk root folder)
    (changed : Disk.ChangedIn place disk opened) : engine.Placed opened root folder where
  toRooted := placed.toRooted.kept changed
  seen := placed.seen
  ready := placed.ready.kept changed

/-- Opening an engine once more over its directories changes its options only. -/
theorem Placed.reopens (placed : engine.Placed disk root folder)
    (found : disk.entry directory = .ok (root, .folder modified))
    (options : Options) (same : options.artifactDirectory = engine.options.artifactDirectory)
    (now : Instant) :
    openAt disk directory options now = (.ok { engine with options }, disk) := by
  obtain ⟨since, store_found⟩ := placed.ready.there
  have path : Path.join (disk.pathOf root) options.artifactDirectory = engine.store.directory := by
    rw [placed.seen, placed.directory, same]
  unfold openAt
  rw [found]
  dsimp only [Store.create]
  rw [path, Disk.create_existing store_found now, ← placed.directory]
  rfl

end Opening

section Precompiled

variable {engine : Engine} {start : Disk} {root folder : Location} {name : String}
  {world current other : World} {now : Instant} {program : Program}

theorem precompile_walks (buildable : engine.Buildable world.disk root folder)
    (straight : engine.Straight root folder) (proper : world.now.Proper) :
    ∃ (places : List (List String)) (after : World),
      engine.precompileAll.run.run world = (.ok places.length, after) ∧
      engine.Builds world (places.map fun names => "/".intercalate names) after ∧
      places.Nodup ∧ ∀ names, names ∈ places ↔ IsTemplate world.disk root folder names := by
  obtain ⟨modified, stands⟩ := buildable.folders root List.prefix_rfl
  have located := buildable.tree.reached root _ stands
  rw [← buildable.directory] at located
  have found := Disk.entry_eq_ok.mpr ⟨located, stands⟩
  have none_shown : Shown [] := nofun
  have top := List.append_nil root
  unfold precompileAll
  rw [run_bind, run_get]
  dsimp only
  rw [found]
  dsimp only
  split
  · next is_store =>
      have same := (buildable.store_folder_iff straight none_shown).mp is_store
      rw [top] at same
      subst same
      refine ⟨[], world, rfl, .nothing, List.nodup_nil, fun names => ?_⟩
      refine ⟨fun member => absurd member List.not_mem_nil, fun template => ?_⟩
      exact absurd (List.prefix_append _ names) (template.outside List.prefix_rfl)
  · next no_store =>
      have outside : root <+: folder → ¬folder <+: root ++ [] := by
        intro below above
        rw [top] at above
        apply no_store
        rw [buildable.store_folder_iff straight none_shown, top]
        exact above.eq_of_length (Nat.le_antisymm above.length_le below.length_le)
      have held : Entry.Alike (world.disk.lookup (root ++ [])) (some (.folder modified)) := by
        rw [top, stands]
        exact .inl rfl
      obtain ⟨places, after, ran, built, -, -, distinct, covered⟩ :=
        entry_walks buildable straight (world.disk.entries.length + 1) held none_shown outside
          (by
            rintro place ⟨⟨_, _, file⟩, -, -⟩ -
            have bound := buildable.tree.depth buildable.formed file
            rw [List.length_append] at bound
            rw [List.length_nil]
            omega)
          world (.refl buildable.tree.distinct) proper
      refine ⟨places, after, ran, built, distinct, fun names => ?_⟩
      rw [covered]
      exact and_iff_left List.nil_prefix

theorem template_names_apart (rooted : engine.Rooted start root) {names others : List String}
    (template : IsTemplate start root folder names) (also : IsTemplate start root folder others)
    (same : "/".intercalate names = "/".intercalate others) : names = others := by
  have spelled : ∀ names, IsTemplate start root folder names →
      Path.parts ("/".intercalate names) = names := by
    rintro names ⟨⟨_, _, file⟩, -, -⟩
    have all_names : ∀ name ∈ names, Path.IsName name := fun name member =>
      rooted.formed.names _ (Disk.mem_of_find? file) name (List.mem_append_right root member)
    refine Path.parts_intercalate ?_ all_names
    rintro rfl
    obtain ⟨since, folder_here⟩ := rooted.folders root List.prefix_rfl
    rw [List.append_nil, folder_here] at file
    cases file
  rw [← spelled names template, same, spelled others also]

/-- A template whose program is stored is shown from there. -/
theorem shown_from_store (buildable : engine.Buildable start root folder)
    (here : HasTemplate start root folder name)
    (stocked : Stocked root folder start current.disk) (same : other.disk = current.disk)
    (stored_made : engine.make name start now = .ok program)
    (loaded : engine.store.load? current.disk name = some program.reread)
    (cached uncached : Options) (use : cached.isCached = true)
    (unchecked : cached.checkModified = false) (useless : uncached.isCached = false)
    (made : Except TemplateError Value) :
    FromStore program current
      ((({ engine with options := cached } : Engine).showIn name made).run.run current)
      ((({ engine with options := uncached } : Engine).showIn name made).run.run other) := by
  obtain ⟨again, began, still, -⟩ := buildable.makes_at here stocked now
  obtain ⟨template, compiled, -⟩ := bind_eq_ok.mp still
  have source : engine.HasSource current.disk name := source_of_compile compiled
  have found : (({ engine with options := cached } : Engine).program name).run.run current =
      (.ok program.reread, current) := by
    have usable : ({ engine with options := cached } : Engine).stored? current.disk name =
        some program.reread := by
      refine stored_eq_some.mpr ⟨loaded, fun checked => ?_⟩
      cases unchecked.symm.trans checked
    have cached_source : ({ engine with options := cached } : Engine).HasSource current.disk name :=
      source
    rw [program_of_source cached_source use, usable]
  have stocked_other : Stocked root folder start other.disk := same ▸ stocked
  obtain ⟨rebuilt, disk, rebuilt_made, -, stores⟩ := buildable.build_works here stocked_other
  have anew : (({ engine with options := uncached } : Engine).program name).run.run other =
      (.ok rebuilt, { other with disk, compiles := other.compiles + 1 }) := by
    obtain ⟨path, there, is_file⟩ := source
    have uncached_there :
        ({ engine with options := uncached } : Engine).sourcePath name = .ok path := there
    have stores_so :
        ({ engine with options := uncached } : Engine).Stores name other rebuilt disk :=
      ⟨stores.makes, stores.saved⟩
    rw [program_uncached uncached_there (same ▸ is_file) useless, stores_so.run]
  have alike (exact_floats : program.FloatsExact) : Setting.SameShow program.reread rebuilt := by
    obtain ⟨template, -, generated⟩ := bind_eq_ok.mp stored_made
    have later := Except.ok.inj (rebuilt_made.symm.trans (make_later stored_made other.now))
    rw [Program.reread_of_exact generated exact_floats, later]
    exact ⟨rfl, rfl⟩
  rw [show_run, show_run, found, anew]
  cases made with
  | error error => exact ⟨rfl, fun _ => rfl⟩
  | ok context => exact ⟨rfl, fun exact_floats => execute_same (alike exact_floats) context⟩

/-- Precompiling builds the visible files outside of the folder of the store, each once under its
name, and counts them; it builds nothing else. Afterwards an engine over the same directories
that uses stored programs shows all of them without a build, and shows what one that uses none
does, where the doubles of the program are exact. -/
theorem precompiled_is_visible (buildable : engine.Buildable world.disk root folder)
    (straight : engine.Straight root folder) (proper : world.now.Proper) :
    ∃ (places : List (List String)) (after : World),
      places.Nodup ∧ (∀ names, names ∈ places ↔ IsTemplate world.disk root folder names) ∧
      (places.map fun names => "/".intercalate names).Nodup ∧
      engine.precompileAll.run.run world = (.ok places.length, after) ∧
      engine.Builds world (places.map fun names => "/".intercalate names) after ∧
      after.compiles = world.compiles + places.length ∧
      ∀ directory modified now, after.disk.entry directory = .ok (root, .folder modified) →
        ∃ cached uncached,
          openAt after.disk directory
              { engine.options with cached := some true, checkModified := false } now =
            (.ok cached, after.disk) ∧
          openAt after.disk directory { engine.options with cached := some false } now =
            (.ok uncached, after.disk) ∧
          ∀ names ∈ places, ∃ program,
            engine.make ("/".intercalate names) world.disk world.now = .ok program ∧
            ∀ current other : World, current.disk = after.disk → other.disk = after.disk →
              (∀ data, FromStore program current
                ((cached.render ("/".intercalate names) data).run.run current)
                ((uncached.render ("/".intercalate names) data).run.run other)) ∧
              ∀ value, FromStore program current
                ((cached.renderValue ("/".intercalate names) value).run.run current)
                ((uncached.renderValue ("/".intercalate names) value).run.run other) := by
  obtain ⟨places, after, ran, built, distinct, covered⟩ :=
    precompile_walks buildable straight proper
  have all_here : ∀ name ∈ places.map fun names => "/".intercalate names,
      HasTemplate world.disk root folder name := by
    intro name member
    obtain ⟨names, inside, same⟩ := List.mem_map.mp member
    exact ⟨names, (covered names).mp inside, same⟩
  obtain ⟨stocked, -, compiles, held⟩ :=
    buildable.builds_stock built all_here (.refl buildable.tree.distinct) proper
  refine ⟨places, after, distinct, covered, ?_, ran, built, ?_, ?_⟩
  · refine distinct.map_on fun names here others there same => ?_
    exact template_names_apart buildable.toRooted ((covered names).mp here)
      ((covered others).mp there) same
  · rw [compiles, List.length_map]
  · intro directory modified now found
    have placed := buildable.toPlaced.kept stocked.kept
    let stored : Options := { engine.options with cached := some true, checkModified := false }
    let anew : Options := { engine.options with cached := some false }
    refine ⟨_, _, placed.reopens found stored rfl now, placed.reopens found anew rfl now, ?_⟩
    intro names member
    have listed := List.mem_map_of_mem (f := fun names => "/".intercalate names) member
    have here := all_here _ listed
    obtain ⟨program, made, loaded⟩ := held _ here (.inr listed)
    refine ⟨program, made, fun current other current_same other_same => ?_⟩
    rw [← current_same] at stocked loaded
    have shown := shown_from_store buildable here stocked (other_same.trans current_same.symm) made
      loaded stored anew rfl rfl rfl
    refine ⟨fun data => ?_, fun value => shown (contextOf value)⟩
    rw [render_shows, render_shows]
    exact shown (contextOfData data)

end Precompiled

section Lone

variable {engine : Engine} {disk : Disk} {root folder : Location} {names : List String}
  {text : String} {modified : Instant} {world : World} {program : Program}

theorem lone_makes (rooted : engine.Rooted disk root)
    (held : disk.lookup (root ++ names) = some (.file text.toUTF8 modified))
    (located : disk.locate (disk.pathOf (root ++ names)) = .ok (root ++ names))
    (alone : (Template.readSource text).parent = none) (now : Instant) :
    engine.make ("/".intercalate names) disk now =
      Template.assemble ("/".intercalate names) (Template.readSource text) [] >>=
        fun template => template.generate now := by
  have loaded : engine.load disk ("/".intercalate names) = .ok text := by
    rw [load, (rooted.file_named held).1]
    dsimp only
    rw [Disk.readText, Disk.read, Disk.entry_eq_ok.mpr ⟨located, held⟩]
    simp only [bind, Except.bind, pure, Except.pure, Text.Utf8.fromUTF8?_toUTF8]
  have compiled : engine.compile disk ("/".intercalate names) =
      Template.assemble ("/".intercalate names) (Template.readSource text) [] :=
    Template.compile_alone loaded alone
  rw [make, compiled]

theorem lone_stores (placed : engine.Placed world.disk root folder)
    (held : world.disk.lookup (root ++ names) = some (.file text.toUTF8 modified))
    (located : world.disk.locate (world.disk.pathOf (root ++ names)) = .ok (root ++ names))
    (alone : (Template.readSource text).parent = none)
    (generated : (Template.assemble ("/".intercalate names) (Template.readSource text) [] >>=
      fun template => template.generate world.now) = .ok program)
    (free : ∀ since, world.disk.lookup (folder ++ [Store.fileName ("/".intercalate names)]) ≠
      some (.folder since)) :
    program.name = "/".intercalate names ∧
      ∃ disk, engine.Stores ("/".intercalate names) world program disk := by
  rw [← lone_makes placed.toRooted held located alone] at generated
  obtain ⟨template, compiled, made⟩ := bind_eq_ok.mp generated
  have named := generated_name compiled made
  obtain ⟨disk, saved⟩ := Store.save_works placed.ready world.now (named ▸ free)
  exact ⟨named, disk, generated, saved⟩

end Lone

def gallery : Disk :=
  ⟨"/srv", [([], .folder (.ofSeconds 0)),
    ([".draft"], .file "{% if %}".toUTF8 (.ofSeconds 0)),
    (["a"], .folder (.ofSeconds 0)),
    (["a", "page.html"], .file "Dear {{ name }}".toUTF8 (.ofSeconds 0)),
    (["cache"], .folder (.ofSeconds 0))]⟩

def galleryWorld : World := ⟨gallery, 0, .ofSeconds 1⟩

def galleryEngine (artifactDirectory : String) : Engine :=
  ⟨"/srv", ⟨Path.join "/srv" artifactDirectory⟩, { artifactDirectory }⟩

def galleryPage : Except TemplateError Program :=
  Template.assemble "a/page.html" (Template.readSource "Dear {{ name }}") [] >>=
    fun template => template.generate (.ofSeconds 1)

section Gallery

variable {artifactDirectory : String}

theorem gallery_formed : gallery.WellFormed where
  absolute := letters_names.1.1
  named := letters_names.1.2
  names := by
    unfold Disk.AllNames gallery
    decide

theorem gallery_tree : gallery.IsTree where
  distinct := by
    unfold Disk.Distinct
    decide
  reached := by
    have reached : ∀ place ∈ gallery.entries.map Prod.fst,
        (gallery.locate (gallery.pathOf place)).toOption = some place := by decide
    intro location entry found
    have member := List.mem_map_of_mem (f := Prod.fst) (Disk.mem_of_find? found)
    exact toOption_eq_some.mp (reached location member)

theorem srv_found : gallery.entry "/srv" = .ok ([], .folder (.ofSeconds 0)) :=
  Disk.entry_eq_ok.mpr ⟨gallery_tree.reached [] _ rfl, rfl⟩

theorem gallery_templates (names : List String) :
    IsTemplate gallery [] ["cache"] names ↔ names = ["a", "page.html"] := by
  constructor
  · rintro ⟨⟨content, modified, held⟩, shown, -⟩
    have member := Disk.mem_of_find? held
    simp only [gallery, List.nil_append, List.mem_cons, Prod.mk.injEq, reduceCtorEq, and_false,
      List.not_mem_nil, or_false, false_or] at member
    rcases member with ⟨rfl, -⟩ | ⟨rfl, -⟩
    · cases shown ".draft" List.mem_cons_self
    · rfl
  · rintro rfl
    have shown : ∀ name ∈ ["a", "page.html"], isHidden name = false := by decide
    exact ⟨⟨_, _, rfl⟩, shown, fun _ => by decide⟩

theorem gallery_names (name : String) :
    HasTemplate gallery [] ["cache"] name ↔ name = "a/page.html" := by
  have joined : "/".intercalate ["a", "page.html"] = "a/page.html" := by decide
  constructor
  · rintro ⟨names, template, rfl⟩
    rw [(gallery_templates names).mp template, joined]
  · rintro rfl
    exact ⟨_, (gallery_templates _).mpr rfl, joined⟩

theorem page_held : gallery.lookup ([] ++ ["a", "page.html"]) =
    some (.file "Dear {{ name }}".toUTF8 (.ofSeconds 0)) := rfl

theorem gallery_bare (file : String) : gallery.lookup (["cache"] ++ [file]) = none := by
  simp [gallery, Disk.lookup, Disk.find?]

theorem page_alone : (Template.readSource "Dear {{ name }}").parent = none := by decide +kernel

theorem page_pushless : pushesNothing
    (Template.assemble "a/page.html" (Template.readSource "Dear {{ name }}") []) = true := by
  decide +kernel

theorem gallery_placed
    (located : (gallery.locate (Path.join "/srv" artifactDirectory)).toOption = some ["cache"])
    (short : (Path.join "/srv" artifactDirectory).utf8ByteSize + 70 < Disk.pathLimit) :
    (galleryEngine artifactDirectory).Placed gallery [] ["cache"] where
  formed := gallery_formed
  directory := rfl
  folders := by
    intro front before
    rw [List.prefix_nil.mp before]
    exact ⟨_, rfl⟩
  seen := rfl
  ready :=
    { formed := gallery_formed
      there := ⟨_, Disk.entry_eq_ok.mpr ⟨toOption_eq_some.mp located, rfl⟩⟩
      short := short }

theorem gallery_makes (placed : (galleryEngine artifactDirectory).Placed gallery [] ["cache"]) :
    ∃ program, program.KeptWhole ∧ program.sources = ["a/page.html"] ∧
      (galleryEngine artifactDirectory).make "a/page.html" gallery (.ofSeconds 1) =
        .ok program := by
  have made : (galleryPage.toOption.any fun program =>
      decide program.FitsMemory && program.sources == ["a/page.html"]) = true := by
    decide +kernel
  obtain ⟨program, same, fine⟩ := (Option.any_eq_true _ _).mp made
  obtain ⟨fits, sources⟩ := Bool.and_eq_true_iff.mp fine
  have same := toOption_eq_some.mp same
  obtain ⟨template, assembled, generated⟩ := bind_eq_ok.mp same
  have exact_floats := Program.exact_of_pushless page_pushless assembled generated
  refine ⟨program, ⟨of_decide_eq_true fits, exact_floats⟩, eq_of_beq sources, ?_⟩
  have named : "/".intercalate ["a", "page.html"] = "a/page.html" := by decide
  have makes := lone_makes placed.toRooted page_held (gallery_tree.reached _ _ page_held) page_alone
    (.ofSeconds 1)
  rw [named] at makes
  exact makes.trans same

theorem gallery_buildable (placed : (galleryEngine artifactDirectory).Placed gallery [] ["cache"]) :
    (galleryEngine artifactDirectory).Buildable gallery [] ["cache"] where
  toPlaced := placed
  tree := gallery_tree
  apart := by
    intro name other here there _
    rw [(gallery_names name).mp here, (gallery_names other).mp there]
  free := by
    intro name _ since stands
    cases (gallery_bare _).symm.trans stands
  makes := by
    intro name here
    obtain ⟨program, whole, sources, made⟩ := gallery_makes placed
    rw [(gallery_names name).mp here]
    refine ⟨_, program, made, whole.fits, ?_⟩
    intro source member other _
    rw [sources, List.mem_singleton] at member
    subst member
    have place : Path.components "a/page.html" = ["a", "page.html"] := by decide
    rw [place]
    simp

/-- The page is precompiled, and nothing else, where the path of the store has idle parts. It
is then shown from the store as it would be without one. -/
theorem page_precompiled : ∃ after cached uncached,
    (galleryEngine "./cache/").precompileAll.run.run galleryWorld = (.ok 1, after) ∧
      (galleryEngine "./cache/").Builds galleryWorld ["a/page.html"] after ∧
      after.compiles = 1 ∧
      openAt after.disk "/srv" { cached := some true, artifactDirectory := "./cache/" }
        (.ofSeconds 2) = (.ok cached, after.disk) ∧
      openAt after.disk "/srv" { cached := some false, artifactDirectory := "./cache/" }
        (.ofSeconds 2) = (.ok uncached, after.disk) ∧
      ∀ value, (cached.renderValue "a/page.html" value).run.run after =
        (((uncached.renderValue "a/page.html" value).run.run after).1, after) := by
  have located : (gallery.locate (Path.join "/srv" "./cache/")).toOption = some ["cache"] ∧
      (Path.join "/srv" "./cache/").utf8ByteSize + 70 < Disk.pathLimit ∧
      ".." ∉ Path.parts "./cache/" := by
    decide
  have placed := gallery_placed located.1 located.2.1
  have buildable : (galleryEngine "./cache/").Buildable galleryWorld.disk [] ["cache"] :=
    gallery_buildable placed
  have straight : (galleryEngine "./cache/").Straight [] ["cache"] :=
    fun dots => absurd dots located.2.2
  have proper : galleryWorld.now.Proper := by decide
  obtain ⟨places, after, distinct, covered, -, ran, built, compiles, shown⟩ :=
    precompiled_is_visible buildable straight proper
  have only : places = [["a", "page.html"]] := by
    apply List.perm_singleton.mp
    rw [List.perm_ext_iff_of_nodup distinct (List.nodup_singleton _)]
    intro names
    rw [covered, List.mem_singleton]
    exact gallery_templates names
  subst only
  have named : "/".intercalate ["a", "page.html"] = "a/page.html" := by decide
  rw [List.map_singleton, named] at built
  have here : ∀ name ∈ ["a/page.html"], HasTemplate gallery [] ["cache"] name :=
    List.forall_mem_singleton.mpr ((gallery_names _).mpr rfl)
  have kept := (buildable.builds_stock built here (.refl gallery_tree.distinct) proper).1.kept
  obtain ⟨-, since, still⟩ := Disk.entry_kept srv_found kept.mount kept.folders
  obtain ⟨cached, uncached, opened, opened_anew, all_shown⟩ :=
    shown "/srv" since (.ofSeconds 2) still
  refine ⟨after, cached, uncached, ran, built, compiles, opened, opened_anew, fun value => ?_⟩
  obtain ⟨program, made, shown⟩ := all_shown _ List.mem_cons_self
  obtain ⟨again, whole, -, made_again⟩ := gallery_makes placed
  rw [named] at made shown
  cases made.symm.trans made_again
  have page := (shown after after rfl rfl).2 value
  exact Prod.ext (page.outcome whole.exact_floats) page.unchanged

/-- The name of a program's file begins with a digit. -/
theorem program_not_hidden (name : String) : isHidden (Store.fileName name) = false := by
  obtain ⟨digits, length, all_digits, same⟩ := Store.file_name_is_program name
  cases digits with
  | nil => cases length
  | cons first rest =>
      rw [same, isHidden, String.toList_append, String.toList_ofList]
      apply beq_false_of_ne
      intro dot
      cases dot
      have no_dot : '.' ∉ "0123456789abcdef".toList := by decide
      exact no_dot (all_digits '.' List.mem_cons_self)

theorem detour_pages : ∃ page again, galleryPage = .ok page ∧
    (Template.readSource page.encode).parent = none ∧
    (Template.assemble ("/".intercalate ["cache", Store.fileName "a/page.html"])
        (Template.readSource page.encode) [] >>=
      fun template => template.generate (.ofSeconds 1)) = .ok again := by
  have made : (galleryPage.toOption.any fun page =>
      (Template.readSource page.encode).parent.isNone &&
        (Template.assemble ("/".intercalate ["cache", Store.fileName "a/page.html"])
            (Template.readSource page.encode) [] >>=
          fun template => template.generate (.ofSeconds 1)).toOption.isSome) = true := by
    decide +kernel
  obtain ⟨page, same, fine⟩ := (Option.any_eq_true _ _).mp made
  obtain ⟨alone, generated⟩ := Bool.and_eq_true_iff.mp fine
  obtain ⟨again, again_same⟩ := Option.isSome_iff_exists.mp generated
  exact ⟨page, again, toOption_eq_some.mp same, Option.isNone_iff_eq_none.mp alone,
    toOption_eq_some.mp again_same⟩

theorem detour_placed : (galleryEngine "a/../cache").Placed gallery [] ["cache"] := by
  have located : (gallery.locate (Path.join "/srv" "a/../cache")).toOption = some ["cache"] ∧
      (Path.join "/srv" "a/../cache").utf8ByteSize + 70 < Disk.pathLimit := by
    decide
  exact gallery_placed located.1 located.2

theorem detour_unnoticed (program : String) :
    (galleryEngine "a/../cache").isStoreFolder (["cache"] ++ [program]) = false := by
  have spelled : Path.components "/srv" = ["srv"] ∧
      Path.components (Path.join "/srv" "a/../cache") = ["srv", "a", "..", "cache"] := by
    decide
  apply beq_false_of_ne
  unfold galleryEngine
  dsimp only
  rw [spelled.1, spelled.2]
  simp

theorem detour_lists {page : Program} {disk : Disk} (named : page.name = "a/page.html")
    (saved : (galleryEngine "a/../cache").store.save gallery page (.ofSeconds 1) =
      (.ok (), disk)) :
    (∃ since, disk.entry "/srv/cache" = .ok (["cache"], .folder since)) ∧
      disk.children ["cache"] = [(Store.fileName "a/page.html",
        .file page.encode.toUTF8 (.ofSeconds 1))] ∧
      ∀ file since, disk.lookup (["cache"] ++ [file]) ≠ some (.folder since) := by
  obtain ⟨changed, held⟩ := Store.save_changes detour_placed.ready saved
  have distinct := save_distinct gallery_tree.distinct saved
  rw [named] at held
  -- the name must stay closed, it would be computed as a digest
  generalize Store.fileName "a/page.html" = program at held ⊢
  have found : gallery.entry "/srv/cache" = .ok (["cache"], .folder (.ofSeconds 0)) :=
    Disk.entry_eq_ok.mpr ⟨gallery_tree.reached ["cache"] _ rfl, rfl⟩
  have stored : ∀ file, disk.lookup (["cache"] ++ [file]) =
      if file = program then some (.file page.encode.toUTF8 (.ofSeconds 1)) else none := by
    intro file
    rw [held _ (by simp)]
    by_cases same : file = program
    · rw [if_pos same, same, Disk.lookup_set_self]
    · rw [if_neg same, Disk.lookup_set_of_ne (by simp [same]), gallery_bare]
  refine ⟨(Disk.entry_kept found changed.mount changed.folders).2, ?_, ?_⟩
  · have names := (Disk.children_names disk ["cache"]).1
    apply List.perm_singleton.mp
    rw [List.perm_ext_iff_of_nodup names.of_map (List.nodup_singleton _)]
    rintro ⟨file, entry⟩
    rw [Disk.mem_children_iff distinct, stored, List.mem_singleton, Prod.mk.injEq]
    by_cases same : file = program
    · simp [same, eq_comm]
    · simp [same]
  · intro file since stands
    rw [stored] at stands
    split at stands <;> cases stands

theorem detour_goes_on {page again : Program} {disk : Disk} (named : page.name = "a/page.html")
    (saved : (galleryEngine "a/../cache").store.save gallery page (.ofSeconds 1) =
      (.ok (), disk))
    (alone : (Template.readSource page.encode).parent = none)
    (again_made :
      (Template.assemble ("/".intercalate ["cache", Store.fileName "a/page.html"])
          (Template.readSource page.encode) [] >>=
        fun template => template.generate (.ofSeconds 1)) = .ok again) :
    ∃ after, ((galleryEngine "a/../cache").build
        ("/".intercalate ["cache", Store.fileName "a/page.html"])).run.run
          ⟨disk, 1, .ofSeconds 1⟩ = (.ok again, ⟨after, 2, .ofSeconds 1⟩) := by
  obtain ⟨⟨since, cache_found⟩, listed, free⟩ := detour_lists named saved
  have changed := (Store.save_changes detour_placed.ready saved).1
  have placed := detour_placed.kept changed
  have is_name := Store.file_name_is_name "a/page.html"
  have no_null := Store.file_name_no_null "a/page.html"
  have size := Store.file_name_size "a/page.html"
  generalize Store.fileName "a/page.html" = program at *
  have stands : disk.lookup ([] ++ ["cache", program]) =
      some (.file page.encode.toUTF8 (.ofSeconds 1)) :=
    Disk.lookup_of_mem (save_distinct gallery_tree.distinct saved)
      (Disk.mem_of_children (listed ▸ List.mem_singleton_self _))
  have program_path : disk.pathOf ([] ++ ["cache", program]) = Path.join "/srv/cache" program := by
    have cache_path : Path.join "/srv" "cache" = "/srv/cache" := by decide
    rw [Disk.pathOf, changed.mount]
    exact congrArg (Path.join · program) cache_path
  have located : disk.locate (disk.pathOf ([] ++ ["cache", program])) =
      .ok ([] ++ ["cache", program]) := by
    rw [program_path]
    apply Disk.locate_in_folder placed.formed.toMounted cache_found is_name no_null
    · rw [size]
      decide
    · rw [size]
      decide
  obtain ⟨-, after, stores⟩ := @lone_stores _ _ _ _ _ _ ⟨disk, 1, .ofSeconds 1⟩ _ placed stands
    located alone again_made (free _)
  exact ⟨after, stores.run⟩

theorem detour_page_run {page : Program} {middle : World} (page_ran :
      ((galleryEngine "a/../cache").build ("/".intercalate ["a", "page.html"])).run.run
        galleryWorld = (.ok page, middle)) :
    ((galleryEngine "a/../cache").buildEntry 5 ["a"] (.folder (.ofSeconds 0))).run.run
      galleryWorld = (.ok 1, middle) := by
  have listed : galleryWorld.disk.list
      (["a"].foldl Path.join (galleryEngine "a/../cache").directory) =
        .ok [("page.html", .file "Dear {{ name }}".toUTF8 (.ofSeconds 0))] := rfl
  rw [folder_run listed]
  exact entries_run (file_run page_ran 4 _ _) no_entries_run

theorem detour_program_run {again : Program} {disk : Disk} {last : World} {program : String}
    {content : ByteArray} {since : Instant}
    (cache_found : disk.entry "/srv/cache" = .ok (["cache"], .folder since))
    (listed : disk.children ["cache"] = [(program, .file content (.ofSeconds 1))])
    (not_hidden : isHidden program = false)
    (again_ran : ((galleryEngine "a/../cache").build ("/".intercalate ["cache", program])).run.run
      ⟨disk, 1, .ofSeconds 1⟩ = (.ok again, last)) :
    ((galleryEngine "a/../cache").buildEntry 5 ["cache"] (.folder (.ofSeconds 0))).run.run
      ⟨disk, 1, .ofSeconds 1⟩ = (.ok 1, last) := by
  let middle : World := ⟨disk, 1, .ofSeconds 1⟩
  have all_listed : middle.disk.list
      (["cache"].foldl Path.join (galleryEngine "a/../cache").directory) =
        .ok [(program, .file content (.ofSeconds 1))] := by
    have cache_path : Path.join "/srv" "cache" = "/srv/cache" := by decide
    change disk.list (Path.join "/srv" "cache") = _
    rw [cache_path, Disk.list, cache_found, ← listed]
    rfl
  rw [folder_run all_listed, List.filter_cons, not_hidden, detour_unnoticed program]
  exact entries_run (file_run again_ran 4 _ _) no_entries_run

theorem detour_run {middle last : World}
    (page_entry : ((galleryEngine "a/../cache").buildEntry 5 ["a"]
      (.folder (.ofSeconds 0))).run.run galleryWorld = (.ok 1, middle))
    (program_entry : ((galleryEngine "a/../cache").buildEntry 5 ["cache"]
      (.folder (.ofSeconds 0))).run.run middle = (.ok 1, last)) :
    (galleryEngine "a/../cache").precompileAll.run.run galleryWorld = (.ok 2, last) := by
  have found : galleryWorld.disk.entry (galleryEngine "a/../cache").directory =
      .ok ([], .folder (.ofSeconds 0)) := srv_found
  have no_store : (galleryEngine "a/../cache").isStoreFolder [] = false := by decide
  have listed : galleryWorld.disk.list
      ([].foldl Path.join (galleryEngine "a/../cache").directory) =
        .ok (gallery.children []) := rfl
  have program_entries : ((galleryEngine "a/../cache").buildEntries 5 []
      [("cache", .folder (.ofSeconds 0))]).run.run middle = (.ok 1, last) :=
    entries_run program_entry no_entries_run
  have both : ((galleryEngine "a/../cache").buildEntries 5 []
      [("a", .folder (.ofSeconds 0)), ("cache", .folder (.ofSeconds 0))]).run.run galleryWorld =
        (.ok 2, last) :=
    entries_run page_entry program_entries
  unfold precompileAll
  rw [run_bind, run_get]
  dsimp only
  rw [found]
  dsimp only
  rw [no_store, if_neg Bool.false_ne_true, folder_run listed]
  exact both

/-- Where the path of the store takes a detour, the walk comes to the program that it has just
stored, and builds that as well. -/
theorem detour_builds_program : ∃ after,
    openAt gallery "/srv" { artifactDirectory := "a/../cache" } (.ofSeconds 0) =
        (.ok (galleryEngine "a/../cache"), gallery) ∧
      (galleryEngine "a/../cache").Placed gallery [] ["cache"] ∧
      (∀ names, IsTemplate gallery [] ["cache"] names ↔ names = ["a", "page.html"]) ∧
      (galleryEngine "a/../cache").precompileAll.run.run galleryWorld = (.ok 2, after) ∧
      (galleryEngine "a/../cache").Builds galleryWorld
        ["a/page.html", "/".intercalate ["cache", Store.fileName "a/page.html"]] after := by
  have opens :=
    detour_placed.reopens srv_found { artifactDirectory := "a/../cache" } rfl (.ofSeconds 0)
  obtain ⟨page, again, page_made, alone, again_made⟩ := detour_pages
  have page_named : "/".intercalate ["a", "page.html"] = "a/page.html" := by decide
  unfold galleryPage at page_made
  rw [← page_named] at page_made
  have bare : ∀ file since, gallery.lookup (["cache"] ++ [file]) ≠ some (.folder since) := by
    intro file since stands
    cases (gallery_bare file).symm.trans stands
  obtain ⟨named, disk, stores⟩ := @lone_stores _ _ _ _ _ _ galleryWorld _ detour_placed
    page_held (gallery_tree.reached _ _ page_held) page_alone page_made (bare _)
  rw [page_named] at named
  have page_ran := stores.run
  have saved := stores.saved
  obtain ⟨⟨since, cache_found⟩, listed, -⟩ := detour_lists named saved
  obtain ⟨last, again_ran⟩ := detour_goes_on named saved alone again_made
  have not_hidden := program_not_hidden "a/page.html"
  generalize Store.fileName "a/page.html" = program at *
  have program_entry := detour_program_run cache_found listed not_hidden again_ran
  refine ⟨⟨last, 2, .ofSeconds 1⟩, opens, detour_placed, gallery_templates,
    detour_run (detour_page_run page_ran) program_entry, ?_⟩
  rw [← page_named]
  exact .one page_ran (.one again_ran .nothing)

end Gallery

end Engine

end Letterpress
