import Letterpress.Proofs.Engine.Freshness

/-!
Engines that check their sources, among files that are edited. Any number of engines may
be open over one directory, and take turns with each other and with whoever edits the
files. An engine that checks shows every page as the files have it at that moment.
-/

namespace Letterpress

open Files

namespace Setting

variable (setting : Setting)

/-- What comes about on a disk from the first opening of an engine on, with the engines
that were opened by then. -/
inductive Reached : List Engine → Disk → Prop
  | opened {disk : Disk} {engine : Engine} (options : Options) (now : Instant)
      (opens : setting.openAt disk options now = (.ok engine, setting.disk)) :
      Reached [engine] setting.disk
  | reopened {engines : List Engine} {disk : Disk} (options : Options) (now : Instant)
      (reached : Reached engines disk) :
      Reached ((setting.openAt disk options now).1.toOption.toList ++ engines)
        (setting.openAt disk options now).2
  | served {engines : List Engine} {session : Session} (now : Instant) (request : Request)
      (reached : Reached engines session.world.disk) (member : session.engine ∈ engines) :
      Reached engines (session.serve setting.toSite now request).world.disk
  | edited {engines : List Engine} {disk after : Disk} (reached : Reached engines disk)
      (edits : setting.Edited disk after) : Reached engines after

end Setting

/-- The session as it would go on without using stored programs. -/
def Session.uncached (session : Session) : Session :=
  { session with
    engine :=
      { session.engine with options := { session.engine.options with cached := some false } } }

section Outcomes

variable {setting : Setting} {world : World} {name : String} {options : Options}

theorem build_outcome (coherent : setting.Coherent world.disk) (used : setting.used name)
    (options : Options) :
    (((setting.engine options).build name).run.run world).1 =
      (setting.on world.disk).compile name >>= fun template => template.generate world.now := by
  have same : (setting.engine options).make name world.disk world.now =
      (setting.on world.disk).compile name >>= fun template => template.generate world.now := by
    rw [compile_on coherent.mount name]
    rfl
  rw [Engine.build_run, same]
  cases made : (setting.on world.disk).compile name >>=
      fun template => template.generate world.now with
  | error error => rfl
  | ok program =>
      obtain ⟨template, compiled, generated⟩ := bind_eq_ok.mp made
      have named := made_name ⟨template, world.now, compiled, generated⟩
      have free := coherent.free name used
      rw [← named] at free
      obtain ⟨after, saved⟩ := Store.save_works coherent.store world.now free
      have saved_here : (setting.engine options).store.save world.disk program world.now =
          (.ok (), after) := saved
      dsimp only
      rw [saved_here]

theorem stored_matches {disk : Disk} {program : Program} (coherent : setting.Coherent disk)
    (used : setting.used name) (checked : options.checkModified = true)
    (stored : (setting.engine options).stored? disk name = some program) :
    setting.Matches disk name program := by
  obtain ⟨loaded, fresh⟩ := Engine.stored_eq_some.mp stored
  exact (coherent.stored name program used loaded).2 (fresh checked)

/-- The program of a template shows its page, from wherever the engine has it. -/
theorem program_shows (coherent : setting.Coherent world.disk) (used : setting.used name)
    (checked : options.isCached = true → options.checkModified = true) :
    (setting.on world.disk).Shows name
      (((setting.engine options).program name).run.run world).1 := by
  have on_engine := engine_on coherent.mount
  intro context
  unfold Engine.program
  rw [run_bind, run_outcome]
  have same_path : ((setting.on world.disk).engine {}).sourcePath name =
      (setting.engine options).sourcePath name := by
    rw [on_engine]
    rfl
  cases there : (setting.engine options).sourcePath name with
  | error error =>
      rw [there] at same_path
      rw [Setting.page, same_path]
      rfl
  | ok path =>
      rw [there] at same_path
      dsimp only
      rw [run_bind, run_get]
      dsimp only
      cases is_file : world.disk.isFile path with
      | false =>
          rw [Setting.page, same_path]
          change _ = if world.disk.isFile path then _ else _
          rw [is_file]
          rfl
      | true =>
          have built : (setting.on world.disk).Shows name
              (((setting.engine options).build name).run.run world).1 := by
            intro context
            rw [build_outcome coherent used options]
            exact (page_of_build same_path is_file world.now context).symm
          simp only [Bool.not_true, Bool.false_eq_true, if_false]
          split
          · next cached =>
              split
              · next program stored =>
                  obtain ⟨made, ⟨template, now, compiled, generated⟩, same, _⟩ :=
                    stored_matches coherent used (checked cached) stored
                  rw [run_pure, page_of_build same_path is_file now, compiled]
                  change program.execute context =
                    template.generate now >>= fun program => program.execute context
                  rw [generated]
                  exact execute_same same context
              · exact built context
          · exact built context

theorem render_value_shows (coherent : setting.Coherent world.disk) (used : setting.used name)
    (checked : options.isCached = true → options.checkModified = true) (value : Value) :
    (((setting.engine options).renderValue name value).run.run world).1 =
      Engine.contextOf value >>= (setting.on world.disk).page name := by
  unfold Engine.renderValue
  rw [run_bind, run_outcome]
  cases Engine.contextOf value with
  | error error => rfl
  | ok context =>
      have shows := program_shows coherent used checked context
      dsimp only
      rw [run_bind]
      rcases ran : ((setting.engine options).program name).run.run world with ⟨outcome, after⟩
      rw [ran] at shows
      cases outcome with
      | error error => exact shows
      | ok program => exact shows

theorem render_shows (coherent : setting.Coherent world.disk) (used : setting.used name)
    (checked : options.isCached = true → options.checkModified = true) (data : Datum) :
    (((setting.engine options).render name data).run.run world).1 =
      (data.toValue.mapError fun error => .context (.datum error)) >>= fun value =>
        Engine.contextOf value >>= (setting.on world.disk).page name := by
  unfold Engine.render
  rw [run_bind, run_outcome]
  cases data.toValue.mapError fun error => TemplateError.context (.datum error) with
  | error error => rfl
  | ok value => exact render_value_shows coherent used checked value

end Outcomes

section Histories

variable {setting : Setting} {engine : Engine} {engines : List Engine} {session : Session}
  {disk : Disk} {name : String} {options : Options} {now : Instant}

theorem open_at_eq_ok {created : Disk} {directory : String}
    (opens : Engine.openAt disk directory options now = (.ok engine, created)) :
    ∃ location modified, disk.entry directory = .ok (location, .folder modified) ∧
      engine = ⟨disk.pathOf location,
        ⟨Path.join (disk.pathOf location) options.artifactDirectory⟩, options⟩ ∧
      ∃ path, created = disk.make now (.createFolders path) := by
  obtain ⟨location, modified, found, same, made⟩ := Engine.open_eq_ok opens
  refine ⟨location, modified, found, same,
    Path.join (disk.pathOf location) options.artifactDirectory, ?_⟩
  rw [Disk.make, made]

/-- The first engine is one of the site, also where opening it created the folder. -/
theorem first_engine (ready : setting.Ready)
    (opens : setting.openAt disk options now = (.ok engine, setting.disk)) :
    engine = setting.engine options := by
  obtain ⟨location, since, found, rfl, path, created⟩ := open_at_eq_ok opens
  have edited : Disk.Edited [] (fun _ => True) disk setting.disk := by
    rw [created]
    exact Disk.make_edited (.createFolders path) trivial fun _ _ => trivial
  obtain ⟨modified, root_found⟩ := ready.directory
  have at_root : location = setting.root :=
    Disk.located_same edited.mount.symm (Disk.entry_eq_ok.mp root_found).1
      (Disk.entry_eq_ok.mp found).1
  have same_path : disk.pathOf location = setting.disk.pathOf setting.root := by
    rw [at_root, Disk.pathOf, Disk.pathOf, edited.mount]
  rw [same_path]
  rfl

/-- Opening again leaves the disk as it is, and gives an engine of the site if any. -/
theorem opens_again (coherent : setting.Coherent disk) (ready : setting.Ready)
    (options : Options) (now : Instant) :
    (setting.openAt disk options now).2 = disk ∧
      ∀ engine ∈ (setting.openAt disk options now).1.toOption, engine = setting.engine options := by
  obtain ⟨modified, root_found⟩ := ready.directory
  have located := (Disk.entry_eq_ok.mp root_found).1
  by_cases stands : ∃ location since, disk.entry setting.directory = .ok (location, .folder since)
  · obtain ⟨location, since, found⟩ := stands
    have at_root : location = setting.root :=
      Disk.located_same coherent.mount located (Disk.entry_eq_ok.mp found).1
    subst at_root
    rw [opens_found coherent.mount coherent.store found options now]
    exact ⟨rfl, fun engine same => (Option.some.inj same).symm⟩
  · have fails : setting.openAt disk options now =
        (.error (.directoryMissing setting.directory), disk) := by
      unfold Site.openAt Engine.openAt
      split
      · next location since found => exact absurd ⟨location, since, found⟩ stands
      · rfl
    rw [fails]
    exact ⟨rfl, fun engine opened => by cases opened⟩

/-- Coherence comes with the first engine and stays, by induction on what has happened. -/
theorem reached_coherent (ready : setting.Ready)
    (grounded : Disk.Grounded setting.folder setting.disk)
    (reached : setting.Reached engines disk) :
    setting.Coherent disk ∧ ∀ engine ∈ engines, ∃ options, engine = setting.engine options := by
  induction reached with
  | opened options now opens =>
      refine ⟨ready.coherent grounded, ?_⟩
      intro engine member
      rw [List.mem_singleton.mp member]
      exact ⟨options, first_engine ready opens⟩
  | reopened options now reached before =>
      obtain ⟨coherent, engines_of⟩ := before
      obtain ⟨same, opens⟩ := opens_again coherent ready options now
      rw [same]
      refine ⟨coherent, ?_⟩
      intro engine member
      rcases List.mem_append.mp member with new | old
      · exact ⟨options, opens engine (Option.mem_toList.mp new)⟩
      · exact engines_of engine old
  | served now request reached member before =>
      obtain ⟨coherent, engines_of⟩ := before
      refine ⟨?_, engines_of⟩
      obtain ⟨options, same_engine⟩ := engines_of _ member
      apply serve_upholds setting.toSite now request
      · rw [same_engine]
        exact Setting.Coherent.upheld ready options
      · intro again
        rw [(opens_again coherent ready again now).1]
        exact coherent
      · exact coherent
  | edited reached edits before =>
      exact ⟨before.1.edited ready edits, before.2⟩

theorem perform_outcome {Result : Type} (session : Session) (now : Instant)
    (action : Engine → Action Result) :
    (session.perform now action).1 =
      ((action session.engine).run.run { session.world with now }).1 := rfl

theorem perform_render_value_shows (coherent : setting.Coherent session.world.disk)
    (same_engine : session.engine = setting.engine options) (used : setting.used name)
    (checked : options.isCached = true → options.checkModified = true) (now : Instant)
    (value : Value) :
    (session.perform now fun engine => engine.renderValue name value).1 =
      Engine.contextOf value >>= (setting.on session.world.disk).page name := by
  have coherent_now : setting.Coherent ({ session.world with now } : World).disk := coherent
  rw [perform_outcome, same_engine]
  exact render_value_shows coherent_now used checked value

theorem perform_render_shows (coherent : setting.Coherent session.world.disk)
    (same_engine : session.engine = setting.engine options) (used : setting.used name)
    (checked : options.isCached = true → options.checkModified = true) (now : Instant)
    (data : Datum) :
    (session.perform now fun engine => engine.render name data).1 =
      (data.toValue.mapError fun error => .context (.datum error)) >>= fun value =>
        Engine.contextOf value >>= (setting.on session.world.disk).page name := by
  have coherent_now : setting.Coherent ({ session.world with now } : World).disk := coherent
  rw [perform_outcome, same_engine]
  exact render_shows coherent_now used checked data

/-- An engine that checks its sources shows a page as it comes out without stored programs,
whatever was requested and edited before, and whatever was stored in between. -/
theorem checked_page_as_uncached (ready : setting.Ready)
    (grounded : Disk.Grounded setting.folder setting.disk)
    (reached : setting.Reached engines session.world.disk) (member : session.engine ∈ engines)
    (checked : session.engine.options.checkModified = true) (used : setting.used name)
    (now later : Instant) :
    (∀ data : Datum,
      (session.perform now fun engine => engine.render name data).1 =
        (session.uncached.perform later fun engine => engine.render name data).1) ∧
      ∀ value : Value,
        (session.perform now fun engine => engine.renderValue name value).1 =
          (session.uncached.perform later fun engine => engine.renderValue name value).1 := by
  obtain ⟨coherent, engines_of⟩ := reached_coherent ready grounded reached
  obtain ⟨options, same_engine⟩ := engines_of _ member
  rw [same_engine] at checked
  have plain_engine : session.uncached.engine =
      setting.engine { options with cached := some false } := by
    rw [Session.uncached, same_engine]
    rfl
  have no_check : ({ options with cached := some false } : Options).isCached = true →
      ({ options with cached := some false } : Options).checkModified = true := nofun
  have plain_coherent : setting.Coherent session.uncached.world.disk := coherent
  constructor
  · intro data
    have page := perform_render_shows coherent same_engine used (fun _ => checked) now data
    have plain_page := perform_render_shows plain_coherent plain_engine used no_check later data
    exact page.trans plain_page.symm
  · intro value
    have page := perform_render_value_shows coherent same_engine used (fun _ => checked) now value
    have plain_page :=
      perform_render_value_shows plain_coherent plain_engine used no_check later value
    exact page.trans plain_page.symm

end Histories

section Book

def pageText : String := "\x7b% extends \"base.html\" %\x7d"

def oldBase : String := "Dear {{ who }}"

def newBase : String := "Hello {{ who }}"

def pageOver (base : String) : Except TemplateError Template := do
  let parent ← Template.assemble "base.html" (Template.readSource base) []
  Template.assemble "page.html" (Template.readSource pageText) (parent.page :: parent.ancestors)

def oldProgram : Except TemplateError Program :=
  pageOver oldBase >>= fun template => template.generate (.ofSeconds 2)

def oldContent : ByteArray := (oldProgram.toOption.map (·.encode.toUTF8)).getD .empty

def book (base : String) (modified : Instant) : Setting where
  directory := "/srv"
  artifactDirectory := ".tmp"
  disk := ⟨"/srv", [
    ([], .folder (.ofSeconds 1)),
    (["page.html"], .file pageText.toUTF8 (.ofSeconds 1)),
    (["base.html"], .file base.toUTF8 modified),
    ([".tmp"], .folder (.ofSeconds 2)),
    ([".tmp", Store.fileName "page.html"], .file oldContent (.ofSeconds 2))]⟩
  root := []
  folder := [".tmp"]
  used := fun name => name = "page.html" ∨ name = "base.html"

def oldBook : Setting := book oldBase (.ofSeconds 1)

def newBook : Setting := book newBase (.ofSeconds 3)

variable {base : String} {modified : Instant} {location : Location} {entry : Entry}

theorem book_entries (held : (location, entry) ∈ (book base modified).disk.entries) :
    location = [] ∨ location = ["page.html"] ∨ location = ["base.html"] ∨ location = [".tmp"] ∨
      location = [".tmp", Store.fileName "page.html"] ∧
        entry = .file oldContent (.ofSeconds 2) := by
  unfold book at held
  generalize Store.fileName "page.html" = file at held ⊢
  simp only [List.mem_cons, List.not_mem_nil, or_false, Prod.mk.injEq] at held
  rcases held with ⟨here, _⟩ | ⟨here, _⟩ | ⟨here, _⟩ | ⟨here, _⟩ | held
  · exact .inl here
  · exact .inr (.inl here)
  · exact .inr (.inr (.inl here))
  · exact .inr (.inr (.inr (.inl here)))
  · exact .inr (.inr (.inr (.inr held)))

theorem book_names : (Path.isAbsolute "/srv" = true ∧ Path.endsWithSlash "/srv" = false) ∧
    ∀ name ∈ ["page.html", "base.html", ".tmp"], Path.IsName name := by
  decide

theorem book_folder : (oldBook.engine {}).store.directory = "/srv/.tmp" ∧
    ¬[".tmp"] <+: Path.components "page.html" ∧ ¬[".tmp"] <+: Path.components "base.html" := by
  decide

theorem book_spelled :
    ((Disk.mk "/srv" []).checkedParts "/srv").toOption = some [] ∧
      ((Disk.mk "/srv" []).checkedParts "/srv/.tmp").toOption = some [".tmp"] ∧
      ((Disk.mk "/srv" []).checkedParts "/srv/base.html").toOption = some ["base.html"] := by
  decide

theorem book_formed : (book base modified).disk.WellFormed where
  absolute := book_names.1.1
  named := book_names.1.2
  names := by
    have names := book_names.2
    have program := Store.file_name_is_name "page.html"
    rintro ⟨location, entry⟩ held name part
    dsimp only at part
    rcases book_entries held with rfl | rfl | rfl | rfl | ⟨rfl, _⟩
    · cases part
    · exact names name (by simp_all)
    · exact names name (by simp_all)
    · exact names name (by simp_all)
    · rcases List.mem_cons.mp part with rfl | last
      · exact names ".tmp" (by simp)
      · exact List.mem_singleton.mp last ▸ program

theorem book_parts {path : String} {parts : List String}
    (spelled : ((Disk.mk "/srv" []).checkedParts path).toOption = some parts) :
    (book base modified).disk.checkedParts path = .ok parts := by
  have mount : (book base modified).disk.mount = (Disk.mk "/srv" []).mount := rfl
  rw [Disk.checked_same mount]
  exact toOption_eq_some.mp spelled

theorem book_store (base : String) (modified : Instant) :
    (oldBook.engine {}).store.Ready (book base modified).disk [".tmp"] where
  formed := book_formed
  there := by
    have located : (book base modified).disk.locate "/srv/.tmp" = .ok [".tmp"] :=
      Disk.locate_eq_ok.mpr ⟨[".tmp"], book_parts book_spelled.2.1, rfl⟩
    rw [book_folder.1]
    exact ⟨.ofSeconds 2, Disk.entry_eq_ok.mpr ⟨located, rfl⟩⟩
  short := by
    rw [book_folder.1]
    decide

theorem book_grounded : Disk.Grounded [".tmp"] (book base modified).disk := by
  intro location name entry apart found
  have single {part : String} (here : location ++ [name] = [part]) : location = [] :=
    List.append_inj_left' (here : _ = [] ++ [part]) rfl
  have top : location = [] := by
    rcases book_entries (Disk.mem_of_find? found) with here | here | here | here | ⟨here, _⟩
    · cases List.append_ne_nil_of_right_ne_nil location (List.cons_ne_nil name []) here
    · exact single here
    · exact single here
    · exact absurd (here ▸ List.prefix_rfl) apart
    · exact absurd (here ▸ List.prefix_append [".tmp"] [Store.fileName "page.html"]) apart
  exact ⟨.ofSeconds 1, by rw [top]; rfl⟩

theorem book_program {file : String}
    (held : (book base modified).disk.lookup ([".tmp"] ++ [file]) = some entry) :
    entry = .file oldContent (.ofSeconds 2) := by
  rcases book_entries (Disk.mem_of_find? held) with here | here | here | here | ⟨_, same⟩
  · cases here
  · cases (List.cons.inj here).2
  · cases (List.cons.inj here).2
  · cases (List.cons.inj here).2
  · exact same

def IsBase (base : String) : Prop :=
  (Template.readSource base).parent = none ∧
    pushesNothing (Template.assemble "base.html" (Template.readSource base) []) = true ∧
      pushesNothing (pageOver base) = true

theorem book_texts :
    (Template.readSource pageText).parent = some ("base.html", 0) ∧ IsBase oldBase ∧
      IsBase newBase ∧ oldProgram.isOk = true ∧
        Instant.read? (Instant.ofSeconds 2).toText = some (.ofSeconds 2) := by
  unfold IsBase
  decide +kernel

theorem book_loads :
    (((oldBook.engine {}).load oldBook.disk "page.html").toOption = some pageText ∧
      ((oldBook.engine {}).load oldBook.disk "base.html").toOption = some oldBase) ∧
    ((oldBook.engine {}).load newBook.disk "page.html").toOption = some pageText ∧
      ((oldBook.engine {}).load newBook.disk "base.html").toOption = some newBase := by
  decide

theorem page_over {library : Library} (page_loaded : library.load "page.html" = .ok pageText)
    (base_loaded : library.load "base.html" = .ok base)
    (alone : (Template.readSource base).parent = none) :
    Template.compile library "page.html" = pageOver base := by
  have fresh : "base.html" ∉ (Template.Trail.ofName "page.html").names := by decide
  rw [Template.compile, Template.compile_extending page_loaded book_texts.1 fresh,
    Template.compile_alone base_loaded alone, pageOver]
  generalize Template.readSource pageText = reading
  cases Template.assemble "base.html" (Template.readSource base) [] <;> rfl

theorem book_suited (is_base : IsBase base)
    (page_loaded :
      ((oldBook.engine {}).load (book base modified).disk "page.html").toOption = some pageText)
    (base_loaded :
      ((oldBook.engine {}).load (book base modified).disk "base.html").toOption = some base) :
    oldBook.Suited (book base modified).disk := by
  obtain ⟨alone, base_pushless, page_pushless⟩ := is_base
  rw [toOption_eq_some] at page_loaded base_loaded
  constructor
  · rintro name text target offset (rfl | rfl) loaded extended
    · cases page_loaded.symm.trans loaded
      rw [book_texts.1] at extended
      cases extended
      exact .inr rfl
    · cases base_loaded.symm.trans loaded
      rw [alone] at extended
      cases extended
  · rintro name program (rfl | rfl) ⟨template, now, compiled, generated⟩
    · have made : (book base modified).compile "page.html" = pageOver base :=
        page_over page_loaded base_loaded alone
      exact Program.exact_of_pushless page_pushless (made.symm.trans compiled) generated
    · have made : (book base modified).compile "base.html" =
          Template.assemble "base.html" (Template.readSource base) [] :=
        Template.compile_alone base_loaded alone
      exact Program.exact_of_pushless base_pushless (made.symm.trans compiled) generated

theorem old_suited : oldBook.Suited oldBook.disk :=
  book_suited book_texts.2.1 book_loads.1.1 book_loads.1.2

theorem new_suited : oldBook.Suited newBook.disk :=
  book_suited book_texts.2.2.1 book_loads.2.1 book_loads.2.2

theorem old_program_made : ∃ program, oldBook.Makes "page.html" program ∧
    program.compiledAt = .ofSeconds 2 ∧ oldContent = program.encode.toUTF8 := by
  obtain ⟨_, ⟨alone, _⟩, _, works, _⟩ := book_texts
  obtain ⟨⟨page_loaded, base_loaded⟩, _⟩ := book_loads
  obtain ⟨program, made⟩ := exists_ok_of_isOk works
  have content : oldContent = program.encode.toUTF8 := by
    rw [oldContent, made]
    rfl
  obtain ⟨template, assembled, generated⟩ := bind_eq_ok.mp made
  have compiled : oldBook.compile "page.html" = pageOver oldBase :=
    page_over (toOption_eq_some.mp page_loaded) (toOption_eq_some.mp base_loaded) alone
  exact ⟨program, ⟨template, .ofSeconds 2, compiled.trans assembled, generated⟩,
    (generate_eq_ok generated).2.2.1, content⟩

theorem old_late : oldBook.Late oldBook.disk (.ofSeconds 3) := by
  intro name program used loaded
  obtain ⟨made, _, time, content⟩ := old_program_made
  have store : (oldBook.engine {}).store.Ready oldBook.disk [".tmp"] :=
    book_store oldBase (.ofSeconds 1)
  rw [Store.load_eq store] at loaded
  split at loaded
  · next found modified held =>
      rw [(Entry.file.inj (book_program held)).1, content] at loaded
      obtain ⟨decodes, _⟩ := Store.decode_eq_some.mp loaded
      obtain ⟨_, _, read⟩ := Program.heading_of_encode decodes
      obtain ⟨_, _, _, _, exact_time⟩ := book_texts
      rw [time, exact_time] at read
      rw [← Option.some.inj read]
      decide
  · cases loaded

theorem old_found : oldBook.disk.entry "/srv" = .ok ([], .folder (.ofSeconds 1)) := by
  have located : oldBook.disk.locate "/srv" = .ok [] :=
    Disk.locate_eq_ok.mpr ⟨[], book_parts book_spelled.1, rfl⟩
  exact Disk.entry_eq_ok.mpr ⟨located, rfl⟩

theorem old_ready : oldBook.Ready where
  store := book_store oldBase (.ofSeconds 1)
  directory := ⟨.ofSeconds 1, old_found⟩
  apart := by
    rintro name (rfl | rfl) _
    · exact book_folder.2.1
    · exact book_folder.2.2
  closed := old_suited.closed
  free := by
    intro name used modified held
    exact Entry.noConfusion (book_program held)
  stored := by
    intro name used content modified held
    obtain ⟨program, makes, _, same⟩ := old_program_made
    rw [(Entry.file.inj (book_program held)).1, same]
    rcases used with rfl | rfl
    · exact .inr ⟨program, makes, rfl⟩
    · left
      cases read : Store.decode? "base.html" program.encode.toUTF8 with
      | none => rfl
      | some other =>
          obtain ⟨decodes, carries⟩ := Store.decode_eq_some.mp read
          have named := (Program.heading_of_encode decodes).1
          rw [carries, made_name makes] at named
          exact absurd named (by decide)
  floats := old_suited.floats

theorem base_rewritten :
    oldBook.disk.make (.ofSeconds 3) (.write "/srv/base.html" newBase.toUTF8 (.ofSeconds 3)) =
      newBook.disk := by
  have checked : oldBook.disk.checkedParts "/srv/base.html" = .ok ["base.html"] :=
    book_parts book_spelled.2.2
  have written : oldBook.disk.write "/srv/base.html" newBase.toUTF8 (.ofSeconds 3)
      (.ofSeconds 3) = .ok newBook.disk := by
    rw [Disk.write, checked]
    rfl
  rw [Disk.make, written]
  rfl

theorem base_edited : oldBook.Edited oldBook.disk newBook.disk := by
  rw [← base_rewritten]
  apply edited_of_change _ old_late
  · rintro date ⟨⟩
    exact old_late
  · intro location inside
    have elsewhere : location ≠ ["base.html"] := by
      rintro rfl
      exact absurd inside (by decide)
    have set : newBook.disk =
        oldBook.disk.set ["base.html"] (.file newBase.toUTF8 (.ofSeconds 3)) := rfl
    rw [base_rewritten, set, Disk.lookup_set_of_ne elsewhere]
  · rw [base_rewritten]
    exact (book_store newBase (.ofSeconds 3)).there
  · rw [base_rewritten]
    exact new_suited

def newSession : Session where
  engine := oldBook.engine { cached := some true, checkModified := true }
  world := ⟨newBook.disk, 0, .ofSeconds 4⟩

theorem new_page_shown :
    (∀ data : Datum,
      (newSession.perform (.ofSeconds 5) fun engine => engine.render "page.html" data).1 =
        (newSession.uncached.perform (.ofSeconds 6)
          fun engine => engine.render "page.html" data).1) ∧
      ∀ value : Value,
        (newSession.perform (.ofSeconds 5)
            fun engine => engine.renderValue "page.html" value).1 =
          (newSession.uncached.perform (.ofSeconds 6)
            fun engine => engine.renderValue "page.html" value).1 := by
  have opens := opens_found rfl old_ready.store old_found
    { cached := some true, checkModified := true } (.ofSeconds 2)
  have reached : oldBook.Reached [newSession.engine] newSession.world.disk :=
    .edited (.opened { cached := some true, checkModified := true } (.ofSeconds 2) opens)
      base_edited
  exact checked_page_as_uncached old_ready book_grounded reached List.mem_cons_self rfl
    (.inl rfl) (.ofSeconds 5) (.ofSeconds 6)

end Book

end Letterpress
