import Letterpress.Proofs.Engine.Actions

/-!
Stored programs do not show. Whatever a session has done before, and whatever was in its
artifact directory when it began, a page comes out as an engine without a store makes it
from the files. One request keeps the disk sound, and so do all of them one after another.
-/

namespace Letterpress

open Files

namespace Setting

variable (setting : Setting)

def Covers : Request → Prop
  | .render name _ | .renderValue name _ => setting.used name
  | .precompileAll => setting.Walkable
  | .reopen _ | .invalidate _ | .clear => True

structure Serves (session : Session) : Prop where
  engine : ∃ options, session.engine = setting.engine options
  sound : setting.Sound session.world.disk

end Setting

section Sessions

variable {setting : Setting} {session : Session} {name : String}

theorem opened (ready : setting.Ready) {disk : Disk} (sound : setting.Sound disk)
    (options : Options) (now : Instant) :
    setting.openAt disk options now = (.ok (setting.engine options), disk) := by
  obtain ⟨modified, found⟩ := ready.directory
  obtain ⟨_, since, found_now⟩ :=
    Disk.entry_kept found sound.changed.mount sound.changed.folders
  exact opens_found sound.changed.mount (sound.store_ready ready) found_now options now

theorem started (ready : setting.Ready) (options : Options) (now : Instant) :
    ∃ session, Session.start setting.toSite setting.disk options now = .ok session ∧
      setting.Serves session := by
  have opens := opened ready ready.sound options now
  refine ⟨⟨setting.engine options, setting.disk, 0, now⟩, ?_, ⟨options, rfl⟩, ready.sound⟩
  rw [Session.start, opens]

theorem performed {Result : Type} (action : Engine → Action Result)
    {good : Except TemplateError Result → Prop} (serves : setting.Serves session)
    (gives : ∀ options, setting.Gives (action (setting.engine options)) good) (now : Instant) :
    good (session.perform now action).1 ∧ setting.Serves (session.perform now action).2 := by
  obtain ⟨options, same⟩ := serves.engine
  have given := gives options { session.world with now } serves.sound
  rw [← same] at given
  exact ⟨given.1, ⟨options, same⟩, given.2⟩

theorem serve_keeps (ready : setting.Ready) (serves : setting.Serves session) (now : Instant)
    (request : Request) (covered : setting.Covers request) :
    setting.Serves (session.serve setting.toSite now request) := by
  cases request with
  | reopen options =>
      rw [Session.serve, opened ready serves.sound options now]
      exact ⟨⟨options, rfl⟩, serves.sound⟩
  | render name data =>
      have gives := fun options => render_gives ready covered options data
      exact (performed (·.render name data) serves gives now).2
  | renderValue name value =>
      have gives := fun options => render_value_gives ready covered options value
      exact (performed (·.renderValue name value) serves gives now).2
  | precompileAll =>
      have gives := precompile_all_gives ready covered
      exact (performed (·.precompileAll) serves gives now).2
  | invalidate name =>
      have gives := fun options => invalidate_gives ready options name
      exact (performed (·.invalidate name) serves gives now).2
  | clear =>
      have gives := clear_gives ready
      exact (performed (·.clear) serves gives now).2

theorem serve_all_keeps (ready : setting.Ready) (serves : setting.Serves session)
    (steps : List (Instant × Request)) (covered : ∀ step ∈ steps, setting.Covers step.2) :
    setting.Serves (session.serveAll setting.toSite steps) := by
  induction steps generalizing session with
  | nil => exact serves
  | cons step rest later =>
      obtain ⟨now, request⟩ := step
      have first := serve_keeps ready serves now request (covered _ List.mem_cons_self)
      exact later first fun other member => covered other (List.mem_cons_of_mem _ member)

/-- The store is transparent: after any requests, a page comes out as it does at once from
an engine that never uses a stored program. -/
theorem render_as_uncached (ready : setting.Ready) (options : Options) (began : Instant)
    (steps : List (Instant × Request)) (covered : ∀ step ∈ steps, setting.Covers step.2)
    (used : setting.used name) (now : Instant) (plain : Options) (plain_began plain_now : Instant) :
    ∃ session fresh,
      Session.start setting.toSite setting.disk options began = .ok session ∧
      Session.start setting.toSite setting.disk { plain with cached := some false } plain_began =
        .ok fresh ∧
      (∀ data : Datum,
        ((session.serveAll setting.toSite steps).perform now
            fun engine => engine.render name data).1 =
          (fresh.perform plain_now fun engine => engine.render name data).1) ∧
      ∀ value : Value,
        ((session.serveAll setting.toSite steps).perform now
            fun engine => engine.renderValue name value).1 =
          (fresh.perform plain_now fun engine => engine.renderValue name value).1 := by
  obtain ⟨session, starts, serves⟩ := started ready options began
  obtain ⟨fresh, fresh_starts, fresh_serves⟩ :=
    started ready { plain with cached := some false } plain_began
  have serves_on := serve_all_keeps ready serves steps covered
  refine ⟨session, fresh, starts, fresh_starts, ?_, ?_⟩
  · intro data
    have gives := fun options => render_gives ready used options data
    have page := (performed (·.render name data) serves_on gives now).1
    have fresh_page := (performed (·.render name data) fresh_serves gives plain_now).1
    exact page.trans fresh_page.symm
  · intro value
    have gives := fun options => render_value_gives ready used options value
    have page := (performed (·.renderValue name value) serves_on gives now).1
    have fresh_page := (performed (·.renderValue name value) fresh_serves gives plain_now).1
    exact page.trans fresh_page.symm

end Sessions

/-- One letter, and a spoiled file where its program would be. -/
def letters : Setting where
  directory := "/srv"
  artifactDirectory := ".tmp"
  disk := ⟨"/srv", [
    ([], .folder (.ofSeconds 0)),
    (["letter.html"], .file "Dear {{ name }}".toUTF8 (.ofSeconds 0)),
    ([".tmp"], .folder (.ofSeconds 0)),
    ([".tmp", Store.fileName "letter.html"], .file "{}".toUTF8 (.ofSeconds 0))]⟩
  root := []
  folder := [".tmp"]
  used := (· = "letter.html")

theorem letters_names : (Path.isAbsolute "/srv" = true ∧ Path.endsWithSlash "/srv" = false) ∧
    ∀ name ∈ ["letter.html", ".tmp"], Path.IsName name := by
  decide

theorem letters_formed : letters.disk.WellFormed where
  absolute := letters_names.1.1
  named := letters_names.1.2
  names := by
    have names := letters_names.2
    have program := Store.file_name_is_name "letter.html"
    intro entry member name part
    unfold letters at member
    generalize Store.fileName "letter.html" = file at program member
    simp only [List.mem_cons, List.not_mem_nil, or_false] at member
    rcases member with rfl | rfl | rfl | rfl
    · cases part
    · exact names name (by simp_all)
    · exact names name (by simp_all)
    · rcases List.mem_cons.mp part with rfl | last
      · exact names ".tmp" (by simp)
      · exact List.mem_singleton.mp last ▸ program

theorem letters_folders : (letters.disk.locate "/srv").toOption = some [] ∧
    (letters.disk.locate (letters.engine {}).store.directory).toOption = some [".tmp"] ∧
      (letters.engine {}).store.directory.utf8ByteSize + 70 < Disk.pathLimit ∧
        ¬[".tmp"] <+: Path.components "letter.html" := by
  decide

theorem letters_store : (letters.engine {}).store.Ready letters.disk letters.folder where
  formed := letters_formed
  there := by
    have located := toOption_eq_some.mp letters_folders.2.1
    exact ⟨.ofSeconds 0, Disk.entry_eq_ok.mpr ⟨located, rfl⟩⟩
  short := letters_folders.2.2.1

theorem letters_overwritten (content : ByteArray) (modified : Instant) :
    Disk.ChangedIn [] letters.disk
      (letters.disk.set ["letter.html"] (.file content modified)) := by
  apply Disk.ChangedIn.set List.nil_prefix
  · exact List.forall_mem_singleton.mpr (letters_names.2 "letter.html" (by simp))
  · rintro ⟨since, folder⟩
    cases folder

theorem letter_read :
    ((letters.engine {}).load letters.disk "letter.html").toOption = some "Dear {{ name }}" ∧
      (Template.readSource "Dear {{ name }}").parent = none ∧
      pushesNothing
        (Template.assemble "letter.html" (Template.readSource "Dear {{ name }}") []) = true ∧
      (Store.decode? "letter.html" "{}".toUTF8).isNone = true := by
  decide +kernel

theorem letters_ready : letters.Ready where
  store := letters_store
  directory := by
    have located := toOption_eq_some.mp letters_folders.1
    exact ⟨.ofSeconds 0, Disk.entry_eq_ok.mpr ⟨located, rfl⟩⟩
  apart := by
    rintro name rfl _
    exact letters_folders.2.2.2
  closed := by
    rintro name text target offset rfl loaded extended
    cases (toOption_eq_some.mp letter_read.1).symm.trans loaded
    rw [letter_read.2.1] at extended
    cases extended
  free := by
    rintro name rfl modified
    unfold letters
    generalize Store.fileName "letter.html" = file
    simp [Disk.lookup, Disk.find?]
  stored := by
    rintro name rfl content modified held
    have content_spoiled : content = "{}".toUTF8 := by
      unfold letters at held
      generalize Store.fileName "letter.html" = file at held
      simp only [Disk.lookup, Disk.find?] at held
      simp at held
      exact held.1.symm
    rw [content_spoiled]
    exact .inl (Option.isNone_iff_eq_none.mp letter_read.2.2.2)
  floats := by
    rintro name program rfl ⟨template, now, compiled, generated⟩
    obtain ⟨loaded, alone, pushless, _⟩ := letter_read
    have assembled : letters.compile "letter.html" =
        Template.assemble "letter.html" (Template.readSource "Dear {{ name }}") [] :=
      Template.compile_alone (toOption_eq_some.mp loaded) alone
    exact Program.exact_of_pushless pushless (assembled.symm.trans compiled) generated

theorem letters_walk : Engine.isHidden ".tmp" = true ∧
    "/".intercalate ["letter.html"] = "letter.html" := by
  decide

theorem letters_walkable : letters.Walkable where
  apart := by
    rintro names ⟨shown, _⟩ ⟨rest, same⟩
    have below : names = ".tmp" :: rest := same.symm
    have hidden := shown ".tmp" (by simp [below])
    rw [letters_walk.1] at hidden
    cases hidden
  used := by
    rintro names ⟨shown, _⟩ content modified held
    have held_here : (names, Entry.file content modified) ∈ letters.disk.entries := held
    unfold letters at held_here
    generalize Store.fileName "letter.html" = file at held_here
    simp only [List.mem_cons, Prod.mk.injEq, reduceCtorEq, and_false, List.not_mem_nil, or_false,
      false_or] at held_here
    rcases held_here with ⟨rfl, _⟩ | ⟨rfl, _⟩
    · exact letters_walk.2
    · have hidden := shown ".tmp" (by simp)
      rw [letters_walk.1] at hidden
      cases hidden

def letterSteps : List (Instant × Request) :=
  [(.ofSeconds 2, .renderValue "letter.html" (.map [("name", .str "Ada")])),
    (.ofSeconds 3, .reopen { environment := .production, checkModified := true }),
    (.ofSeconds 4, .precompileAll),
    (.ofSeconds 5, .renderValue "letter.html" .null),
    (.ofSeconds 6, .invalidate "letter.html"),
    (.ofSeconds 7, .clear)]

theorem letters_shown :
    ∃ session fresh,
      Session.start letters.toSite letters.disk { cached := some true } (.ofSeconds 1) =
        .ok session ∧
      Session.start letters.toSite letters.disk { cached := some false } (.ofSeconds 8) =
        .ok fresh ∧
      (∀ data : Datum,
        ((session.serveAll letters.toSite letterSteps).perform (.ofSeconds 9)
            fun engine => engine.render "letter.html" data).1 =
          (fresh.perform (.ofSeconds 9) fun engine => engine.render "letter.html" data).1) ∧
      ∀ value : Value,
        ((session.serveAll letters.toSite letterSteps).perform (.ofSeconds 9)
            fun engine => engine.renderValue "letter.html" value).1 =
          (fresh.perform (.ofSeconds 9)
            fun engine => engine.renderValue "letter.html" value).1 := by
  have covered : ∀ step ∈ letterSteps, letters.Covers step.2 := by
    intro step member
    simp only [letterSteps, List.mem_cons, List.not_mem_nil, or_false] at member
    rcases member with rfl | rfl | rfl | rfl | rfl | rfl
    · exact rfl
    · trivial
    · exact letters_walkable
    · exact rfl
    · trivial
    · trivial
  exact render_as_uncached letters_ready { cached := some true } (.ofSeconds 1) letterSteps covered
    rfl (.ofSeconds 9) {} (.ofSeconds 8) (.ofSeconds 9)

end Letterpress
