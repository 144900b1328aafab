import Letterpress.Proofs.Engine.Setting

/-!
What an engine does over a sound disk. Every action keeps the disk sound, whether or not
it fails; and the program of a template shows the page that the files make, wherever the
program was taken from.
-/

namespace Letterpress

open Files

namespace Setting

variable (setting : Setting)

/-- An action that keeps the disk sound, and what its outcome is like there. -/
def Gives {Result : Type} (action : Action Result)
    (good : Except TemplateError Result → Prop) : Prop :=
  ∀ world, setting.Sound world.disk →
    good (action.run.run world).1 ∧ setting.Sound (action.run.run world).2.disk

def Visits (names : List String) : Prop :=
  (∀ name ∈ names, Engine.isHidden name = false) ∧
    ∀ front, front <+: names → (setting.engine {}).isStoreFolder front = false

/-- The walk leaves out the folder of the store, and all files that it comes to are used. -/
structure Walkable : Prop where
  apart : ∀ names, setting.Visits names → ¬setting.folder <+: setting.root ++ names
  used : ∀ names, setting.Visits names → ∀ content modified,
    (setting.root ++ names, .file content modified) ∈ setting.disk.entries →
      setting.used ("/".intercalate names)

def Shows (name : String) (outcome : Except TemplateError Program) : Prop :=
  ∀ context, (outcome >>= fun program => program.execute context) = setting.page name context

end Setting

section Actions

variable {setting : Setting} {Result Next : Type} {name : String}

namespace Setting.Gives

theorem mono {action : Action Result} {good better : Except TemplateError Result → Prop}
    (gives : setting.Gives action better) (weaker : ∀ outcome, better outcome → good outcome) :
    setting.Gives action good := by
  intro world sound
  have ⟨outcome_better, after_sound⟩ := gives world sound
  exact ⟨weaker _ outcome_better, after_sound⟩

theorem bind {first : Action Result} {next : Result → Action Next}
    {good : Except TemplateError Result → Prop} {better : Except TemplateError Next → Prop}
    (first_gives : setting.Gives first good)
    (next_gives : ∀ result, good (.ok result) → setting.Gives (next result) better)
    (failed : ∀ error, good (.error error) → better (.error error)) :
    setting.Gives (first >>= next) better := by
  intro world sound
  rw [run_bind]
  obtain ⟨outcome_good, after_sound⟩ := first_gives world sound
  rcases ran : first.run.run world with ⟨outcome, after⟩
  rw [ran] at outcome_good after_sound
  cases outcome with
  | ok result => exact next_gives result outcome_good after after_sound
  | error error => exact ⟨failed error outcome_good, after_sound⟩

theorem of_outcome (outcome : Except TemplateError Result) :
    setting.Gives (ExceptT.mk (pure outcome)) fun given => given = outcome := by
  intro world sound
  rw [run_outcome]
  exact ⟨rfl, sound⟩

theorem of_pure (result : Result) :
    setting.Gives (pure result) fun given => given = .ok result := by
  intro world sound
  rw [run_pure]
  exact ⟨rfl, sound⟩

theorem of_throw (error : TemplateError) :
    setting.Gives (throw error : Action Result) fun given => given = .error error := by
  intro world sound
  rw [run_throw]
  exact ⟨rfl, sound⟩

theorem of_set {after : World} (sound : setting.Sound after.disk) :
    setting.Gives (set after) fun given => given = .ok ⟨⟩ := by
  intro world _
  rw [run_set]
  exact ⟨rfl, sound⟩

theorem of_look {next : World → Action Next} {good : Except TemplateError Next → Prop}
    (next_gives : ∀ world, setting.Sound world.disk → setting.Gives (next world) good) :
    setting.Gives (get >>= next) good := by
  intro world sound
  rw [run_bind, run_get]
  exact next_gives world sound world sound

end Setting.Gives

/-- Programs that were generated at different times show the same. -/
theorem execute_generated (template : Template) (now later : Instant) (context : Value) :
    (template.generate now >>= fun program => program.execute context) =
      template.generate later >>= fun program => program.execute context := by
  unfold Template.generate
  cases emitOwnedAt 0 template.resolve <;> rfl

theorem page_of_build {path : String}
    (there : (setting.engine {}).sourcePath name = .ok path)
    (is_file : setting.disk.isFile path = true) (now : Instant) (context : Value) :
    setting.page name context =
      (setting.compile name >>= fun template => template.generate now) >>=
        fun program => program.execute context := by
  rw [Setting.page, there]
  change (if setting.disk.isFile path then _ else _) = _
  rw [if_pos is_file]
  cases setting.compile name with
  | error error => rfl
  | ok template => exact execute_generated template (.ofSeconds 0) now context

theorem build_gives (ready : setting.Ready) (used : setting.used name) (options : Options) :
    setting.Gives ((setting.engine options).build name) fun outcome =>
      ∃ now, outcome = setting.compile name >>= fun template => template.generate now := by
  intro world sound
  have same : (setting.engine options).make name world.disk world.now =
      setting.compile name >>= fun template => template.generate world.now := by
    rw [Engine.make, sound.compile_same ready options used]
  rw [Engine.build_run, same]
  cases made : setting.compile name >>= fun template => template.generate world.now with
  | error error => exact ⟨⟨world.now, made.symm⟩, sound⟩
  | ok program =>
      obtain ⟨template, compiled, generated⟩ := bind_eq_ok.mp made
      have makes : setting.Makes name program := ⟨template, world.now, compiled, generated⟩
      obtain ⟨after, saved, after_sound⟩ := sound.saved ready used makes world.now
      have saved_here : (setting.engine options).store.save world.disk program world.now =
          (.ok (), after) := saved
      dsimp only
      rw [saved_here]
      exact ⟨⟨world.now, made.symm⟩, after_sound⟩

theorem Setting.Sound.is_file_same {disk : Disk} {path : String} (sound : setting.Sound disk)
    (ready : setting.Ready) (used : setting.used name)
    (there : (setting.engine {}).sourcePath name = .ok path) :
    disk.isFile path = setting.disk.isFile path := by
  rw [Disk.isFile, Disk.isFile, sound.agree ready name path used there]

theorem stored_shows {disk : Disk} {program : Program} {path : String} {options : Options}
    (sound : setting.Sound disk) (used : setting.used name)
    (there : (setting.engine {}).sourcePath name = .ok path)
    (is_file : setting.disk.isFile path = true)
    (stored : (setting.engine options).stored? disk name = some program) :
    setting.Shows name (.ok program) := by
  have loaded : (setting.engine {}).store.load? disk name = some program :=
    (Engine.stored_eq_some.mp stored).1
  obtain ⟨made, ⟨template, now, compiled, generated⟩, same⟩ :=
    sound.stored name program used loaded
  intro context
  rw [page_of_build there is_file now, compiled]
  change program.execute context =
    template.generate now >>= fun program => program.execute context
  rw [generated]
  exact execute_same same context

theorem program_gives (ready : setting.Ready) (used : setting.used name) (options : Options) :
    setting.Gives ((setting.engine options).program name) (setting.Shows name) := by
  unfold Engine.program
  apply Setting.Gives.bind (Setting.Gives.of_outcome ((setting.engine {}).sourcePath name))
  · intro path there
    apply Setting.Gives.of_look
    intro world sound
    have is_file_same := sound.is_file_same ready used there.symm
    rw [is_file_same]
    cases is_file : setting.disk.isFile path with
    | false =>
        apply Setting.Gives.bind (Setting.Gives.of_throw (.notFound name))
        · intro _ impossible
          cases impossible
        · intro error failed
          cases failed
          intro context
          rw [Setting.page, ← there]
          change Except.error _ = if setting.disk.isFile path then _ else _
          rw [is_file]
          rfl
    | true =>
        have built : setting.Gives ((setting.engine options).build name) (setting.Shows name) := by
          apply (build_gives ready used options).mono
          rintro outcome ⟨now, rfl⟩ context
          exact (page_of_build there.symm is_file now context).symm
        simp only [Bool.not_true, Bool.false_eq_true, if_false]
        split
        · split
          · next program stored =>
              apply (Setting.Gives.of_pure program).mono
              rintro outcome rfl
              exact stored_shows sound used there.symm is_file stored
          · exact built
        · exact built
  · intro error failed context
    rw [Setting.page, ← failed]
    rfl

/-- Rendering shows the page that the files make, whatever is stored. -/
theorem render_value_gives (ready : setting.Ready) (used : setting.used name)
    (options : Options) (value : Value) :
    setting.Gives ((setting.engine options).renderValue name value) fun outcome =>
      outcome = Engine.contextOf value >>= setting.page name := by
  unfold Engine.renderValue
  apply Setting.Gives.bind (Setting.Gives.of_outcome (Engine.contextOf value))
  · intro context made
    rw [← made]
    apply Setting.Gives.bind (program_gives ready used options)
    · intro program shows
      apply (Setting.Gives.of_outcome (program.execute context)).mono
      rintro outcome rfl
      exact shows context
    · intro error shows
      exact shows context
  · intro error failed
    rw [← failed]
    rfl

theorem render_gives (ready : setting.Ready) (used : setting.used name) (options : Options)
    (data : Datum) :
    setting.Gives ((setting.engine options).render name data) fun outcome =>
      outcome = (data.toValue.mapError fun error => .context (.datum error)) >>= fun value =>
        Engine.contextOf value >>= setting.page name := by
  unfold Engine.render
  apply Setting.Gives.bind (Setting.Gives.of_outcome _)
  · intro value made
    rw [← made]
    exact render_value_gives ready used options value
  · intro error failed
    rw [← failed]
    rfl

def Setting.Meets (setting : Setting) (names : List String) (entry : Entry) : Prop :=
  setting.Visits names ∧ (setting.root ++ names, entry) ∈ setting.disk.entries

theorem Setting.Meets.child {names : List String} {entry : Entry} {disk : Disk}
    {children : List (String × Entry)} {child : String × Entry} {options : Options}
    (meets : setting.Meets names entry) (ready : setting.Ready) (walkable : setting.Walkable)
    (sound : setting.Sound disk)
    (listed : disk.list (names.foldl Path.join (setting.engine options).directory) = .ok children)
    (member : child ∈ children) (shown : Engine.isHidden child.1 = false)
    (no_store : (setting.engine {}).isStoreFolder (names ++ [child.1]) = false) :
    setting.Meets (names ++ [child.1]) child.2 := by
  obtain ⟨⟨all_shown, all_open⟩, here⟩ := meets
  have visits : setting.Visits (names ++ [child.1]) := by
    constructor
    · intro name inside
      rcases List.mem_append.mp inside with front | last
      · exact all_shown name front
      · rw [List.mem_singleton.mp last]
        exact shown
    · intro front before
      rcases List.prefix_concat_iff.mp before with same | above
      · rw [same]
        exact no_store
      · exact all_open front above
  have same_path : names.foldl Path.join (setting.engine options).directory =
      disk.pathOf (setting.root ++ names) := by
    rw [Disk.pathOf, List.foldl_append, sound.changed.mount]
    rfl
  rw [same_path] at listed
  obtain ⟨location, located, rfl⟩ := Disk.list_eq_ok listed
  have formed := (sound.store_ready ready).formed
  have all_names := ready.store.formed.names _ here
  have located_here := Disk.located_path_of formed.toMounted all_names located
  subst located_here
  have held := Disk.mem_of_children member
  rw [List.append_assoc] at held
  exact ⟨visits, sound.changed.mem (walkable.apart _ visits) held⟩

theorem build_file_gives (ready : setting.Ready) (walkable : setting.Walkable)
    (options : Options) {names : List String} {content : ByteArray} {modified : Instant}
    (meets : setting.Meets names (.file content modified)) :
    setting.Gives (do
      let _ ← (setting.engine options).build ("/".intercalate names)
      return 1) fun (_ : Except TemplateError Nat) => True := by
  have used := walkable.used names meets.1 content modified meets.2
  apply Setting.Gives.bind (build_gives ready used options)
  · exact fun _ _ => (Setting.Gives.of_pure 1).mono fun _ _ => trivial
  · exact fun _ _ => trivial

theorem build_entries_gives {options : Options} {fuel : Nat} {names : List String}
    {children : List (String × Entry)}
    (each : ∀ child ∈ children, setting.Gives
      ((setting.engine options).buildEntry fuel (names ++ [child.1]) child.2) fun _ => True) :
    setting.Gives ((setting.engine options).buildEntries fuel names children) fun _ => True := by
  induction children with
  | nil =>
      unfold Engine.buildEntries
      exact (Setting.Gives.of_pure 0).mono fun _ _ => trivial
  | cons child rest later =>
      unfold Engine.buildEntries
      apply Setting.Gives.bind (each child (by simp))
      · intro first _
        apply Setting.Gives.bind (later fun other member => each other (by simp [member]))
        · exact fun others _ => (Setting.Gives.of_pure _).mono fun _ _ => trivial
        · exact fun _ _ => trivial
      · exact fun _ _ => trivial

/-- The walk keeps the disk sound, by induction on how deep folders may nest. -/
theorem build_entry_gives (ready : setting.Ready) (walkable : setting.Walkable)
    (options : Options) (fuel : Nat) {names : List String} {entry : Entry}
    (meets : setting.Meets names entry) :
    setting.Gives ((setting.engine options).buildEntry fuel names entry) fun _ => True := by
  induction fuel generalizing names entry with
  | zero =>
      cases entry with
      | file content modified =>
          unfold Engine.buildEntry
          exact build_file_gives ready walkable options meets
      | folder modified =>
          unfold Engine.buildEntry
          exact (Setting.Gives.of_pure 0).mono fun _ _ => trivial
  | succ fuel deeper =>
      cases entry with
      | file content modified =>
          unfold Engine.buildEntry
          exact build_file_gives ready walkable options meets
      | folder modified =>
          unfold Engine.buildEntry
          apply Setting.Gives.of_look
          intro world sound
          split
          · exact (Setting.Gives.of_throw _).mono fun _ _ => trivial
          · next children listed =>
              apply build_entries_gives
              intro child member
              obtain ⟨inside, visible⟩ := List.mem_filter.mp member
              obtain ⟨shown, no_store⟩ := Bool.and_eq_true_iff.mp visible
              apply deeper
              exact meets.child ready walkable sound listed inside
                ((Bool.not_eq_true' _).mp shown) ((Bool.not_eq_true' _).mp no_store)

theorem precompile_all_gives (ready : setting.Ready) (walkable : setting.Walkable)
    (options : Options) : setting.Gives (setting.engine options).precompileAll fun _ => True := by
  unfold Engine.precompileAll
  apply Setting.Gives.of_look
  intro world sound
  dsimp only
  split
  · exact (Setting.Gives.of_throw _).mono fun _ _ => trivial
  · next location entry found =>
      split
      · exact (Setting.Gives.of_pure 0).mono fun _ _ => trivial
      · next no_store =>
          obtain ⟨located, held⟩ := Disk.entry_eq_ok.mp found
          have formed := (sound.store_ready ready).formed
          have same_path : (setting.engine options).directory = world.disk.pathOf setting.root := by
            rw [Disk.pathOf, sound.changed.mount]
            rfl
          rw [same_path] at located
          have at_root := Disk.located_path_of formed.toMounted (root_names ready) located
          subst at_root
          have visits : setting.Visits [] := by
            refine ⟨by simp, ?_⟩
            intro front before
            rw [List.prefix_nil.mp before]
            exact Bool.eq_false_iff.mpr no_store
          have apart := walkable.apart [] visits
          rw [List.append_nil] at apart
          apply build_entry_gives ready walkable options
          refine ⟨visits, ?_⟩
          rw [List.append_nil]
          exact sound.changed.mem apart (Disk.mem_of_find? held)

theorem invalidate_gives (ready : setting.Ready) (options : Options) (name : String) :
    setting.Gives ((setting.engine options).invalidate name) fun _ => True := by
  unfold Engine.invalidate
  apply Setting.Gives.of_look
  intro world sound
  apply Setting.Gives.bind (Setting.Gives.of_outcome _)
  · rintro ⟨removed, after⟩ done
    have shrunk := Store.remove_shrinks (sound.store_ready ready) done.symm
    apply Setting.Gives.bind (Setting.Gives.of_set (sound.shrunk ready shrunk))
    · exact fun _ _ => (Setting.Gives.of_pure removed).mono fun _ _ => trivial
    · exact fun _ _ => trivial
  · exact fun _ _ => trivial

theorem clear_gives (ready : setting.Ready) (options : Options) :
    setting.Gives (setting.engine options).clear fun _ => True := by
  unfold Engine.clear
  apply Setting.Gives.of_look
  intro world sound
  have shrunk := Store.clear_shrinks (sound.store_ready ready) world.now
  apply Setting.Gives.bind (Setting.Gives.of_set (sound.shrunk ready shrunk))
  · exact fun _ _ => (Setting.Gives.of_outcome _).mono fun _ _ => trivial
  · exact fun _ _ => trivial

end Actions

end Letterpress
