import Letterpress.Proofs.Files.Edits

/-!
Which files an operation may take. All other files stay as they are and where they are, the
folders above them stay folders, and so their paths lead to them as before. Creating folders
takes no file, and after it went well its path leads to a folder.
-/

namespace Letterpress.Files.Disk

/-- Files that stand below folders stay as they are, but for those at places that may be
taken. Folders stay folders. -/
structure Spared (taken : Location → Prop) (before after : Disk) : Prop where
  kept : ChangedIn [] before after
  files : ∀ {place content modified}, before.Held place →
    before.lookup place = some (.file content modified) → ¬taken place →
      after.lookup place = some (.file content modified)

section Ways

variable {disk other : Disk} {here location : Location} {parts : List String}

/-- What folders lead to they lead to wherever they are all kept. -/
theorem Held.kept (held : disk.Held location)
    (kept : ∀ {place}, disk.FolderPath place → other.FolderPath place) : other.Held location := by
  intro front before different
  have path : disk.FolderPath front := by
    intro shorter above
    refine held shorter (above.trans before) ?_
    rintro rfl
    exact different (before.eq_of_length (Nat.le_antisymm before.length_le above.length_le))
  exact kept path front List.prefix_rfl

theorem follow_held (kept : ∀ {place}, disk.FolderPath place → other.FolderPath place)
    (held : disk.Held here) (followed : disk.follow here parts = .ok location) :
    other.follow here parts = .ok location := by
  induction parts generalizing here with
  | nil => exact followed
  | cons part rest later =>
      obtain ⟨modified, next, found, leads, followed⟩ := follow_cons_eq_ok.mp followed
      have path : disk.FolderPath here := by
        intro front before
        by_cases last : front = here
        · exact ⟨modified, last ▸ found⟩
        · exact held front before last
      have next_held : disk.Held next := by
        cases leads with
        | stay => exact held
        | up => exact held.above (List.dropLast_prefix here)
        | down => exact held.below found
      obtain ⟨since, folder⟩ := kept path here List.prefix_rfl
      exact follow_cons_eq_ok.mpr ⟨since, next, folder, leads, later next_held followed⟩

end Ways

namespace Spared

variable {taken more : Location → Prop} {disk middle after : Disk} {location : Location}
  {path : String} {content : ByteArray} {modified now : Instant} {entry : Entry}

theorem refl : Spared taken disk disk := ⟨.refl, fun _ found _ => found⟩

theorem trans (first : Spared taken disk middle) (second : Spared taken middle after) :
    Spared taken disk after where
  kept := first.kept.trans second.kept
  files := by
    intro place content modified held found free
    exact second.files (held.kept first.kept.folders) (first.files held found free) free

theorem mono (spared : Spared taken disk after) (wider : ∀ place, taken place → more place) :
    Spared more disk after :=
  ⟨spared.kept, fun held found free => spared.files held found fun took => free (wider _ took)⟩

theorem entry_same (spared : Spared taken disk after)
    (found : disk.entry path = .ok (location, .file content modified)) (free : ¬taken location) :
    after.entry path = .ok (location, .file content modified) := by
  obtain ⟨located, stands⟩ := entry_eq_ok.mp found
  obtain ⟨parts, checked, followed⟩ := locate_eq_ok.mp located
  rw [← checked_same spared.kept.mount] at checked
  have followed_after := follow_held spared.kept.folders place_top.held followed
  have held := (located_place located).held
  exact entry_eq_ok.mpr
    ⟨locate_eq_ok.mpr ⟨parts, checked, followed_after⟩, spared.files held stands free⟩

/-- Something is put where no folder is, or a folder is put in place of one. -/
theorem set (at_location : disk.Place location)
    (keeps : (∃ modified, disk.lookup location = some (.folder modified)) →
      ∃ modified, entry = .folder modified)
    (takes : ∀ content modified, disk.lookup location = some (.file content modified) →
      taken location) : Spared taken disk (disk.set location entry) where
  kept := .set List.nil_prefix at_location.named keeps
  files := by
    intro place content modified held found free
    by_cases here : place = location
    · subst here
      exact absurd (takes content modified found) free
    · rw [lookup_set_of_ne here]
      exact found

theorem touch (at_location : disk.Place location) :
    Spared taken disk (disk.touchAround location now) := by
  unfold touchAround
  split
  · exact refl
  · split
    · next since folder =>
        apply set (at_location.above (List.dropLast_prefix location)) fun _ => ⟨now, rfl⟩
        intro content modified file
        rw [folder] at file
        cases file
    · exact refl

theorem erase (file : disk.lookup location = some (.file content modified))
    (takes : taken location) :
    Spared taken disk { disk with entries := Disk.outside location disk.entries } where
  kept := .erase List.nil_prefix file
  files := by
    intro place held_content since held found free
    have apart : ¬location <+: place := by
      intro inside
      by_cases here : location = place
      · exact free (here ▸ takes)
      · obtain ⟨_, folder⟩ := held location inside here
        rw [file] at folder
        cases folder
    rw [Disk.lookup, find_outside disk.entries apart]
    exact found

theorem erase_tree (at_location : disk.Place location)
    (file : disk.lookup location = some (.file content modified)) (takes : taken location) :
    Spared taken disk (disk.eraseTree location now) :=
  (erase file takes).trans (touch (erased_place at_location))

theorem write_at (at_location : disk.Place location)
    (written : disk.writeAt location content modified now = .ok after)
    (takes : taken location) : Spared taken disk after := by
  unfold writeAt at written
  split at written
  · cases written
  · next before since found =>
      cases written
      exact set at_location (keeps_of_free (by simp [found])) fun _ _ _ => takes
  · next missing =>
      cases written
      have keeps : (∃ modified, disk.lookup location = some (.folder modified)) →
          ∃ since, Entry.file content modified = .folder since :=
        keeps_of_free (by simp [missing])
      exact (set at_location keeps fun _ _ _ => takes).trans
        (touch (at_location.kept (set_folders keeps)))

theorem remove_file (removed : disk.removeFile path now = .ok after)
    (takes : ∀ location, disk.locate path = .ok location → taken location) :
    Spared taken disk after := by
  rw [removeFile, bind_eq_ok] at removed
  obtain ⟨⟨location, entry⟩, found, removed⟩ := removed
  obtain ⟨located, stands⟩ := entry_eq_ok.mp found
  cases entry with
  | folder since => cases removed
  | file content since =>
      cases removed
      exact erase_tree (located_place located) stands (takes location located)

end Spared

section Creation

variable {taken : Location → Prop} {disk after : Disk} {here location : Location}
  {parts : List String} {path : String} {now modified : Instant}

theorem create_folder_spares (at_here : disk.Place here)
    (single : ∀ part ∈ parts, '/' ∉ part.toList)
    (created : disk.createFolderFrom here parts now = .ok (location, after)) :
    Spared taken disk after := by
  rw [createFolderFrom, bind_eq_ok] at created
  obtain ⟨place, followed, created⟩ := created
  have at_place := follow_place at_here
    (fun part member => single part (mem_of_trailing member)) followed
  split at created
  · cases created
  · next missing =>
      cases created
      have keeps : (∃ modified, disk.lookup location = some (.folder modified)) →
          ∃ modified, Entry.folder now = .folder modified := fun _ => ⟨now, rfl⟩
      have put : Spared taken disk (disk.set location (.folder now)) := by
        apply Spared.set at_place keeps
        intro content modified file
        rw [missing] at file
        cases file
      exact put.trans (.touch (at_place.kept (set_folders keeps)))

/-- Creating folders takes no file, by induction on how many are left to try. -/
theorem create_folders_at_spares (now : Instant) (fuel : Nat) (parts : List String)
    (single : ∀ part ∈ parts, '/' ∉ part.toList) :
    Spared taken disk (createFoldersAt now fuel disk parts).2 := by
  induction fuel generalizing parts with
  | zero => exact .refl
  | succ fuel above =>
      unfold createFoldersAt
      split
      · next location created made => exact create_folder_spares place_top single made
      · split
        · exact .refl
        · have above_single : ∀ part ∈ partsAbove parts, '/' ∉ part.toList := by
            intro part member
            have inner := List.dropLast_subset _ (mem_of_trailing member)
            exact single part (mem_of_trailing inner)
          have rest_single : ∀ part ∈ parts.drop (partsAbove parts).length, '/' ∉ part.toList :=
            fun part member => single part (List.mem_of_mem_drop member)
          have spared := above (partsAbove parts) above_single
          have edited : Edited [] (fun _ => True) disk
              (createFoldersAt now fuel disk (partsAbove parts)).2 ∧ _ :=
            create_folders_edited trivial fuel (partsAbove parts) above_single
          have placed := edited.2
          split
          · next failure made same =>
              rw [same] at spared
              exact spared
          · next here made same =>
              rw [same] at spared placed
              dsimp only
              split
              · next location created last =>
                  exact spared.trans (create_folder_spares (placed here rfl) rest_single last)
              · exact spared
      · exact .refl

theorem create_folders_spares (disk : Disk) (path : String) (now : Instant) :
    Spared (fun _ => False) disk (disk.createFolders path now).2 := by
  unfold createFolders
  split
  · exact .refl
  · next parts checked => exact create_folders_at_spares now _ parts (checked_single checked)

/-- Parts that lead nowhere stay in a folder. -/
theorem follow_stays (idle : ∀ part ∈ parts, Path.isIdle part = true)
    (found : disk.lookup here = some (.folder modified)) : disk.follow here parts = .ok here := by
  induction parts with
  | nil => rfl
  | cons part rest later =>
      have stays := later fun other member => idle other (by simp [member])
      exact follow_cons_eq_ok.mpr ⟨modified, here, found, .stay (idle part (by simp)), stays⟩

theorem follow_with_trailing
    (followed : disk.follow here (dropTrailingEmpty parts) = .ok location)
    (found : disk.lookup location = some (.folder modified)) :
    disk.follow here parts = .ok location := by
  obtain ⟨idle, split, all_idle⟩ := trailing_idle parts
  rw [split, follow_append, followed]
  exact follow_stays all_idle found

theorem touch_keeps_below (found : disk.lookup location = some (.folder modified)) :
    (disk.touchAround location now).lookup location = some (.folder modified) := by
  unfold touchAround
  split
  · exact found
  · next inside =>
      split
      · have below : location ≠ location.dropLast := by
          intro same
          have sizes := congrArg List.length same
          rw [List.length_dropLast] at sizes
          exact inside (List.isEmpty_iff.mpr (List.length_eq_zero_iff.mp (by omega)))
        rw [lookup_set_of_ne below]
        exact found
      · exact found

theorem create_folder_leads
    (created : disk.createFolderFrom here parts now = .ok (location, after)) :
    after.follow here parts = .ok location ∧ after.lookup location = some (.folder now) ∧
      ∀ {place modified}, disk.lookup place = some (.folder modified) →
        ∃ since, after.lookup place = some (.folder since) := by
  rw [createFolderFrom, bind_eq_ok] at created
  obtain ⟨place, followed, created⟩ := created
  split at created
  · cases created
  · next missing =>
      cases created
      have folders : ∀ {place modified}, disk.lookup place = some (.folder modified) →
          ∃ since, ((disk.set location (.folder now)).touchAround location now).lookup place =
            some (.folder since) := by
        intro place modified found
        obtain ⟨_, found_set⟩ := set_folders (fun _ => ⟨now, rfl⟩) found
        exact touch_folders found_set
      have there : ((disk.set location (.folder now)).touchAround location now).lookup location =
          some (.folder now) := touch_keeps_below lookup_set_self
      exact ⟨follow_with_trailing (follow_folders folders followed) there, there, folders⟩

theorem parts_above_front (parts : List String) : partsAbove parts <+: parts := by
  have shorter (parts : List String) : dropTrailingIdle parts <+: parts := by
    rw [dropTrailingIdle, ← List.reverse_suffix, List.reverse_reverse]
    exact List.dropWhile_suffix Path.isIdle
  exact (shorter _).trans ((List.dropLast_prefix _).trans (shorter parts))

theorem folder_from_eq_ok {failure : Failure}
    (found : disk.folderFrom here parts failure = .ok location) :
    disk.follow here parts = .ok location ∧
      ∃ modified, disk.lookup location = some (.folder modified) := by
  unfold folderFrom at found
  split at found
  · cases found
  · next place followed =>
      split at found
      · next modified stands =>
          cases found
          exact ⟨followed, modified, stands⟩
      · cases found

/-- Where folders could be created there is a folder, by induction on how many were tried. -/
theorem create_folders_at_leads (now : Instant) (fuel : Nat) (parts : List String)
    (created : createFoldersAt now fuel disk parts = (.ok location, after)) :
    after.follow [] parts = .ok location ∧
      ∃ modified, after.lookup location = some (.folder modified) := by
  induction fuel generalizing parts location after with
  | zero => cases created
  | succ fuel above =>
      unfold createFoldersAt at created
      split at created
      · next place made first =>
          cases created
          obtain ⟨followed, there, -⟩ := create_folder_leads first
          exact ⟨followed, now, there⟩
      · split at created
        · cases created
        · split at created
          · cases created
          · next here middle made =>
              obtain ⟨followed_above, -⟩ := above (partsAbove parts) made
              have split := List.prefix_iff_eq_append.mp (parts_above_front parts)
              dsimp only at created
              split at created
              · next place last_made last =>
                  cases created
                  obtain ⟨followed, there, folders⟩ := create_folder_leads last
                  refine ⟨?_, now, there⟩
                  rw [← split, follow_append, follow_folders folders followed_above]
                  exact followed
              · obtain ⟨found, same⟩ := Prod.mk.inj created
                subst same
                obtain ⟨followed, there⟩ := folder_from_eq_ok found
                refine ⟨?_, there⟩
                rw [← split, follow_append, followed_above]
                exact followed
      · obtain ⟨found, same⟩ := Prod.mk.inj created
        subst same
        exact folder_from_eq_ok found

theorem create_folders_leads (created : disk.createFolders path now = (.ok (), after)) :
    ∃ location modified, after.entry path = .ok (location, .folder modified) := by
  unfold createFolders at created
  split at created
  · cases created
  · next parts checked =>
      rcases made : createFoldersAt now (parts.length + 1) disk parts with ⟨outcome, middle⟩
      rw [made] at created
      cases outcome with
      | error failure => cases created
      | ok location =>
          cases created
          obtain ⟨followed, modified, there⟩ := create_folders_at_leads now _ parts made
          have spared : Spared (fun _ => False) disk after := by
            have spares := create_folders_spares disk path now
            rw [createFolders, checked] at spares
            dsimp only at spares
            rw [made] at spares
            exact spares
          rw [← checked_same spared.kept.mount] at checked
          exact ⟨location, modified,
            entry_eq_ok.mpr ⟨locate_eq_ok.mpr ⟨parts, checked, followed⟩, there⟩⟩

end Creation

end Letterpress.Files.Disk
