import Letterpress.Proofs.Files.Disk

/-!
What comes of putting a file somewhere, in any place and on any disk: the file is there, the
folders bear other times, and nothing else differs. Paths lead where they led before.
-/

namespace Letterpress.Files

/-- Entries that differ in no more than the time of a folder. -/
def Entry.Alike (before after : Option Entry) : Prop :=
  after = before ∨
    ∃ since later, before = some (.folder since) ∧ after = some (.folder later)

theorem Entry.Alike.trans {before middle after : Option Entry} (first : Alike before middle)
    (second : Alike middle after) : Alike before after := by
  rcases second with same | ⟨since, later, middle_folder, after_folder⟩
  · exact same ▸ first
  · rcases first with same | ⟨early, _, folder, _⟩
    · exact .inr ⟨since, later, same ▸ middle_folder, after_folder⟩
    · exact .inr ⟨early, later, folder, after_folder⟩

theorem Entry.Alike.file_iff {before after : Option Entry} {content : ByteArray}
    {modified : Instant} (alike : Alike before after) :
    after = some (.file content modified) ↔ before = some (.file content modified) := by
  rcases alike with same | ⟨_, _, folder_before, folder⟩
  · rw [same]
  · simp [folder_before, folder]

theorem Entry.Alike.folder_iff {before after : Option Entry} (alike : Alike before after) :
    (∃ since, after = some (.folder since)) ↔ ∃ since, before = some (.folder since) := by
  rcases alike with same | ⟨_, _, folder_before, folder⟩
  · rw [same]
  · simp [folder_before, folder]

namespace Disk

/-- Nothing but the times of folders changed. -/
structure Touched (before after : Disk) : Prop where
  mount : after.mount = before.mount
  alike : ∀ location, Entry.Alike (before.lookup location) (after.lookup location)

/-- A file is put somewhere, and all else stays, but for the times of folders. -/
structure Replaced (location : Location) (content : ByteArray) (before after : Disk) : Prop where
  mount : after.mount = before.mount
  free : ∀ since, before.lookup location ≠ some (.folder since)
  written : ∃ modified, after.lookup location = some (.file content modified)
  others : ∀ other, other ≠ location → Entry.Alike (before.lookup other) (after.lookup other)

/-- Folders are where they were, and nowhere else. -/
structure SameFolders (before after : Disk) : Prop where
  mount : after.mount = before.mount
  folders : ∀ place, (∃ since, after.lookup place = some (.folder since)) ↔
    ∃ since, before.lookup place = some (.folder since)

section Touching

variable {disk middle after : Disk} {location : Location} {path : String}
  {content : ByteArray} {modified now : Instant}

theorem Touched.refl (disk : Disk) : Touched disk disk := ⟨rfl, fun _ => .inl rfl⟩

theorem Touched.trans (first : Touched disk middle) (second : Touched middle after) :
    Touched disk after where
  mount := second.mount.trans first.mount
  alike := fun location => (first.alike location).trans (second.alike location)

theorem touch_around_touched (disk : Disk) (location : Location) (now : Instant) :
    Touched disk (disk.touchAround location now) := by
  unfold touchAround
  split
  · exact .refl disk
  · split
    · next since found =>
        refine ⟨rfl, fun other => ?_⟩
        by_cases here : other = location.dropLast
        · exact .inr ⟨since, now, here ▸ found, here ▸ lookup_set_self⟩
        · exact .inl (lookup_set_of_ne here)
    · exact .refl disk

theorem write_at_eq_ok (written : disk.writeAt location content modified now = .ok after) :
    (∀ since, disk.lookup location ≠ some (.folder since)) ∧
      Touched (disk.set location (.file content modified)) after := by
  unfold writeAt at written
  split at written
  · cases written
  · next before since found =>
      cases written
      exact ⟨by simp [found], .refl _⟩
  · next missing =>
      cases written
      exact ⟨by simp [missing], touch_around_touched _ location now⟩

/-- A file that was put somewhere stays there while folders are touched. -/
theorem replaced_of_touched (free : ∀ since, disk.lookup location ≠ some (.folder since))
    (touched : Touched (disk.set location (.file content modified)) after) :
    Replaced location content disk after where
  mount := touched.mount
  free := free
  written := by
    refine ⟨modified, ?_⟩
    have alike := touched.alike location
    rw [lookup_set_self] at alike
    rcases alike with same | ⟨since, later, folder, _⟩
    · exact same
    · cases folder
  others := by
    intro other different
    have alike := touched.alike other
    rw [lookup_set_of_ne different] at alike
    exact alike

theorem Replaced.of_touched (touched : Touched disk middle)
    (replaced : Replaced location content middle after) : Replaced location content disk after where
  mount := replaced.mount.trans touched.mount
  free := by
    intro since held
    rcases touched.alike location with same | ⟨_, later, _, folder⟩
    · exact replaced.free since (same.trans held)
    · exact replaced.free later folder
  written := replaced.written
  others := fun other different => (touched.alike other).trans (replaced.others other different)

theorem replaced_by_set {held : ByteArray} {since : Instant}
    (stood : disk.lookup location = some (.file held since)) :
    Replaced location content disk (disk.set location (.file content modified)) :=
  replaced_of_touched (by simp [stood]) (.refl _)

theorem SameFolders.refl (disk : Disk) : SameFolders disk disk := ⟨rfl, fun _ => .rfl⟩

theorem SameFolders.symm (same : SameFolders disk after) : SameFolders after disk :=
  ⟨same.mount.symm, fun place => (same.folders place).symm⟩

theorem SameFolders.trans (first : SameFolders disk middle) (second : SameFolders middle after) :
    SameFolders disk after :=
  ⟨second.mount.trans first.mount, fun place => (second.folders place).trans (first.folders place)⟩

theorem SameFolders.located {elsewhere : Location} (same : SameFolders disk after)
    (located : disk.locate path = .ok elsewhere) : after.locate path = .ok elsewhere := by
  obtain ⟨parts, checked, followed⟩ := locate_eq_ok.mp located
  rw [← checked_same same.mount] at checked
  exact locate_eq_ok.mpr
    ⟨parts, checked, follow_folders (fun found => (same.folders _).mpr ⟨_, found⟩) followed⟩

theorem Replaced.same_folders (replaced : Replaced location content disk after) :
    SameFolders disk after where
  mount := replaced.mount
  folders := by
    intro place
    by_cases here : place = location
    · subst here
      obtain ⟨modified, written⟩ := replaced.written
      simp [written, replaced.free]
    · exact (replaced.others place here).folder_iff

theorem Touched.same_folders (touched : Touched disk after) : SameFolders disk after :=
  ⟨touched.mount, fun place => (touched.alike place).folder_iff⟩

theorem Replaced.elsewhere {other : Location} {held : ByteArray} {since : Instant}
    (replaced : Replaced location content disk after) (different : other ≠ location) :
    after.lookup other = some (.file held since) ↔
      disk.lookup other = some (.file held since) :=
  (replaced.others other different).file_iff

theorem Replaced.file {other : Location} {held : ByteArray} {since : Instant}
    (replaced : Replaced location content disk after)
    (stood : disk.lookup other = some (.file held since)) :
    ∃ bytes dated, after.lookup other = some (.file bytes dated) := by
  by_cases here : other = location
  · obtain ⟨dated, written⟩ := replaced.written
    exact ⟨content, dated, here ▸ written⟩
  · exact ⟨held, since, (replaced.elsewhere here).mpr stood⟩

theorem Replaced.located {elsewhere : Location} (replaced : Replaced location content disk after)
    (located : disk.locate path = .ok elsewhere) : after.locate path = .ok elsewhere :=
  replaced.same_folders.located located

end Touching

end Disk

end Letterpress.Files
