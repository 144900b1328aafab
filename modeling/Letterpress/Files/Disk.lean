import Letterpress.Files.Failure
import Letterpress.Files.Path
import Letterpress.Instant
import Letterpress.Value.Entries

/-!
Files and folders in memory. A location is the list of names from the top; the disk
maps locations to what is there. The top stands in the world at the path `mount`, and
only what lies below it can be reached: paths elsewhere lead to nothing. A path is
followed part by part, and all its parts but the last must be folders that exist.
-/

namespace Letterpress.Files

abbrev Location := List String

inductive Entry where
  | file (content : ByteArray) (modified : Instant)
  | folder (modified : Instant)

def Entry.modified : Entry → Instant
  | .file _ modified => modified
  | .folder modified => modified

def Entry.isFile : Entry → Bool
  | .file _ _ => true
  | .folder _ => false

structure Disk where
  mount : String
  entries : List (Location × Entry)

namespace Disk

def empty (mount : String) (now : Instant) : Disk := ⟨mount, [([], .folder now)]⟩

def find? (location : Location) : List (Location × Entry) → Option Entry
  | [] => none
  | (other, entry) :: rest => if location = other then some entry else find? location rest

def lookup (disk : Disk) (location : Location) : Option Entry := find? location disk.entries

def setEntry (location : Location) (entry : Entry) :
    List (Location × Entry) → List (Location × Entry)
  | [] => [(location, entry)]
  | (other, held) :: rest =>
      if location = other then (location, entry) :: rest
      else (other, held) :: setEntry location entry rest

def set (disk : Disk) (location : Location) (entry : Entry) : Disk :=
  { disk with entries := setEntry location entry disk.entries }

theorem find?_setEntry_self (location : Location) (entry : Entry)
    (entries : List (Location × Entry)) :
    find? location (setEntry location entry entries) = some entry := by
  induction entries with
  | nil => simp [setEntry, find?]
  | cons first rest ih =>
      obtain ⟨other, held⟩ := first
      by_cases same : location = other
      · simp [setEntry, find?, same]
      · simp [setEntry, find?, same, ih]

theorem find?_setEntry_of_ne {location wanted : Location} (entry : Entry)
    (entries : List (Location × Entry)) (different : wanted ≠ location) :
    find? wanted (setEntry location entry entries) = find? wanted entries := by
  induction entries with
  | nil => simp [setEntry, find?, different]
  | cons first rest ih =>
      obtain ⟨other, held⟩ := first
      by_cases same : location = other
      · subst same
        simp [setEntry, find?, different]
      · simp [setEntry, find?, same, ih]

theorem mem_of_find? {location : Location} {entry : Entry} {entries : List (Location × Entry)}
    (found : find? location entries = some entry) : (location, entry) ∈ entries := by
  induction entries with
  | nil => simp [find?] at found
  | cons first rest ih =>
      obtain ⟨other, held⟩ := first
      by_cases same : location = other
      · simp_all [find?]
      · simp only [find?, same, if_false] at found
        simp [ih found]

/-- The parts of a path from the top; nothing for paths that lie elsewhere. A path
that is not absolute starts at the top. -/
def partsBelow? (disk : Disk) (path : String) : Option (List String) :=
  let below := path.toList.drop disk.mount.length
  if disk.mount.toList.isPrefixOf path.toList && (below.isEmpty || below.head? == some '/') then
    some (if below.isEmpty then [] else Path.parts (String.ofList (below.drop 1)))
  else if Path.isAbsolute path || path.isEmpty then none
  else some (Path.parts path)

def nameLimit : Nat := 255

/-- Bytes below which a path must stay. -/
def pathLimit : Nat := 4096

/-- Follows parts from a location. The last one need not exist. -/
def follow (disk : Disk) (here : Location) : List String → Except Failure Location
  | [] => .ok here
  | part :: rest =>
      match disk.lookup here with
      | none => .error .notFound
      | some (.file _ _) => .error .notADirectory
      | some (.folder _) =>
          if Path.isIdle part then disk.follow here rest
          else if part = ".." then
            if here.isEmpty then .error .notFound else disk.follow here.dropLast rest
          else if nameLimit < part.utf8ByteSize then .error .invalidFilename
          else disk.follow (here ++ [part]) rest

def checkedParts (disk : Disk) (path : String) : Except Failure (List String) :=
  if path.toList.any fun char => char.toNat == 0 then .error .invalidInput
  else if pathLimit ≤ path.utf8ByteSize then .error .invalidFilename
  else
    match disk.partsBelow? path with
    | none => .error .notFound
    | some parts => .ok parts

def locate (disk : Disk) (path : String) : Except Failure Location := do
  disk.follow [] (← disk.checkedParts path)

def entry (disk : Disk) (path : String) : Except Failure (Location × Entry) := do
  let location ← disk.locate path
  match disk.lookup location with
  | some entry => return (location, entry)
  | none => .error .notFound

def isFile (disk : Disk) (path : String) : Bool :=
  match disk.entry path with
  | .ok (_, .file _ _) => true
  | _ => false

def isFolder (disk : Disk) (path : String) : Bool :=
  match disk.entry path with
  | .ok (_, .folder _) => true
  | _ => false

def pathOf (disk : Disk) (location : Location) : String := location.foldl Path.join disk.mount

def read (disk : Disk) (path : String) : Except Failure ByteArray := do
  match ← disk.entry path with
  | (_, .file content _) => return content
  | (_, .folder _) => .error .isADirectory

def readText (disk : Disk) (path : String) : Except Failure String := do
  match String.fromUTF8? (← disk.read path) with
  | some text => return text
  | none => .error .invalidData

/-- All texts that reading some path can give. -/
def texts (disk : Disk) : List String :=
  disk.entries.filterMap fun entry =>
    match entry.2 with
    | .file content _ => String.fromUTF8? content
    | .folder _ => none

theorem mem_texts_of_readText {disk : Disk} {path text : String}
    (readable : disk.readText path = .ok text) : text ∈ disk.texts := by
  simp only [readText, read, entry, bind, Except.bind, pure, Except.pure] at readable
  split at readable
  · cases readable
  · next content reads =>
      split at readable
      · next decoded valid =>
          injection readable with same
          subst same
          split at reads
          · cases reads
          · next found opened =>
              split at opened
              · cases opened
              · next location located =>
                  split at opened
                  · next held looked =>
                      injection opened with same
                      subst same
                      cases held with
                      | file bytes modified =>
                          injection reads with same
                          subst same
                          exact List.mem_filterMap.mpr ⟨_, mem_of_find? looked, valid⟩
                      | folder modified => cases reads
                  · cases opened
      · cases readable

/-- A folder is modified when something appears in it or goes. -/
def touchAround (disk : Disk) (location : Location) (now : Instant) : Disk :=
  if location.isEmpty then disk
  else
    match disk.lookup location.dropLast with
    | some (.folder _) => disk.set location.dropLast (.folder now)
    | _ => disk

def writeAt (disk : Disk) (location : Location) (content : ByteArray) (modified now : Instant) :
    Except Failure Disk :=
  match disk.lookup location with
  | some (.folder _) => .error .isADirectory
  | some (.file _ _) => .ok (disk.set location (.file content modified))
  | none => .ok ((disk.set location (.file content modified)).touchAround location now)

def dropTrailingEmpty (parts : List String) : List String :=
  (parts.reverse.dropWhile fun part => part == "").reverse

/-- A path that ends in a slash is a folder's, whether or not there is one. -/
def write (disk : Disk) (path : String) (content : ByteArray) (modified now : Instant) :
    Except Failure Disk := do
  let parts ← disk.checkedParts path
  let location ← disk.follow [] (dropTrailingEmpty parts)
  if parts.getLast? == some "" then .error .isADirectory
  else disk.writeAt location content modified now

def createFolderFrom (disk : Disk) (here : Location) (parts : List String) (now : Instant) :
    Except Failure (Location × Disk) := do
  let location ← disk.follow here (dropTrailingEmpty parts)
  match disk.lookup location with
  | some _ => .error .alreadyExists
  | none => return (location, (disk.set location (.folder now)).touchAround location now)

def createFolder (disk : Disk) (path : String) (now : Instant) : Except Failure Disk := do
  let (_, created) ← disk.createFolderFrom [] (← disk.checkedParts path) now
  return created

/-- A folder that could not be created may be there already. -/
def folderFrom (disk : Disk) (here : Location) (parts : List String) (failure : Failure) :
    Except Failure Location :=
  match disk.follow here parts with
  | .error _ => .error failure
  | .ok location =>
      match disk.lookup location with
      | some (.folder _) => .ok location
      | _ => .error failure

/-- The parts up to the last one that names something. -/
def dropTrailingIdle (parts : List String) : List String :=
  (parts.reverse.dropWhile Path.isIdle).reverse

def partsAbove (parts : List String) : List String :=
  dropTrailingIdle (dropTrailingIdle parts).dropLast

/-- Creates a folder and, for as long as they are missing, the folders above it first.
Folders that were created before a failure stay. -/
def createFoldersAt (now : Instant) : Nat → Disk → List String → Except Failure Location × Disk
  | 0, disk, _ => (.error .notFound, disk)
  | fuel + 1, disk, parts =>
      match disk.createFolderFrom [] parts now with
      | .ok (location, created) => (.ok location, created)
      | .error .notFound =>
          if parts.all Path.isIdle then (.error .notFound, disk)
          else
            match createFoldersAt now fuel disk (partsAbove parts) with
            | (.error failure, above) => (.error failure, above)
            | (.ok here, above) =>
                let rest := parts.drop (partsAbove parts).length
                match above.createFolderFrom here rest now with
                | .ok (location, created) => (.ok location, created)
                | .error failure => (above.folderFrom here rest failure, above)
      | .error failure => (disk.folderFrom [] parts failure, disk)

def createFolders (disk : Disk) (path : String) (now : Instant) : Except Failure Unit × Disk :=
  match disk.checkedParts path with
  | .error failure => (.error failure, disk)
  | .ok parts =>
      let (outcome, created) := createFoldersAt now (parts.length + 1) disk parts
      (outcome.map fun _ => (), created)

def eraseTree (disk : Disk) (location : Location) (now : Instant) : Disk :=
  touchAround
    { disk with entries := disk.entries.filter fun entry => !location.isPrefixOf entry.1 }
    location now

def removeFile (disk : Disk) (path : String) (now : Instant) : Except Failure Disk := do
  match ← disk.entry path with
  | (location, .file _ _) => return disk.eraseTree location now
  | (_, .folder _) => .error .isADirectory

def temporaryName (number : Nat) : String :=
  let digits := Nat.toDigits 10 number
  ".tmp" ++ String.ofList (List.replicate (6 - digits.length) '0' ++ digits)

def freeName? (disk : Disk) (folder : Location) : Option String :=
  ((List.range (disk.entries.length + 1)).map temporaryName).find? fun name =>
    !disk.entries.any fun entry => (folder ++ [name]).isPrefixOf entry.1

/-- Creates an empty file under a name of its own in a folder, and tells its path and where
it is. Which name it is does not matter to the path, as all are equally long. -/
def createTemporary (disk : Disk) (directory : String) (now : Instant) :
    Except Failure (String × Location × Disk) := do
  let _ ← disk.checkedParts (Path.join directory (temporaryName 0))
  match ← disk.entry directory with
  | (_, .file _ _) => .error .notADirectory
  | (folder, .folder _) =>
      match disk.freeName? folder with
      | none => .error .alreadyExists
      | some name =>
          let location := folder ++ [name]
          let created := (disk.set location (.file .empty now)).touchAround location now
          return (Path.join directory name, location, created)

def moveFile (disk : Disk) (location : Location) (path : String) (now : Instant) :
    Except Failure Disk := do
  let target ← disk.locate path
  match disk.lookup location with
  | some (.file content modified) =>
      let moved ← (disk.eraseTree location now).writeAt target content modified now
      return moved.touchAround target now
  | _ => .error .notFound

def eraseBelow (disk : Disk) (location : Location) (now : Instant) : Disk :=
  set
    { disk with entries := disk.entries.filter fun entry => !location.isPrefixOf entry.1 }
    location (.folder now)

/-- Removes a folder with everything below it. The folder goes last: it stays if its path
led through what is gone by then, and a path that ends in a single dot cannot be removed. -/
def removeFolder (disk : Disk) (path : String) (now : Instant) : Except Failure Unit × Disk :=
  match disk.entry path with
  | .error failure => (.error failure, disk)
  | .ok (_, .file _ _) => (.error .notADirectory, disk)
  | .ok (location, .folder _) =>
      let emptied := disk.eraseBelow location now
      match emptied.locate path with
      | .error _ => (.ok (), emptied)
      | .ok _ =>
          if (dropTrailingEmpty (Path.parts path)).getLast? == some "." then
            (.error .invalidInput, emptied)
          else (.ok (), disk.eraseTree location now)

/-- What stands directly in a folder, in increasing order of names. -/
def children (disk : Disk) (location : Location) : List (String × Entry) :=
  Entries.ofList <| disk.entries.filterMap fun entry =>
    match entry.1.reverse with
    | [] => none
    | name :: above => if above.reverse = location then some (name, entry.2) else none

def list (disk : Disk) (path : String) : Except Failure (List (String × Entry)) := do
  match ← disk.entry path with
  | (location, .folder _) => return disk.children location
  | (_, .file _ _) => .error .notADirectory

end Letterpress.Files.Disk
