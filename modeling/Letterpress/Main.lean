import Letterpress.Demo

/-!
The command line of the demonstration. The template directory is copied into memory,
the demonstration runs there, and files that are new or changed are written back.
-/

namespace Letterpress.CommandLine

open Files

def instantOf (time : IO.FS.SystemTime) : Instant := ⟨time.sec, time.nsec.toNat⟩

/-- The time, read off a file that is made for it. -/
def clock : IO Instant :=
  IO.FS.withTempFile fun _ path => do return instantOf (← path.metadata).modified

def depthLimit : Nat := 256

/-- Copies what stands at a path to a location of a disk. What leads nowhere and what is
neither file nor folder is left out. -/
def copyIn : Nat → String → Location → Disk → IO Disk
  | 0, _, _, disk => return disk
  | depth + 1, path, location, disk => do
      match ← (IO.FS.realPath path).toBaseIO with
      | .error _ => return disk
      | .ok place =>
          let metadata ← place.metadata
          let modified := instantOf metadata.modified
          match metadata.type with
          | .file => return disk.set location (.file (← IO.FS.readBinFile path) modified)
          | .dir =>
              (← place.readDir).foldlM
                (fun disk entry =>
                  copyIn depth entry.path.toString (location ++ [entry.fileName]) disk)
                (disk.set location (.folder modified))
          | _ => return disk

def folderAt? (path : String) : IO (Option String) := do
  match ← (IO.FS.realPath path).toBaseIO with
  | .error _ => return none
  | .ok place => return if ← place.isDir then some place.toString else none

def placeFolders (disk : Disk) (location : Location) (now : Instant) : Disk :=
  (List.range location.length).foldl
    (fun disk count => disk.set (location.take count) (.folder now)) disk

/-- A disk with the folder at a path. It is mounted where the command runs, so that the
path leads to the folder as it is given; a folder elsewhere is mounted by itself and goes
by its own path. -/
def mountFolder (given place : String) (now : Instant) : IO (Disk × String) := do
  let top ← IO.FS.realPath "."
  let disk := Disk.empty top.toString now
  match disk.partsBelow? place with
  | some location =>
      let disk ← copyIn depthLimit place location (placeFolders disk location now)
      return (disk, if disk.isFolder given then given else place)
  | none => return (← copyIn depthLimit place [] (Disk.empty place now), place)

def isUnchanged (before : Disk) (location : Location) (content : ByteArray) : Bool :=
  match before.lookup location with
  | some (.file held _) => held == content
  | _ => false

def copyOut (before after : Disk) : IO Unit := do
  for (location, entry) in after.entries do
    let path := after.pathOf location
    match entry with
    | .folder _ => IO.FS.createDirAll path
    | .file content _ =>
        if !isUnchanged before location content then
          IO.FS.createDirAll (after.pathOf location.dropLast)
          IO.FS.writeBinFile path content

def environmentVariable : String := "UMICRO_ENV"

def run (arguments : List String) : IO UInt32 := do
  let environment ← IO.getEnv environmentVariable
  let now ← clock
  let given := arguments.head?.getD Demo.defaultDirectory
  let (disk, directory) ←
    match ← folderAt? given with
    | some place => mountFolder given place now
    | none => do
        let top ← IO.FS.realPath "."
        pure (Disk.empty top.toString now, given)
  let (report, after) := Demo.run disk now environment (directory :: arguments.drop 1)
  copyOut disk after
  IO.print report.output
  IO.eprint report.errors
  return UInt32.ofNat report.code

end Letterpress.CommandLine

def main (arguments : List String) : IO UInt32 := Letterpress.CommandLine.run arguments
