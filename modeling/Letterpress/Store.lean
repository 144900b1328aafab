import Letterpress.Digest
import Letterpress.Error
import Letterpress.Files.Disk
import Letterpress.Program.Artifact

/-!
Where programs are kept between runs: one file for each template name, in one folder.
A file is named by the digest of the template's name, and the program inside has to
carry that name. Whatever cannot be read as such a program is as good as missing.
-/

namespace Letterpress

open Files

structure Store where
  directory : String
  deriving DecidableEq, Repr

namespace Store

def fileName (template : String) : String := Digest.ofText template ++ ".json"

def path (store : Store) (template : String) : String :=
  Path.join store.directory (fileName template)

def decode? (template : String) (content : ByteArray) : Option Program :=
  match Program.decodeBytes? content with
  | some program => if program.name = template then some program else none
  | none => none

def load? (store : Store) (disk : Disk) (template : String) : Option Program :=
  match disk.read (store.path template) with
  | .ok content => decode? template content
  | .error _ => none

def create (store : Store) (disk : Disk) (now : Instant) : Except TemplateError Unit × Disk :=
  let (outcome, created) := disk.createFolders store.directory now
  (outcome.mapError (.artifact store.directory), created)

/-- Writes a program whole, in place of an earlier one for the same template: the text goes
into a file of its own, which then gets the program's path. A file that comes to no use is
dropped, and the earlier program is still there. -/
def save (store : Store) (disk : Disk) (program : Program) (now : Instant) :
    Except TemplateError Unit × Disk :=
  match disk.createTemporary store.directory now with
  | .error failure => (.error (.artifact store.directory failure), disk)
  | .ok (temporary, location, created) =>
      match created.writeAt location program.encode.toUTF8 now now with
      | .error failure =>
          (.error (.artifact temporary failure), created.eraseTree location now)
      | .ok written =>
          match written.moveFile location (store.path program.name) now with
          | .error failure =>
              (.error (.artifact (store.path program.name) failure),
                written.eraseTree location now)
          | .ok moved => (.ok (), moved)

def remove (store : Store) (disk : Disk) (template : String) (now : Instant) :
    Except TemplateError (Bool × Disk) :=
  match disk.removeFile (store.path template) now with
  | .ok removed => .ok (true, removed)
  | .error .notFound => .ok (false, disk)
  | .error failure => .error (.artifact (store.path template) failure)

/-- Names of files that count as programs when the store is cleared. -/
def isArtifactName (name : String) : Bool := Path.extension? name == some "json"

/-- Removes the files of given names one by one. A failure stops at the file that
cannot be removed, and the files before it are gone. -/
def removeAll (store : Store) (now : Instant) :
    Disk → List String → Except TemplateError Nat × Disk
  | disk, [] => (.ok 0, disk)
  | disk, name :: rest =>
      let path := Path.join store.directory name
      match disk.removeFile path now with
      | .error failure => (.error (.artifact path failure), disk)
      | .ok removed =>
          let (outcome, last) := removeAll store now removed rest
          (outcome.map (· + 1), last)

def clear (store : Store) (disk : Disk) (now : Instant) : Except TemplateError Nat × Disk :=
  match disk.list store.directory with
  | .error failure => (.error (.artifact store.directory failure), disk)
  | .ok entries =>
      store.removeAll now disk ((entries.map Prod.fst).filter isArtifactName)

end Letterpress.Store
