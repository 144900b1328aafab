import Letterpress.Engine.Basic

/-!
Compiling everything at once. The walk goes through the template directory in
increasing order of names and looks into a folder when it comes to it, so it sees what
earlier builds have written there. Hidden files and folders are left out, and so is
the folder of the store where it is spelled as the walk comes to it.
-/

namespace Letterpress.Engine

open Files

def isHidden (name : String) : Bool := name.toList.head? == some '.'

def isStoreFolder (engine : Engine) (names : List String) : Bool :=
  Path.components engine.directory ++ names == Path.components engine.store.directory

def templateName? (engine : Engine) (path : String) : Option String :=
  let above := Path.components engine.directory
  let whole := Path.components path
  if Path.isAbsolute path == Path.isAbsolute engine.directory && above.isPrefixOf whole then
    some ("/".intercalate (whole.drop above.length))
  else none

mutual

/-- Builds what stands at a place, and counts the templates. Folders nest at most
`fuel` deep. -/
def buildEntry (engine : Engine) : Nat → List String → Entry → Action Nat
  | _, names, .file _ _ => do
      let _ ← engine.build ("/".intercalate names)
      return 1
  | 0, _, .folder _ => return 0
  | fuel + 1, names, .folder _ => do
      let path := names.foldl Path.join engine.directory
      match (← get).disk.list path with
      | .error failure => throw (.source path failure)
      | .ok children =>
          let visible := children.filter fun child =>
            !isHidden child.1 && !engine.isStoreFolder (names ++ [child.1])
          engine.buildEntries fuel names visible

def buildEntries (engine : Engine) : Nat → List String → List (String × Entry) → Action Nat
  | _, _, [] => return 0
  | fuel, names, (name, entry) :: rest => do
      let first ← engine.buildEntry fuel (names ++ [name]) entry
      let others ← engine.buildEntries fuel names rest
      return first + others

end

/-- Compiles and stores every template, and tells how many there are. The first that
fails ends the walk. The template directory has to be there also where it is the folder
of the store and holds no templates. -/
def precompileAll (engine : Engine) : Action Nat := do
  let disk := (← get).disk
  match disk.entry engine.directory with
  | .error failure => throw (.source engine.directory failure)
  | .ok (_, entry) =>
      if engine.isStoreFolder [] then return 0
      else engine.buildEntry (disk.entries.length + 1) [] entry

end Letterpress.Engine
