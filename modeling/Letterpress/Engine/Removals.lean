import Letterpress.Store

/-!
Calls that drop stored programs at the same time. To drop the program of one template takes
one step, and no other call sees it half done. To clear the store is to list its folder
and then to remove the listed files one after another; it holds no lock, so other calls may
come in between. The steps of all calls take turns in any order.
-/

namespace Letterpress

open Files

/-- What a call that removes programs does next, or has answered. -/
inductive Removal where
  /-- Drops the program of a template. -/
  | dropping (template : String)
  | dropped (outcome : Except TemplateError Bool)
  /-- Lists the folder of the store. -/
  | listing
  /-- Removes the files of these names, after a number of others. -/
  | removing (names : List String) (removed : Nat)
  | cleared (outcome : Except TemplateError Nat)

structure Removals (count : Nat) where
  disk : Disk
  calls : Fin count → Removal
  /-- The files that were removed, each with the call that did it, in their order. -/
  taken : List (Fin count × String)

namespace Removals

variable {count : Nat}

def starting (disk : Disk) (calls : Fin count → Removal) : Removals count := ⟨disk, calls, []⟩

def move (removals : Removals count) (caller : Fin count) (removal : Removal) : Removals count :=
  { removals with
    calls := fun other => if other = caller then removal else removals.calls other }

def take (removals : Removals count) (caller : Fin count) (removal : Removal) (name : String)
    (disk : Disk) : Removals count :=
  { removals.move caller removal with disk, taken := removals.taken ++ [(caller, name)] }

end Removals

namespace Store

variable {count : Nat}

def removalTurn (store : Store) (removals : Removals count) (caller : Fin count)
    (now : Instant) : Removals count :=
  match removals.calls caller with
  | .dropping template =>
      match store.remove removals.disk template now with
      | .error error => removals.move caller (.dropped (.error error))
      | .ok (false, disk) => { removals.move caller (.dropped (.ok false)) with disk }
      | .ok (true, disk) => removals.take caller (.dropped (.ok true)) (fileName template) disk
  | .listing =>
      match removals.disk.list store.directory with
      | .error failure =>
          removals.move caller (.cleared (.error (.artifact store.directory failure)))
      | .ok entries =>
          removals.move caller (.removing ((entries.map Prod.fst).filter isArtifactName) 0)
  | .removing [] removed => removals.move caller (.cleared (.ok removed))
  | .removing (name :: rest) removed =>
      let path := Path.join store.directory name
      match removals.disk.removeFile path now with
      | .error failure => removals.move caller (.cleared (.error (.artifact path failure)))
      | .ok disk => removals.take caller (.removing rest (removed + 1)) name disk
  | .dropped _ => removals
  | .cleared _ => removals

def removalTurns (store : Store) (removals : Removals count) :
    List (Fin count × Instant) → Removals count
  | [] => removals
  | (caller, now) :: rest => store.removalTurns (store.removalTurn removals caller now) rest

end Store

end Letterpress
