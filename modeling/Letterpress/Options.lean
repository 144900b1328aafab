import Letterpress.Text.Blank

/-!
How an engine is set up.
-/

namespace Letterpress

inductive Environment where
  | development
  | production
  deriving DecidableEq, Repr

/-- Every name that starts with `prod`, in any letter case and after blanks, means
production; every other name means development. -/
def Environment.ofName (name : String) : Environment :=
  let start := (Text.trim name.toList).take 4
  if start.map Char.toLower = ['p', 'r', 'o', 'd'] then .production else .development

structure Options where
  /-- Whether stored programs are used again. Left open, production decides. -/
  cached : Option Bool := none
  environment : Environment := .development
  /-- Where programs are stored, seen from the template directory. -/
  artifactDirectory : String := ".tmp"
  /-- Whether a stored program counts only while its sources are unchanged. -/
  checkModified : Bool := false

def Options.isCached (options : Options) : Bool :=
  options.cached.getD (options.environment == .production)

end Letterpress
