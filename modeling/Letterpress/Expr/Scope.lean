import Letterpress.Value.Basic

/-!
What names mean while a page is rendered. Variables of loops, the innermost first,
hide the entries of the page's context.
-/

namespace Letterpress

structure Scope where
  locals : List (String × Value)
  context : Value

namespace Scope

def ofContext (context : Value) : Scope := ⟨[], context⟩

def local? (name : String) : List (String × Value) → Option Value
  | [] => none
  | (other, value) :: rest => if name = other then some value else local? name rest

/-- A name that nothing binds is `null`. -/
def lookup (scope : Scope) (name : String) : Value :=
  match local? name scope.locals with
  | some value => value
  | none => (scope.context.entry? name).getD .null

/-- Binds variables in order, so that the last one is the innermost. Variables without
a value stay as they were. -/
def bind (scope : Scope) (names : List String) (values : List Value) : Scope :=
  { scope with locals := (names.zip values).reverse ++ scope.locals }

def unbind (scope : Scope) (count : Nat) : Scope :=
  { scope with locals := scope.locals.drop count }

end Letterpress.Scope
