import Letterpress.Engine.Response
import Letterpress.Proofs.Engine.Upkeep

/-!
Errands: whatever an open engine can be asked to do, one errand after another, each at a
time of its own. An errand that fails leaves the world that it has made. Reading a template
without its program changes nothing, and a response is a render.
-/

namespace Letterpress

open Files

inductive Errand where
  | render (name : String) (data : Datum)
  | renderValue (name : String) (value : Value)
  | respond (name : String) (data : Datum)
  | compile (name : String)
  | precompileAll
  | invalidate (name : String)
  | clear

namespace Engine

def attend (engine : Engine) (world : World) : Errand → World
  | .render name data => ((engine.render name data).run.run world).2
  | .renderValue name value => ((engine.renderValue name value).run.run world).2
  | .respond name data => (engine.respond name data world).2
  | .compile _ => world
  | .precompileAll => (engine.precompileAll.run.run world).2
  | .invalidate name => ((engine.invalidate name).run.run world).2
  | .clear => (engine.clear.run.run world).2

def attendAll (engine : Engine) (world : World) : List (Instant × Errand) → World
  | [] => world
  | (now, errand) :: rest => engine.attendAll (engine.attend { world with now } errand) rest

section Upkeep

variable {engine : Engine} {holds : Disk → Prop} {world : World}

theorem attend_keeps (saves : engine.Saves holds) (removes : engine.Removes holds)
    (errand : Errand)
    (clears : errand = .clear →
      ∀ {disk now}, holds disk → holds (engine.store.clear disk now).2)
    (held : holds world.disk) : holds (engine.attend world errand).disk := by
  unfold attend
  cases errand with
  | render name data => exact render_keeps saves name data world held
  | renderValue name value => exact render_value_keeps saves name value world held
  | respond name data => exact render_keeps saves name data world held
  | compile name => exact held
  | precompileAll => exact precompile_all_keeps saves world held
  | invalidate name => exact invalidate_keeps removes name world held
  | clear => exact clear_keeps (clears rfl) world held

theorem attend_all_keeps (saves : engine.Saves holds) (removes : engine.Removes holds)
    (errands : List (Instant × Errand))
    (clears : .clear ∈ errands.map Prod.snd →
      ∀ {disk now}, holds disk → holds (engine.store.clear disk now).2)
    (held : holds world.disk) : holds (engine.attendAll world errands).disk := by
  induction errands generalizing world with
  | nil => exact held
  | cons first rest later =>
      obtain ⟨now, errand⟩ := first
      apply later
      · exact fun member => clears (List.mem_cons_of_mem _ member)
      · apply attend_keeps saves removes errand
        · rintro rfl
          exact clears List.mem_cons_self
        · exact held

end Upkeep

end Engine

end Letterpress
