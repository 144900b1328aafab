import Letterpress.Engine.Basic

/-!
Pages as they go out to a client. A page that fails is an internal error, and only
outside production does the client get to see what failed.
-/

namespace Letterpress

structure Response where
  status : Nat
  body : String
  deriving DecidableEq, Repr

namespace Response

def ofOutcome (environment : Environment) (outcome : Except TemplateError String) : Response :=
  match outcome with
  | .ok body => ⟨200, body⟩
  | .error error =>
      match environment with
      | .production => ⟨500, "Internal Server Error"⟩
      | .development => ⟨500, error.message ++ "\n" ++ error.listing⟩

end Response

def Engine.respond (engine : Engine) (name : String) (data : Datum) (world : World) :
    Response × World :=
  let (outcome, world) := (engine.render name data).run.run world
  (Response.ofOutcome engine.options.environment outcome, world)

end Letterpress
