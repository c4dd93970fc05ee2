import BoardNet.Sim.Script

namespace BoardNet.Sim

abbrev ScriptRoutes := Http.Routes (Http.Target (Fin scriptCount))

inductive Registration where
  | endpoint (method : Http.Method) (path : String) (script : Fin scriptCount)
  | pathAlias (path target : String)
  | file (path : String) (body : List UInt8)
  | notFound (script : Fin scriptCount)
  | statusPages
  deriving DecidableEq, Repr

namespace Registration

/-- Makes a registration. What it registered before it failed stays. -/
def apply (routes : ScriptRoutes) :
    Registration → Logged (Except Http.RouteError Unit × ScriptRoutes)
  | .endpoint method path script => return settle (← routes.on method path (.handler script))
  | .pathAlias path target => return settle (routes.addAlias path target)
  | .file path body => return settle (routes.serveFile path body)
  | .notFound script => return (.ok (), { routes with notFound := some (.handler script) })
  | .statusPages => Http.StatusPage.install .page routes
where
  settle : Except Http.RouteError ScriptRoutes → Except Http.RouteError Unit × ScriptRoutes
    | .ok changed => (.ok (), changed)
    | .error error => (.error error, routes)

/-- Makes a registration some times. Answers how often that succeeded, and the last failure. -/
def applyTimes (registration : Registration) :
    (times : Nat) → ScriptRoutes → Logged (Nat × Option Http.RouteError × ScriptRoutes)
  | 0, routes => return (0, none, routes)
  | times + 1, routes => do
    let (result, routes) ← registration.apply routes
    let (succeeded, failure, routes) ← registration.applyTimes times routes
    match result with
    | .ok () => return (succeeded + 1, failure, routes)
    | .error error => return (succeeded, some (failure.getD error), routes)

end Registration

end BoardNet.Sim
