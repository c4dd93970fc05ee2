import BoardNet.Http.ContentType
import BoardNet.Http.Head

namespace BoardNet.Http

def maxEndpoints : Nat := 32

def maxAliases : Nat := 16

def maxFiles : Nat := 32

/-- Why something was not registered. -/
inductive RouteError where
  | tableFull
  deriving DecidableEq, Repr

def RouteError.message : RouteError → String
  | .tableFull => "route table full"

/-- An endpoint answers requests of one method for one path. -/
structure Endpoint (E : Type) where
  method : Method
  path : String
  target : E
  deriving DecidableEq, Repr

/-- Requests for one path are answered as if they were for another. -/
structure Alias where
  path : String
  target : String
  deriving DecidableEq, Repr

structure File where
  path : String
  contentType : String
  body : List UInt8
  deriving DecidableEq, Repr

/-- What a request leads to. -/
inductive Route (E : Type) where
  | endpoint (target : E)
  | file (file : File)
  deriving DecidableEq, Repr

structure Routes (E : Type) where
  endpoints : List (Endpoint E) := []
  aliases : List Alias := []
  files : List File := []
  notFound : Option E := none
  deriving DecidableEq, Repr

namespace Routes

variable {E : Type}

def on (routes : Routes E) (method : Method) (path : String) (target : E) :
    Logged (Except RouteError (Routes E)) := do
  if routes.endpoints.length < maxEndpoints then
    return .ok { routes with endpoints := routes.endpoints ++ [⟨method, path, target⟩] }
  else
    .note .warn s!"http: no room for {method.verb} {path}"
    return .error .tableFull

def addAlias (routes : Routes E) (path target : String) : Except RouteError (Routes E) :=
  if routes.aliases.length < maxAliases then
    .ok { routes with aliases := routes.aliases ++ [⟨path, target⟩] }
  else .error .tableFull

/-- Registers a file, typed by its extension. -/
def serveFile (routes : Routes E) (path : String) (body : List UInt8) :
    Except RouteError (Routes E) :=
  if routes.files.length < maxFiles then
    .ok { routes with files := routes.files ++ [⟨path, contentType path, body⟩] }
  else .error .tableFull

/-- The first endpoint for a path, or for a reading request the first file. -/
def find (routes : Routes E) (method : Method) (path : String) : Option (Route E) :=
  let endpoint := routes.endpoints.find? fun endpoint =>
    endpoint.method = method ∧ endpoint.path = path
  match endpoint with
  | some endpoint => some (.endpoint endpoint.target)
  | none =>
    if method = .get then (routes.files.find? (·.path = path)).map .file else none

/-- What a request leads to: what is registered for its path, else what is registered for the path
of the first alias. -/
def lookup (routes : Routes E) (method : Method) (path : String) : Option (Route E) :=
  match routes.find method path with
  | some route => some route
  | none => do
    let found ← routes.aliases.find? (·.path = path)
    routes.find method found.target

end Routes

end BoardNet.Http
