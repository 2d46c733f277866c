import TaskAutomation.Api.Exchange

/-!
# Routes

* `Route` : what a request can ask for;
* `Route.ofAddress segments` : the routes at an address, by method; fixed addresses come before those with
  an id in the same place;
* `Route.find` : the route of a request. An address without routes is tried with the slash at its
  end taken away, or with one added.
-/

namespace TaskAutomation.Api

/-- What a request can ask for. -/
inductive Route where
  | reviewRule
  | tryRule
  | runRule (id : String)
  | createRule
  | listRules
  | getRule (id : String)
  | replaceRule (id : String)
  | changeRule (id : String)
  | deleteRule (id : String)
  | switchRule (id : String)
  | history (id : String)
  | executions
  | submitEvent
  | scan
  | triggers
  | suggestions
  | health
  deriving DecidableEq, Repr

namespace Route

/-- The routes of rules, by method. -/
def ofRules : List String → List (String × Route)
  | [] => [("POST", createRule), ("GET", listRules)]
  | [id] =>
    if id.isEmpty then []
    else (if id == "validate" then [("POST", reviewRule)] else [])
      ++ (if id == "test" then [("POST", tryRule)] else [])
      ++ [("GET", getRule id), ("PUT", replaceRule id), ("PATCH", changeRule id),
        ("DELETE", deleteRule id)]
  | [id, "execute"] => if id.isEmpty then [] else [("POST", runRule id)]
  | [id, "status"] => if id.isEmpty then [] else [("PATCH", switchRule id)]
  | [id, "history"] => if id.isEmpty then [] else [("GET", history id)]
  | _ => []

/-- The routes at an address, by method. -/
def ofAddress : List String → List (String × Route)
  | "api" :: "v1" :: "rules" :: rest => ofRules rest
  | ["api", "v1", "executions"] => [("GET", executions)]
  | ["api", "v1", "automation", "events"] => [("POST", submitEvent)]
  | ["api", "v1", "automation", "scan"] => [("POST", scan)]
  | ["api", "v1", "automation", "triggers"] => [("GET", triggers)]
  | ["api", "v1", "automation", "suggestions"] => [("GET", suggestions)]
  | ["health"] => [("GET", health)]
  | _ => []

/-- The routes at a target, by method. -/
def table (t : Target) : List (String × Route) :=
  match Route.ofAddress t.segments with
  | [] => Route.ofAddress t.turned.segments
  | routes => routes

/-- The route of a request, or why there is none. -/
def find (r : Request) : Except Response Route :=
  match table r.target with
  | [] => .error (.plain 404 "Not Found")
  | routes =>
    match routes.lookup r.method with
    | some route => .ok route
    | none => .error (.plain 405 "Method Not Allowed")

end Route

end TaskAutomation.Api
