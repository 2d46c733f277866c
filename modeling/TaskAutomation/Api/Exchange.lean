import TaskAutomation.Failure
import TaskAutomation.Text.Percent

/-!
# Requests and responses

* `Target` : the segments of an address and its query;
* `Request` : a method, a target and a body; `Response` : a status and a body;
* `Response.success`, `Response.page`, `Response.problem` : the envelopes that bodies come in.
-/

namespace TaskAutomation.Api

open Check

/-- The segments of an address and its query. -/
structure Target where
  segments : List String
  query : List (String × String)
  deriving Repr

namespace Target

/-- A name or value of a query with its escapes read. -/
def queryText (s : String) : String :=
  Text.percentDecode (s.map fun c => if c == '+' then ' ' else c)

/-- One pair of a query. -/
def pair (s : String) : String × String :=
  match s.splitOn "=" with
  | [] => ("", "")
  | name :: rest => (queryText name, queryText (String.intercalate "=" rest))

/-- The pairs of a query. -/
def pairs (s : String) : List (String × String) :=
  ((s.splitOn "&").filter fun p => !p.isEmpty).map pair

/-- The target of an address; further pairs come after those of the address itself. -/
def read (address : String) (more : List (String × String)) : Target :=
  let address := (address.splitOn "#").headD ""
  match address.splitOn "?" with
  | [] => ⟨[], more⟩
  | path :: rest =>
    ⟨((Text.percentDecode path).splitOn "/").drop 1, pairs (String.intercalate "?" rest) ++ more⟩

/-- The query as an object; the last of several values of a name counts. -/
def fields (t : Target) : Fields := Fields.ofList (t.query.map fun (k, v) => (k, .str v))

/-- The target with a slash more, or less, at its end. -/
def turned (t : Target) : Target :=
  { t with segments := if t.segments.getLast? == some "" then t.segments.dropLast
                       else t.segments ++ [""] }

end Target

/-- What is asked. -/
structure Request where
  method : String
  target : Target
  body : Option String
  deriving Repr

/-- What is answered. -/
structure Response where
  status : Nat
  body : Value

namespace Response

/-- A body with a code, a message and data. -/
def envelope (code : Nat) (message : String) (data : Value) : Fields :=
  [("code", .int code), ("message", .str message), ("data", data)]

/-- An answer with data. -/
def success (data : Value) : Response := ⟨200, .obj (envelope 0 "success" data)⟩

/-- An answer with a message of its own. -/
def told (message : String) (data : Value) : Response := ⟨200, .obj (envelope 0 message data)⟩

/-- An answer with one page of a list and the length of the whole. -/
def page (items : List Value) (total : Nat) (number size : Int) : Response :=
  ⟨200, .obj (envelope 0 "success" (.list items) ++
    [("total", .int total), ("page", .int number), ("page_size", .int size)])⟩

/-- A refusal, with its status as its code. -/
def problem (status : Nat) (message : String) (data : Value) : Response :=
  ⟨status, .obj (envelope status message data)⟩

/-- A refusal of the server itself. -/
def plain (status : Nat) (detail : String) : Response := ⟨status, .obj [("detail", .str detail)]⟩

/-- Nothing is stored under an id. -/
def notFound (noun id : String) : Response := problem 404 (noun ++ " " ++ id ++ " not found") .null

/-- An issue as an object. -/
def issueValue (i : Issue) : Value :=
  .obj [("loc", .list (i.path.map Step.value)), ("type", .str i.cause.kind),
    ("msg", .str i.cause.message)]

/-- The issues of a request. -/
def invalid (issues : List Issue) : Response :=
  problem 422 "Validation error" (.list (issues.map issueValue))

/-- What became of a request that failed; what went wrong is told only for debugging. -/
def ofFailure (debug : Bool) : Failure → Response
  | .invalidRule errors =>
    problem 422 (Failure.message (.invalidRule errors)) (.obj [("errors", .ofTexts errors)])
  | f => problem 500 "Internal server error" (if debug then .str f.message else .null)

end Response

end TaskAutomation.Api
