import TaskAutomation.Settings
import TaskAutomation.Trace

/-!
# Log lines

* `Log.Level` : the levels at which lines are written;
* `Log.line?` : the line of an event, an object; later sources win over earlier ones, which are the
  trace's id, the fields bound to the logger and the fields of the event; service, version and
  component are added where no source gives them;
* a line below the level of the settings is not written.
-/

namespace TaskAutomation.Log

/-- The levels at which lines are written. -/
inductive Level where
  | debug
  | info
  | warning
  | error
  | critical
  deriving DecidableEq, Repr

namespace Level

/-- Every level, the least grave first. -/
def all : List Level := [.debug, .info, .warning, .error, .critical]

/-- The word for a level. -/
def name : Level → String
  | .debug => "debug"
  | .info => "info"
  | .warning => "warning"
  | .error => "error"
  | .critical => "critical"

/-- The level of a word; some levels have a second one. -/
def ofName? (s : String) : Option Level :=
  match s with
  | "warn" => some .warning
  | "exception" => some .error
  | "fatal" => some .critical
  | "msg" => some .info
  | s => all.find? (·.name == s)

/-- How grave a level is. -/
def rank : Level → Nat
  | .debug => 0
  | .info => 1
  | .warning => 2
  | .error => 3
  | .critical => 4

end Level

/-- How grave a line has to be under a setting. -/
def threshold : LogLevel → Nat
  | .debug => 0
  | .info => 1
  | .warning => 2
  | .error => 3

/-- One call of a logger. -/
structure Entry where
  level : Level
  event : String
  fields : Fields

/-- A logger of a component, with the fields bound to it. -/
structure Logger where
  component : String
  bound : Fields

/-- Sets a field that is not there yet. -/
def setDefault (f : Fields) (key value : String) : Fields :=
  if f.has key then f else Fields.put f key (.str value)

/-- The fields that are not data of a line but ask for a trace of the calls. -/
def isControl (key : String) : Bool := key == "exc_info" || key == "stack_info"

/-- The line of an event, if its level is grave enough. -/
def line? (s : Settings) (l : Logger) (trace : Trace.State) (now : Moment) (e : Entry) :
    Option Fields :=
  if e.level.rank < threshold s.logLevel then none
  else
    let traced : Fields := match trace.stamp with
      | some id => [("trace_id", .str id)]
      | none => []
    let given := Fields.put (Fields.merge (Fields.merge traced l.bound) e.fields) "event" (.str e.event)
    let named := setDefault (setDefault (setDefault given "service" s.appName)
      "version" s.appVersion) "component" l.component
    let stamped := Fields.put (Fields.put named "level" (.str e.level.name))
      "timestamp" (.str ((now.toUtc?.getD now).wallText ++ "Z"))
    some (stamped.filter fun (k, _) => !isControl k)

end TaskAutomation.Log
