/-!
# Keys of the store

* `Key` : what is kept in the store, by kind and id;
* `Key.render` : the text of a key. Kinds differ in their fronts, and the minute of a rate is of
  fixed length at the end, so ids may hold any characters.
-/

namespace TaskAutomation

/-- What is kept in the store. -/
inductive Key where
  | ruleDetail (ruleId : String)
  | ruleAll
  | ruleUser (userId : String)
  | ruleTrigger (trigger : String)
  | executionsRule (ruleId : String)
  | executionsUser (userId : String)
  | taskDetail (taskId : String)
  | taskUser (userId : String)
  | taskDue (userId : String)
  | taskClient (clientId : String)
  | taskParent (parentId : String)
  | taskDependents (taskId : String)
  | dependency (dependencyId : String)
  | assignment (assignmentId : String)
  | processed (eventId : String)
  | executionDedup (key : String)
  | inbox (userId : String)
  | activity (taskId : String)
  | notifyRate (userId minute : String)
  deriving DecidableEq, Repr

namespace Key

/-- The text of a key. -/
def render : Key → String
  | .ruleDetail id => "taskrules:rules:detail:" ++ id
  | .ruleAll => "taskrules:rules:all"
  | .ruleUser id => "taskrules:rules:user:" ++ id
  | .ruleTrigger t => "taskrules:rules:trigger:" ++ t
  | .executionsRule id => "taskrules:executions:rule:" ++ id
  | .executionsUser id => "taskrules:executions:user:" ++ id
  | .taskDetail id => "taskrules:tasks:detail:" ++ id
  | .taskUser id => "taskrules:tasks:user:" ++ id
  | .taskDue id => "taskrules:tasks:due:" ++ id
  | .taskClient id => "taskrules:tasks:client:" ++ id
  | .taskParent id => "taskrules:tasks:parent:" ++ id
  | .taskDependents id => "taskrules:tasks:dependents:" ++ id
  | .dependency id => "taskrules:dependencies:" ++ id
  | .assignment id => "taskrules:assignments:" ++ id
  | .processed id => "taskrules:processed:" ++ id
  | .executionDedup key => "taskrules:dedup:" ++ key
  | .inbox id => "taskrules:inbox:" ++ id
  | .activity id => "taskrules:activity:" ++ id
  | .notifyRate id minute => "taskrules:notify:rate:" ++ id ++ ":" ++ minute

end Key

end TaskAutomation
