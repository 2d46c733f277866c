import TaskAutomation.Execution

/-!
# Metrics

* `Metric` : what is counted while the engine works, with the labels of the count;
* `Metric.text` : the name of a count with its labels in order.
-/

namespace TaskAutomation

/-- What is counted. -/
inductive Metric where
  | triggerReceived (trigger : Trigger) (byScan : Bool)
  | ruleEvaluated (trigger : Trigger) (matched : Bool)
  | ruleExecuted (trigger : String) (status : ExecutionStatus)
  | ruleDeduplicated (trigger : Trigger)
  | actionExecuted (type : String) (succeeded : Bool)
  | notification (delivered : Bool)
  | scan
  deriving DecidableEq, Repr

namespace Metric

/-- A name with labels between braces. -/
def labelled (name : String) (labels : List (String × String)) : String :=
  name ++ "\x7b" ++ String.intercalate "," (labels.map fun (k, v) => k ++ "=" ++ v) ++ "\x7d"

/-- The name of a count with its labels. -/
def text : Metric → String
  | .triggerReceived trigger byScan => labelled "taskrules_triggers_received_total"
    [("source", if byScan then "scan" else "event"), ("trigger", trigger.name)]
  | .ruleEvaluated trigger matched => labelled "taskrules_rules_evaluated_total"
    [("matched", if matched then "true" else "false"), ("trigger", trigger.name)]
  | .ruleExecuted trigger status => labelled "taskrules_rule_executions_total"
    [("status", status.name), ("trigger", trigger)]
  | .ruleDeduplicated trigger => labelled "taskrules_rule_executions_deduplicated_total"
    [("trigger", trigger.name)]
  | .actionExecuted type succeeded => labelled "taskrules_actions_executed_total"
    [("action_type", type), ("status", if succeeded then "success" else "failed")]
  | .notification delivered => labelled "taskrules_notifications_sent_total"
    [("status", if delivered then "delivered" else "rate_limited")]
  | .scan => labelled "taskrules_scan_duration_seconds_count" []

end Metric

end TaskAutomation
