import TaskAutomation.Program
import TaskAutomation.Rule
import TaskAutomation.Settings

/-!
# The rule store

* `Rules.create`, `Rules.get`, `Rules.update`, `Rules.setActive`, `Rules.delete` : each rule is a
  table with its definition; whether it is active, how often it ran and when it ran last are cells
  of their own, so that a run counts without a new definition;
* `Rules.all`, `Rules.ofUser`, `Rules.active` : stored rules, the oldest first;
* `Rules.usersWithActive` : the users that own an active rule on one of some triggers;
* `Rules.countRun`, `Rules.recordRun`, `Rules.runs` : the history of runs, for each rule and for
  each user, cut to the newest ones.
-/

namespace TaskAutomation.Rules

open Check Program

/-- An operation of the rule store. -/
def operation (name : String) : Operation := ⟨"rules", name⟩

/-- A truth value as a cell. -/
def flagCell (b : Bool) : Cell := .text (if b then "true" else "false")

/-- A moment or nothing as a cell. -/
def momentCell : Option Moment → Cell
  | some m => .moment m
  | none => .text ""

/-- Stores a rule and enters it into the indexes of its user and trigger. -/
def create (rule : Rule) : Program Rule :=
  (operation "create").guard none do
    store (.tableSet (.ruleDetail rule.id) [("config", .ofDocument rule.fields),
      ("is_active", flagCell rule.isActive), ("execution_count", .count rule.executionCount),
      ("last_executed", momentCell rule.lastExecuted)])
    store (.setAdd .ruleAll rule.id)
    store (.setAdd (.ruleUser rule.userId) rule.id)
    store (.setAdd (.ruleTrigger rule.trigger.name) rule.id)
    return rule

/-- The cell says that the rule is active; without one it is. -/
def isActiveCell : Option Cell → Bool
  | some (.text s) => s == "true"
  | some _ => false
  | none => true

/-- The moment in a cell. -/
def momentOf : Option Cell → Option Moment
  | some (.moment m) => some m
  | _ => none

/-- A rule's definition with what its other cells say. -/
def assemble (rule : Rule) (cells : List (String × Cell)) : Rule :=
  { rule with
    isActive := isActiveCell (cells.lookup "is_active")
    executionCount := Command.countOf (cells.lookup "execution_count")
    lastExecuted := momentOf (cells.lookup "last_executed") }

/-- A stored rule. -/
def get (id : String) : Program (Option Rule) :=
  (operation "get").guard (some (.str id)) do
    let cells : List (String × Cell) ← store (.tableAll (.ruleDetail id))
    match (cells.lookup "config").bind Cell.document? with
    | none => return none
    | some v =>
      let rule ← ofChecked "AutomationRule" (Rule.check (← setting) v)
      return some (assemble rule cells)

/-- Writes the definition of a rule and whether it is active. -/
def writeDefinition (id : String) (rule : Rule) : Program Unit :=
  store (.tableSet (.ruleDetail id)
    [("config", .ofDocument rule.fields), ("is_active", flagCell rule.isActive)])

/-- Replaces the definition of a stored rule, which keeps its identity and its counts. -/
def update (id : String) (rule : Rule) : Program (Option Rule) :=
  (operation "update").guard (some (.str id)) do
    match ← get id with
    | none => return none
    | some existing =>
      let updated := { rule with
        id := id
        userId := existing.userId
        createdAt := existing.createdAt
        updatedAt := ← now
        executionCount := existing.executionCount
        lastExecuted := existing.lastExecuted }
      if existing.trigger ≠ updated.trigger then
        store (.setRemove (.ruleTrigger existing.trigger.name) id)
        store (.setAdd (.ruleTrigger updated.trigger.name) id)
      writeDefinition id updated
      return some updated

/-- Removes a rule; the history of its runs stays. -/
def delete (id : String) : Program Bool :=
  (operation "delete").guard (some (.str id)) do
    match ← get id with
    | none => return false
    | some existing =>
      store (.setRemove (.ruleTrigger existing.trigger.name) id)
      store (.setRemove (.ruleUser existing.userId) id)
      store (.setRemove .ruleAll id)
      store (.delete (.ruleDetail id))
      return true

/-- Makes a stored rule active, or no longer so. -/
def setActive (id : String) (isActive : Bool) : Program (Option Rule) :=
  (operation "set_active").guard (some (.str id)) do
    match ← get id with
    | none => return none
    | some existing =>
      let rule := { existing with isActive := isActive, updatedAt := ← now }
      writeDefinition id rule
      return some rule

/-! ## Listings -/

/-- One moment is no later than another. -/
def noLater (a b : Moment) : Bool := decide (a.instant ≤ b.instant)

/-- The moments can be put in order: all of them have an offset, or none has. -/
def comparable (ms : List Moment) : Bool :=
  ms.all Moment.isNaive || ms.all fun m => !m.isNaive

/-- Rules by the time of their creation, those created at once in their given order. -/
def oldestFirst (rules : List Rule) : Except Failure (List Rule) :=
  if comparable (rules.map Rule.createdAt) then
    .ok (rules.mergeSort fun a b => noLater a.createdAt b.createdAt)
  else .error .mixedClocks

/-- The rules of some ids that are stored, the oldest first. -/
def load (ids : List String) : Program (List Rule) :=
  (operation "_load").guard none do
    let rules := (← each get ids).filterMap id
    ofExcept (oldestFirst rules)

/-- Every stored rule. -/
def all : Program (List Rule) :=
  (operation "list_all").guard none do
    let ids : List String ← store (.setMembers .ruleAll)
    load ids

/-- The stored rules of a user. -/
def ofUser (userId : String) : Program (List Rule) :=
  (operation "list_by_user").guard (some (.str userId)) do
    let ids : List String ← store (.setMembers (.ruleUser userId))
    load ids

/-- The active rules of a user on a trigger. -/
def active (userId : String) (trigger : Trigger) : Program (List Rule) :=
  (operation "list_active_rules_by_trigger").guard (some (.str userId)) do
    let ids : List String ← store (.setShared (.ruleUser userId) (.ruleTrigger trigger.name))
    return (← load ids).filter Rule.isActive

/-- The users that own an active rule on one of some triggers, in order. -/
def usersWithActive (triggers : List Trigger) : Program (List String) :=
  (operation "list_users_with_active_rules").guard (some (.ofTexts (triggers.map Trigger.name))) do
    match triggers with
    | [] => return []
    | _ =>
      let ids : List String ← store (.setUnion (triggers.map fun t => .ruleTrigger t.name))
      let users := ((← load ids).filter Rule.isActive).map Rule.userId
      return (users.mergeSort fun a b => decide (a ≤ b)).eraseDups

/-! ## Runs -/

/-- Counts a run of a stored rule. -/
def countRun (id : String) (ranAt : Moment) : Program Unit :=
  (operation "increment_execution").guard (some (.str id)) do
    let there : Bool ← store (.has (.ruleDetail id))
    if there then
      store (.tableIncrement (.ruleDetail id) "execution_count")
      store (.tableSet (.ruleDetail id) [("last_executed", .moment ranAt)])

/-- Puts a record in front of a list that is cut to a length. -/
def pushBounded (key : Key) (cell : Cell) (limit : Int) : Program Unit := do
  store (.push key cell)
  store (.trim key (limit - 1))

/-- Records a run for its rule and for its user. -/
def recordRun (s : Settings) (run : Execution) : Program Unit :=
  (operation "record_execution").guardFor (.record run) do
    let cell := Cell.ofDocument run.fields
    pushBounded (.executionsRule run.ruleId) cell s.historyLimit
    pushBounded (.executionsUser run.userId) cell s.historyLimit

/-- A record of a run in a cell. -/
def runOf (cell : Cell) : Program Execution := do
  ofChecked "ExecutionRecord" (Execution.check (← setting) (cell.document?.getD .null))

/-- The recorded runs of a rule, or else of a user, the newest first. -/
def runs (ruleId userId : Option String) : Program (List Execution) :=
  (operation "list_executions").guard none do
    let key ← match ruleId.filter fun s => !s.isEmpty, userId.filter fun s => !s.isEmpty with
      | some id, _ => pure (Key.executionsRule id)
      | none, some id => pure (Key.executionsUser id)
      | none, none => .fail .noOwner
    let cells : List Cell ← store (.range key (-1))
    each runOf cells

end TaskAutomation.Rules
