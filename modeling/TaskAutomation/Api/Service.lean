import TaskAutomation.Api.Request
import TaskAutomation.Api.Route
import TaskAutomation.Catalog
import TaskAutomation.Engine.Delivery
import TaskAutomation.Suggestion
import TaskAutomation.Text.Search
import TaskAutomation.Value.Reader

/-!
# The service

* `Service.respond` : the response to a request: its route, then its query and body, which are
  checked together, then what the route does;
* a rule is stored only if its review finds no errors;
* listings of rules are sorted by creation, the newest first, and cut to one page.
-/

namespace TaskAutomation.Api.Service

open Check Program

/-! ## Reading requests -/

/-- The value of a body, if there is one; null counts as none. -/
def bodyOf (r : Request) : Except Response (Option Value) :=
  match r.body.filter fun s => !s.isEmpty with
  | none => .ok none
  | some text =>
    let text := if text.front == Char.ofNat 0xfeff then text.drop 1 |>.toString else text
    match Json.read text with
    | .ok .null => .ok none
    | .ok v => .ok (some v)
    | .error (.invalid n) =>
      .error (.invalid [⟨[.field "body", .index n], .badJson, .obj []⟩])
    | .error _ => .error (.plain 400 "There was an error parsing the body")

/-- A body under a check. -/
def checkBody {α : Type} (check : Checker α) (s : Setting) (body : Option Value) : Checked α :=
  match body with
  | some v => (check { s with readable := true } v).under (.field "body")
  | none => (Checked.fault .missing .null).under (.field "body")

/-- Refuses a request for its issues. An issue shows the value that it found, so a value that cannot
be spelled fails the answer. -/
def refuse (found : List Issue) : Program Response :=
  if found.all fun i => i.input.allFinite then return .invalid found else .fail .notFinite

/-- Goes on with a body that passes a check. -/
def withBody {α : Type} (check : Checker α) (r : Request) (next : α → Program Response) :
    Program Response := do
  match bodyOf r with
  | .error refusal => return refusal
  | .ok body =>
    match checkBody check (← setting) body with
    | .ok a => next a
    | .issues found => refuse found

/-- Goes on with a query whose fields pass a check. -/
def withQuery {α : Type} (check : Setting → Fields → Checked α) (r : Request)
    (next : α → Program Response) : Program Response := do
  match (check (← setting) r.target.fields).under (.field "query") with
  | .ok a => next a
  | .issues found => refuse found

/-! ## Rules -/

/-- A definition that its review finds no errors in. -/
def ensureValid (definition : Fields) : Program Review := do
  let review := Review.rule (← now) definition
  if review.isValid then return review else .fail (.invalidRule review.errors)

/-- The id of a new rule: the date and a number of eight digits. -/
def newRuleId : Program String := do
  let d := (← now).date
  let day := Moment.digits 4 d.year ++ Moment.digits 2 d.month ++ Moment.digits 2 d.day
  return "rule_" ++ day ++ "_" ++ Moment.digits 8 (← fresh .rule)

/-- Stores a new rule. -/
def createRule (r : Request) : Program Response :=
  withBody RuleDraft.check r fun draft => do
    let review ← ensureValid draft.fields
    let created ← now
    let rule ← Rules.create (draft.rule (← newRuleId) created created)
    return .success (.obj [("rule_id", .str rule.id), ("created_at", .str rule.createdAt.stamp),
      ("warnings", .ofTexts review.warnings)])

/-- What a listing of rules is narrowed to. -/
structure RuleFilter where
  page : Page
  userId : Option String
  trigger : Option Trigger
  isActive : Option Bool
  nameContains : Option String

namespace RuleFilter

/-- A filter read from a query. -/
def ofFields (s : Setting) (f : Fields) : Checked RuleFilter :=
  RuleFilter.mk
    <$> Page.ofFields s f
    <*> optional s f "user_id" none (fun s v => (text s v).map some)
    <*> optional s f "trigger" none (fun s v => (Trigger.check s v).map some)
    <*> optional s f "is_active" none (fun s v => (boolean s v).map some)
    <*> optional s f "name_contains" none (fun s v => (text s v).map some)

/-- The rule passes the filter on triggers, activity and names; the case of names does not
matter. -/
def admits (x : RuleFilter) (rule : Rule) : Bool :=
  x.trigger.all (· == rule.trigger) && x.isActive.all (· == rule.isActive)
    && x.nameContains.all fun needle =>
      Text.occursIn (Text.lower needle).toList (Text.lower rule.name).toList

end RuleFilter

/-- Rules by creation, the newest first. -/
def newestFirst (rules : List Rule) : List Rule :=
  rules.mergeSort fun a b => Rules.noLater b.createdAt a.createdAt

/-- One page of the rules that pass a filter. -/
def listRules (r : Request) : Program Response :=
  withQuery RuleFilter.ofFields r fun x => do
    let stored ← match x.userId.filter fun s => !s.isEmpty with
      | some user => Rules.ofUser user
      | none => Rules.all
    let rules := newestFirst (stored.filter x.admits)
    return .page ((x.page.slice rules).map Rule.value) rules.length x.page.number x.page.size

/-- A stored rule as an answer, or that there is none. -/
def answerRule (id : String) : Option Rule → Response
  | some rule => .success rule.value
  | none => .notFound "Rule" id

/-- Goes on with a stored rule. -/
def withRule (id : String) (next : Rule → Program Response) : Program Response := do
  match ← Rules.get id with
  | some rule => next rule
  | none => return .notFound "Rule" id

/-- Goes on with a stored task. -/
def withTask (id : String) (next : Task → Program Response) : Program Response := do
  match ← Tasks.get id with
  | some task => next task
  | none => return .notFound "Task" id

/-- Replaces the definition of a stored rule. -/
def replaceRule (id : String) (r : Request) : Program Response :=
  withBody RuleDraft.check r fun draft =>
    withRule id fun existing => do
      let _ ← ensureValid draft.fields
      let replacement := draft.rule id existing.createdAt (← now)
      return answerRule id (← Rules.update id replacement)

/-- Changes parts of a stored rule. -/
def changeRule (id : String) (r : Request) : Program Response :=
  withBody RulePatch.check r fun patch =>
    withRule id fun existing => do
      let merged := Fields.merge existing.fields patch.changes
      let _ ← ensureValid merged
      let rule ← ofChecked "AutomationRule" (Rule.check (← setting) (.obj merged))
      return answerRule id (← Rules.update id rule)

/-- Removes a stored rule. -/
def deleteRule (id : String) : Program Response := do
  if ← Rules.delete id then return .told ("Rule " ++ id ++ " deleted") .null
  else return .notFound "Rule" id

/-- Makes a stored rule active, or no longer so. -/
def switchRule (id : String) (r : Request) : Program Response :=
  withBody Switch.check r fun x => do return answerRule id (← Rules.setActive id x.isActive)

/-! ## Reviews, trials and runs -/

/-- Reviews a definition. -/
def reviewRule (r : Request) : Program Response :=
  withBody ReviewRequest.check r fun x => do
    let review := Review.rule (← now) x.definition
    return .success (.obj [("valid", .bool review.isValid), ("errors", .ofTexts review.errors),
      ("warnings", .ofTexts review.warnings)])

/-- What a trial came to, as an object. -/
def trialValue (review : Review) (matched : Bool) (planned : List Action) (context : Fields)
    (error : Option String) : Value :=
  .obj [("valid", .bool review.isValid), ("errors", .ofTexts review.errors),
    ("warnings", .ofTexts review.warnings), ("would_execute", .bool matched),
    ("planned_actions", .list (planned.map Trial.plannedValue)), ("context", .obj context),
    ("error", .ofText? error)]

/-- Tries a rule on the task of a request. -/
def tryOn (rule : Rule) (x : TrialRequest) : Program Response := do
  let tryWith (task : Task) : Program Response := do
    let t ← Engine.trial rule (x.details.occurrence rule.trigger task (← now))
    return .success (trialValue t.review t.matched t.planned t.context t.error).storable
  match x.taskId, x.task with
  | some id, _ => withTask id tryWith
  | none, some task => tryWith task
  | none, none => return .notFound "Task" ""

/-- Tries a stored rule or a draft, which is only tried if it is valid. -/
def tryRule (r : Request) : Program Response :=
  withBody TrialRequest.check r fun x => do
    match x.ruleId, x.rule with
    | some id, _ => withRule id fun rule => tryOn rule x
    | none, some draft =>
      let moment ← now
      let review := Review.rule moment draft.fields
      if review.isValid then tryOn (draft.rule "dry_run" moment moment) x
      else return .success (trialValue review false [] [] none)
    | none, none => return .notFound "Rule" ""

/-- Runs a stored rule on a stored task. -/
def runRule (e : Engine) (id : String) (r : Request) : Program Response :=
  withBody RunRequest.check r fun x =>
    withRule id fun rule =>
      withTask x.taskId fun task => do
        let occurrence := x.details.occurrence rule.trigger task (← now)
        let outcome ← e.execute rule occurrence false
        return .success (.obj [("matched", .bool outcome.matched),
          ("record", (outcome.record.map Execution.value).getD .null)])

/-! ## Histories -/

/-- A status that a listing is narrowed to, if any. -/
def statusFilter (s : Setting) (f : Fields) : Checked (Option ExecutionStatus) :=
  optional s f "status" none fun s v => (ExecutionStatus.check s v).map some

/-- One page of records. -/
def pageOf (page : Page) (status : Option ExecutionStatus) (records : List Execution) : Response :=
  let records := records.filter fun x => status.all (· == x.status)
  .page ((page.slice records).map Execution.value) records.length page.number page.size

/-- The records of a stored rule. -/
def history (id : String) (r : Request) : Program Response :=
  withQuery (fun s f => Prod.mk <$> Page.ofFields s f <*> statusFilter s f) r fun (page, status) =>
    withRule id fun _ => do return pageOf page status (← Rules.runs (some id) none)

/-- The records of a user. -/
def executions (r : Request) : Program Response :=
  withQuery (fun s f =>
    (fun page user status => (page, user, status)) <$> Page.ofFields s f
      <*> required s f "user_id" (textWithin 1 none) <*> statusFilter s f) r
    fun (page, user, status) => do return pageOf page status (← Rules.runs none (some user))

/-! ## Events, scans and suggestions -/

/-- What came of one rule for an event, as an object. -/
def outcomeValue (o : RuleOutcome) : Value :=
  .obj [("rule_id", .str o.ruleId), ("matched", .bool o.matched),
    ("execution_id", .ofText? (o.record.map Execution.id)),
    ("status", .ofText? (o.record.map fun x => x.status.name)),
    ("skipped_reason", .ofText? o.skipped), ("error", .ofText? o.error)]

/-- What came of an event, as an object. -/
def eventValue (event : Event) (o : Option TriggerOutcome) : Value :=
  .obj [("trigger", .str event.type.name), ("task_id", .str event.task.id),
    ("duplicate", .bool o.isNone),
    ("executed_count", .int ((o.map TriggerOutcome.executedCount).getD 0)),
    ("outcomes", .list ((o.map TriggerOutcome.outcomes).getD [] |>.map outcomeValue)),
    ("error", .ofText? (o.bind TriggerOutcome.error))]

/-- Handles an event. -/
def submitEvent (e : Engine) (r : Request) : Program Response :=
  withBody Event.check r fun event => do
    let outcome ← Delivery.handle e event
    let value := eventValue event outcome
    return if outcome.isSome then .success value else .told "Event already processed" value

/-- Scans now. -/
def scan (e : Engine) : Program Response := do
  return .success (← Scan.all e (← now)).value

/-- Suggests rules from the newest tasks of a user. -/
def suggestions (r : Request) : Program Response :=
  withQuery (fun s f =>
    Prod.mk <$> required s f "user_id" (textWithin 1 none)
      <*> optional s f "limit" 100 (boundedInteger { least := some 1, most := some 500 })) r
    fun (user, limit) => do
      let found := Suggestion.ofTasks (← now) (← Tasks.recent user limit)
      return .success (.list (found.map Suggestion.value))

/-! ## All routes -/

/-- What a route does. -/
def serve (e : Engine) (r : Request) : Route → Program Response
  | .reviewRule => reviewRule r
  | .tryRule => tryRule r
  | .runRule id => runRule e id r
  | .createRule => createRule r
  | .listRules => listRules r
  | .getRule id => do return answerRule id (← Rules.get id)
  | .replaceRule id => replaceRule id r
  | .changeRule id => changeRule id r
  | .deleteRule id => deleteRule id
  | .switchRule id => switchRule id r
  | .history id => history id r
  | .executions => executions r
  | .submitEvent => submitEvent e r
  | .scan => scan e
  | .triggers => return .success (.list (Catalog.entries.map Catalog.Entry.value))
  | .suggestions => suggestions r
  | .health =>
    return ⟨200, .obj [("status", .str "ok"), ("version", .str e.settings.appVersion)]⟩

/-- The response to a request. -/
def respond (e : Engine) (r : Request) : Program Response := do
  match Route.find r with
  | .error refusal => return refusal
  | .ok route =>
    match ← attempt (serve e r route) with
    | .ok response => return response
    | .error f => return .ofFailure e.settings.debug f

end TaskAutomation.Api.Service
