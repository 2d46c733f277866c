import TaskAutomation.Proofs.Inbox.Minute
import TaskAutomation.Proofs.Program.Footprint
import TaskAutomation.Store.Claims
import TaskAutomation.Store.Rules
import TaskAutomation.Store.Tasks
import TaskAutomation.Store.Timeline

/-!
# The keys of each operation

Every operation of the stores reads and writes the keys of the things that it is about, and no others:
keys of their kind, with their ids.

* `Rules.Names rule`, `Tasks.Names task previous` : the keys under which a rule or a task is stored and
  indexed; `Listed index ids detail` : those of an index, and of what it lists;
* `OfStores p own` : the operations of the stores, each with the keys that it is about in a world;
* `OfStores.staysIn` : every run of one uses these keys only;
* `Key.texts_apart` : keys differ in their texts, so no operation reads or writes what is under the text of
  another kind or another id.
-/

namespace TaskAutomation

open Check Program

variable {α : Type} {area : Key → Prop} {w : World}

namespace Program

/-- A command on one key. -/
theorem Within.uses {c : Command} {k : Key} (h : c.keys = [k]) (hk : k.Stamped) (harea : area k) :
    (Program.store c).Within (Call.Uses area) := by
  refine .store fun l hl => ?_
  rw [h, List.mem_singleton] at hl
  exact hl ▸ ⟨hk, harea⟩

/-- What follows a command gets its answer. -/
theorem StaysIn.after_store {c : Command} {g : c.Reply → Program α}
    (hc : ∀ k ∈ c.keys, k.Stamped ∧ area k)
    (hg : (g (c.run w.clock.instant w.store).1).StaysIn area (w.after c)) :
    (Program.store c >>= g).StaysIn area w := by
  refine .bind (.of_within (.store hc)) fun reply w' hrun => ?_
  cases hrun
  exact hg

end Program

/-- The keys of an index, and of what it lists. -/
def Listed (index : List Key) (ids : List String) (detail : String → Key) (k : Key) : Prop :=
  k ∈ index ∨ ∃ id ∈ ids, k = detail id

/-- A listing asks an index, and then for what it lists. -/
theorem Program.StaysIn.listing {c : Command} {g : c.Reply → Program α} {ids : List String}
    {detail : String → Key} (hindex : ∀ k ∈ c.keys, k.Stamped)
    (hg : (g (c.run w.clock.instant w.store).1).Within (Call.Uses (Listed c.keys ids detail))) :
    (Program.store c >>= g).StaysIn (Listed c.keys ids detail) w :=
  .after_store (fun k hk => ⟨hindex k hk, .inl hk⟩) (.of_within hg)

/-! ## Rules -/

namespace Rules

/-- The keys that a rule is stored and indexed under. -/
inductive Names (rule : Rule) : Key → Prop where
  | detail : Names rule (.ruleDetail rule.id)
  | all : Names rule .ruleAll
  | user : Names rule (.ruleUser rule.userId)
  | trigger : Names rule (.ruleTrigger rule.trigger.name)

/-- A rule that a world has under an id. -/
def Found (w : World) (id : String) (rule : Rule) : Prop := ((get id).run w).1 = .ok (some rule)

/-- The keys of a rule that another definition replaces. -/
inductive Replaces (w : World) (id : String) (rule : Rule) : Key → Prop where
  | detail : Replaces w id rule (.ruleDetail id)
  | old {existing : Rule} (h : Found w id existing) :
    Replaces w id rule (.ruleTrigger existing.trigger.name)
  | new : Replaces w id rule (.ruleTrigger rule.trigger.name)

/-- The keys of a rule that goes. -/
inductive Removes (w : World) (id : String) : Key → Prop where
  | detail : Removes w id (.ruleDetail id)
  | all : Removes w id .ruleAll
  | user {existing : Rule} (h : Found w id existing) : Removes w id (.ruleUser existing.userId)
  | trigger {existing : Rule} (h : Found w id existing) :
    Removes w id (.ruleTrigger existing.trigger.name)

theorem uses_get {id : String} (h : area (.ruleDetail id)) : (get id).Within (Call.Uses area) := by
  refine .guard trivial (.bind (.uses rfl trivial h) fun cells => ?_)
  split
  · exact .done _
  · exact .bind (.setting trivial) fun s => .bind (.ofChecked _ _) fun rule => .done _

theorem uses_load {ids : List String} (h : ∀ id ∈ ids, area (.ruleDetail id)) :
    (load ids).Within (Call.Uses area) :=
  .guard trivial (.bind (.each fun id hid => uses_get (h id hid)) fun _ => .ofExcept _)

theorem uses_create (rule : Rule) : (create rule).Within (Call.Uses (Names rule)) :=
  .guard trivial (.bind (.uses rfl trivial .detail) fun _ => .bind (.uses rfl trivial .all) fun _ =>
    .bind (.uses rfl trivial .user) fun _ => .bind (.uses rfl trivial .trigger) fun _ => .done _)

theorem staysIn_update (id : String) (rule : Rule) :
    (update id rule).StaysIn (Replaces w id rule) w := by
  refine .guard (.bind (.of_within (uses_get .detail)) fun found w' hget => .of_within ?_)
  cases found with
  | none => exact .done _
  | some existing =>
    have hfound : Found w id existing := congrArg Prod.fst hget
    have hwrite : ∀ updated : Rule, (do
        writeDefinition id updated
        return some updated : Program (Option Rule)).Within (Call.Uses (Replaces w id rule)) :=
      fun updated => .bind (.uses rfl trivial .detail) fun _ => .done _
    refine .bind (.call trivial) fun now => ?_
    dsimp only
    split
    · exact .bind (.uses rfl trivial (.old hfound)) fun _ =>
        .bind (.uses rfl trivial .new) fun _ => hwrite _
    · exact hwrite _

theorem staysIn_delete (id : String) : (delete id).StaysIn (Removes w id) w := by
  refine .guard (.bind (.of_within (uses_get .detail)) fun found w' hget => .of_within ?_)
  cases found with
  | none => exact .done _
  | some existing =>
    have hfound : Found w id existing := congrArg Prod.fst hget
    exact .bind (.uses rfl trivial (.trigger hfound)) fun _ =>
      .bind (.uses rfl trivial (.user hfound)) fun _ => .bind (.uses rfl trivial .all) fun _ =>
        .bind (.uses rfl trivial .detail) fun _ => .done _

theorem uses_setActive (id : String) (isActive : Bool) :
    (setActive id isActive).Within (Call.Uses (· = .ruleDetail id)) := by
  refine .guard trivial (.bind (uses_get rfl) fun found => ?_)
  cases found with
  | none => exact .done _
  | some existing =>
    refine .bind (.call trivial) fun now => ?_
    exact .bind (.uses rfl trivial rfl) fun _ => .done _

/-- The details of the rules that an index lists. -/
theorem uses_load_listed (index : List Key) (ids : List String) :
    (load ids).Within (Call.Uses (Listed index ids .ruleDetail)) :=
  uses_load fun id hid => .inr ⟨id, hid, rfl⟩

theorem staysIn_all :
    all.StaysIn (Listed [.ruleAll] (w.store.members w.clock.instant .ruleAll) .ruleDetail) w :=
  .guard (.listing (List.forall_mem_singleton.mpr trivial) (uses_load_listed _ _))

theorem staysIn_ofUser (userId : String) : (ofUser userId).StaysIn (Listed [.ruleUser userId]
    (w.store.members w.clock.instant (.ruleUser userId)) .ruleDetail) w :=
  .guard (.listing (List.forall_mem_singleton.mpr trivial) (uses_load_listed _ _))

/-- The ids of the rules of a user on a trigger. -/
def shared (w : World) (userId : String) (trigger : Trigger) : List String :=
  ((Command.setShared (.ruleUser userId) (.ruleTrigger trigger.name)).run w.clock.instant w.store).1

theorem staysIn_active (userId : String) (trigger : Trigger) :
    (active userId trigger).StaysIn (Listed [.ruleUser userId, .ruleTrigger trigger.name]
      (shared w userId trigger) .ruleDetail) w := by
  refine .guard (.listing ?_ (.bind (uses_load_listed _ _) fun _ => .done _))
  exact List.forall_mem_cons.mpr ⟨trivial, List.forall_mem_singleton.mpr trivial⟩

/-- The ids of the rules on some triggers. -/
def onAny (w : World) (triggers : List Trigger) : List String :=
  ((Command.setUnion (triggers.map fun t => .ruleTrigger t.name)).run w.clock.instant w.store).1

theorem staysIn_usersWithActive (triggers : List Trigger) :
    (usersWithActive triggers).StaysIn (Listed (triggers.map fun t => .ruleTrigger t.name)
      (onAny w triggers) .ruleDetail) w := by
  refine .guard ?_
  cases triggers with
  | nil => exact .of_within (.done _)
  | cons t rest =>
    refine .listing ?_ (.bind (uses_load_listed _ _) fun _ => .done _)
    intro k hk
    obtain ⟨t, -, rfl⟩ := List.mem_map.mp hk
    trivial

/-! ### Runs -/

theorem uses_countRun (id : String) (ranAt : Moment) :
    (countRun id ranAt).Within (Call.Uses (· = .ruleDetail id)) := by
  refine .guard trivial (.bind (.uses rfl trivial rfl) fun there => ?_)
  split
  · exact .bind (.uses rfl trivial rfl) fun _ => .uses rfl trivial rfl
  · exact .done _

theorem uses_pushBounded {key : Key} (hkey : key.Stamped) (harea : area key) (cell : Cell)
    (limit : Int) : (pushBounded key cell limit).Within (Call.Uses area) :=
  .bind (.uses rfl hkey harea) fun _ => .uses rfl hkey harea

theorem uses_recordRun (s : Settings) (run : Execution) : (recordRun s run).Within
    (Call.Uses fun k => k = .executionsRule run.ruleId ∨ k = .executionsUser run.userId) := by
  have hrule : (Key.executionsRule run.ruleId).Stamped := trivial
  have huser : (Key.executionsUser run.userId).Stamped := trivial
  exact .guardFor trivial (.bind (uses_pushBounded hrule (.inl rfl) _ _) fun _ =>
    uses_pushBounded huser (.inr rfl) _ _)

theorem uses_runs (ruleId userId : Option String) : (runs ruleId userId).Within (Call.Uses fun k =>
    (∃ id ∈ ruleId, k = .executionsRule id) ∨ ∃ id ∈ userId, k = .executionsUser id) := by
  have hrange : ∀ {area : Key → Prop} (key : Key), key.Stamped → area key →
      Program.Within (Call.Uses area) (do
        let cells : List Cell ← store (.range key (-1))
        each runOf cells) := fun key hkey harea =>
    .bind (.uses rfl hkey harea) fun cells => .each fun cell _ =>
      .bind (.setting trivial) fun s => .ofChecked _ _
  refine .guard trivial ?_
  dsimp only
  split
  · next id hrule =>
    have hid := (Option.filter_eq_some_iff.mp hrule).1
    exact hrange (.executionsRule id) trivial (.inl ⟨id, hid, rfl⟩)
  · next id hrule huser =>
    have hid := (Option.filter_eq_some_iff.mp huser).1
    exact hrange (.executionsUser id) trivial (.inr ⟨id, hid, rfl⟩)
  · exact .fail _

end Rules

/-! ## Tasks -/

namespace Tasks

/-- The keys that a task is stored and indexed under, those that it leaves included. -/
inductive Names (task : Task) (previous : Option Task) : Key → Prop where
  | detail : Names task previous (.taskDetail task.id)
  | user : Names task previous (.taskUser task.userId)
  | due : Names task previous (.taskDue task.userId)
  | client {c : String} (h : previous.bind Task.clientId = some c ∨ task.clientId = some c) :
    Names task previous (.taskClient c)
  | parent {p : String} (h : previous.bind Task.parentTaskId = some p ∨ task.parentTaskId = some p) :
    Names task previous (.taskParent p)

/-- The next id with a word in front. -/
def nextId (w : World) (front : String) : String :=
  front ++ "_" ++ Moment.digits 12 (w.counter .task + 1)

/-- The id that a new task gets. -/
def idOf (w : World) (fields : Fields) : Value :=
  ((fields.get? "id").filter Value.truthy).getD (.str (nextId w "task"))

/-- The keys of a new task. -/
def Creates (w : World) (fields : Fields) (k : Key) : Prop :=
  ∃ task, Task.check { now := w.clock } (.obj (fields.put "id" (idOf w fields))) = .ok task
    ∧ Names task none k

/-- The keys of a task that changes. -/
def Changes (w : World) (id : String) (fields : Fields) (k : Key) : Prop :=
  k = .taskDetail id ∨ ∃ existing task, ((get id).run w).1 = .ok (some existing)
    ∧ revise { now := w.clock } existing fields = .ok task ∧ Names task (some existing) k

/-- A change of one of several tasks. -/
def changeOne (fields : Fields) (id : String) : Program String := do
  let _ ← update id fields
  return id

/-- The keys of tasks that change one after another. -/
def ChangesEach (w : World) (ids : List String) (fields : Fields) (k : Key) : Prop :=
  ∃ before id after, ids = before ++ id :: after ∧ ∃ done w',
    (each (changeOne fields) before).run w = (.ok done, w') ∧ Changes w' id fields k

/-- The ids of all related tasks but one, in order. -/
def remaining (w : World) (key : Key) (except : String) : List String :=
  ((w.store.members w.clock.instant key).mergeSort fun a b => decide (a ≤ b)).filter (· != except)

/-- The keys of related tasks of which one field is set. -/
def Related (w : World) (field : String) (value : Value) (except : String) (r : Relation)
    (k : Key) : Prop :=
  ∃ key, r.key? = some key ∧ (k = key ∨ ChangesEach w (remaining w key except) [(field, value)] k)

/-- The keys of a new dependency. -/
def Depends (w : World) (dependsOn : Value) (k : Key) : Prop :=
  k = .dependency (nextId w "dep") ∨ ∃ other, storedText dependsOn = .ok other ∧ k = .taskDependents other

/-- The ids of a user's tasks that were due before a moment. -/
def duesBefore (w : World) (userId : String) (asOf : Moment) : List String :=
  ((Command.orderedBelow (.taskDue userId) asOf.timestamp).run w.clock.instant w.store).1

/-- The ids of a user's tasks that are due between two moments. -/
def duesBetween (w : World) (userId : String) (start stop : Moment) : List String :=
  ((Command.orderedWithin (.taskDue userId) start.timestamp stop.timestamp).run
    w.clock.instant w.store).1

/-- The ids of the newest tasks of a user. -/
def newest (w : World) (userId : String) (limit : Int) : List String :=
  ((Command.orderedLast (.taskUser userId) (limit - 1)).run w.clock.instant w.store).1

theorem uses_get {id : String} (h : area (.taskDetail id)) : (get id).Within (Call.Uses area) := by
  refine .guard trivial (.bind (.uses rfl trivial h) fun cell => ?_)
  split
  · exact .bind (.setting trivial) fun s => .bind (.ofChecked _ _) fun task => .done _
  · exact .done _

/-- The tasks that an index lists. -/
theorem uses_getMany (index : List Key) (ids : List String) :
    (getMany ids).Within (Call.Uses (Listed index ids .taskDetail)) :=
  .guard trivial (.bind (.each fun id hid => uses_get (.inr ⟨id, hid, rfl⟩)) fun _ => .done _)

theorem uses_move (id : String) {key : String → Key} {old new : Option String}
    (hstamped : ∀ s, (key s).Stamped) (h : ∀ s, old = some s ∨ new = some s → area (key s)) :
    (move id key old new).Within (Call.Uses area) := by
  have hadd : ∀ n ∈ new, (if !n.isEmpty then store (.setAdd (key n) id) else pure () :
      Program Unit).Within (Call.Uses area) := by
    intro n hn
    split
    · exact .uses rfl (hstamped n) (h n (.inr hn))
    · exact .done _
  unfold move
  cases old with
  | none => cases new with
    | none => exact .done _
    | some n => exact hadd n rfl
  | some o =>
    dsimp only
    split
    · refine .bind (.uses rfl (hstamped o) (h o (.inl rfl))) fun _ => ?_
      cases new with
      | none => exact .done _
      | some n => exact hadd n rfl
    · cases new with
      | none => exact .done _
      | some n => exact hadd n rfl

theorem uses_save (task : Task) (previous : Option Task) :
    (save task previous).Within (Call.Uses (Names task previous)) := by
  have hmoves : Program.Within (Call.Uses (Names task previous)) (do
      move task.id .taskClient (previous.bind Task.clientId) task.clientId
      move task.id .taskParent (previous.bind Task.parentTaskId) task.parentTaskId
      return task) :=
    .bind (uses_move _ (fun _ => trivial) fun _ => .client) fun _ =>
      .bind (uses_move _ (fun _ => trivial) fun _ => .parent) fun _ => .done _
  refine .guard trivial (.bind (.uses rfl trivial .detail) fun _ =>
    .bind (.uses rfl trivial .user) fun _ => ?_)
  dsimp only
  split
  · exact .bind (.uses rfl trivial .due) fun _ => hmoves
  · exact .bind (.uses rfl trivial .due) fun _ => hmoves

/-- A task that is checked and saved. -/
theorem staysIn_save {w' : World} (hclock : w'.clock = w.clock) (check : Setting → Checked Task)
    (previous : Option Task)
    (h : ∀ task, check { now := w.clock } = .ok task → ∀ k, Names task previous k → area k) :
    Program.StaysIn area (do
      let task ← ofChecked "Task" (check (← setting))
      save task previous) w' := by
  refine .bind (.of_within (.setting trivial)) fun s w₁ hs => ?_
  cases hs
  refine .bind (.of_within (.ofChecked _ _)) fun task w₂ htask => .of_within ?_
  refine (uses_save task previous).mono fun c => Call.Uses.mono ?_
  exact h task (hclock ▸ (ok_of_ofChecked htask).1)

theorem staysIn_create (fields : Fields) : (create fields).StaysIn (Creates w fields) w := by
  have hsave : ∀ id w', id = idOf w fields → w'.clock = w.clock → Program.StaysIn (Creates w fields) (do
      let task ← ofChecked "Task" (Task.check (← setting) (.obj (fields.put "id" id)))
      save task none) w' := by
    rintro id w' rfl hclock
    exact staysIn_save hclock (fun s => Task.check s _) none fun task htask k hk => ⟨task, htask, hk⟩
  refine .guard ?_
  dsimp only
  cases hid : (fields.get? "id").filter Value.truthy with
  | some id => exact hsave id w (by rw [idOf, hid, Option.getD_some]) rfl
  | none =>
    refine .bind (.of_within (.bind (.bind (.call trivial) fun _ => .done _) fun _ => .done _)) ?_
    intro id w' hrun
    cases hrun
    exact hsave _ _ (by rw [idOf, hid, Option.getD_none]; rfl) rfl

theorem staysIn_update (id : String) (fields : Fields) :
    (update id fields).StaysIn (Changes w id fields) w := by
  refine .guard (.bind (.of_within (uses_get (.inl rfl))) fun found w' hget => ?_)
  cases found with
  | none => exact .of_within (.fail _)
  | some existing =>
    refine staysIn_save (clock_of_run hget) (fun s => revise s existing fields) (some existing) ?_
    exact fun task htask k hk => .inr ⟨existing, task, congrArg Prod.fst hget, htask, hk⟩

theorem staysIn_createSubtask (parentId : String) (fields : Fields) : (createSubtask parentId fields).StaysIn
    (Creates w (fields.put "parent_task_id" (.str parentId))) w := .guard (staysIn_create _)

theorem staysIn_updateRelated (field : String) (value : Value) (except : String) (r : Relation) :
    (updateRelated field value except r).StaysIn (Related w field value except r) w := by
  refine .guard ?_
  cases hkey : r.key? with
  | none => exact .of_within (.done _)
  | some key =>
    have hstamped : key.Stamped := by
      cases r <;> cases hkey <;> trivial
    refine .after_store (List.forall_mem_singleton.mpr ⟨hstamped, key, hkey, .inl rfl⟩) (.each ?_)
    intro before id after hsplit done w' hrun
    refine .bind ?_ fun _ _ _ => .of_within (.done _)
    refine (staysIn_update id [(field, value)]).mono fun k hk => ⟨key, hkey, .inr ?_⟩
    exact ⟨before, id, after, hsplit, done, w', hrun, hk⟩

theorem staysIn_overdue (userId : String) (asOf : Moment) :
    (overdue userId asOf).StaysIn (Listed [.taskDue userId] (duesBefore w userId asOf) .taskDetail) w :=
  .guard (.listing (List.forall_mem_singleton.mpr trivial) (.bind (uses_getMany _ _) fun _ => .done _))

theorem staysIn_dueWithin (userId : String) (start stop : Moment) : (dueWithin userId start stop).StaysIn
    (Listed [.taskDue userId] (duesBetween w userId start stop) .taskDetail) w :=
  .guard (.listing (List.forall_mem_singleton.mpr trivial) (.bind (uses_getMany _ _) fun _ => .done _))

theorem staysIn_recent (userId : String) (limit : Int) : (recent userId limit).StaysIn
    (Listed [.taskUser userId] (newest w userId limit) .taskDetail) w :=
  .guard (.listing (List.forall_mem_singleton.mpr trivial) (uses_getMany _ _))

theorem staysIn_dependents (taskId : String) : (dependents taskId).StaysIn
    (Listed [.taskDependents taskId]
      (w.store.members w.clock.instant (.taskDependents taskId)) .taskDetail) w := by
  refine .guard (.listing (List.forall_mem_singleton.mpr trivial) ?_)
  refine .guard trivial (.bind (.each fun id hid => uses_get (.inr ⟨id, ?_, rfl⟩)) fun _ => .done _)
  exact List.mem_mergeSort.mp hid

/-! ### Relations -/

theorem staysIn_createDependency (taskId dependsOn : Value) :
    (createDependency taskId dependsOn).StaysIn (Depends w dependsOn) w := by
  refine .guard (.bind (.of_within (.bind (.call trivial) fun _ => .done _)) fun id w' hid => ?_)
  cases hid
  refine .bind (.of_within (.ofExcept _)) fun task w₁ _ => ?_
  refine .bind (.of_within (.ofExcept _)) fun other w₂ hother => .of_within ?_
  have hkey : Depends w dependsOn (.taskDependents other) :=
    .inr ⟨other, (ok_of_ofExcept hother).1, rfl⟩
  exact .bind (.call trivial) fun now => .bind (.uses rfl trivial (.inl rfl)) fun _ =>
    .bind (.uses rfl trivial hkey) fun _ => .done _

theorem staysIn_createAssignment (taskId : String) (userId : Value) (assignedBy : String) :
    (createAssignment taskId userId assignedBy).StaysIn (· = .assignment (nextId w "assign")) w := by
  refine .guard (.bind (.of_within (.bind (.call trivial) fun _ => .done _)) fun id w' hid => ?_)
  cases hid
  refine .of_within (.bind (.ofExcept _) fun user => .bind (.call trivial) fun now => ?_)
  exact .bind (.uses rfl trivial rfl) fun _ => .done _

theorem uses_getAssignment (id : String) :
    (getAssignment id).Within (Call.Uses (· = .assignment id)) :=
  .guard trivial (.bind (.uses rfl trivial rfl) fun _ => .done _)

end Tasks

/-! ## Inboxes, timelines and claims -/

namespace Inbox

/-- The text of a minute that a clock shows is twelve digits. -/
theorem stamped_minute {m : Moment} (h : m.Shown) (userId : String) :
    (Key.notifyRate userId (minute m)).Stamped := by
  obtain ⟨hyear, hmonth, hday⟩ := h.date_lt
  have htime := minuteOfDay_lt m
  have htext : (minute m).toList = (Moment.digits 4 m.date.year).toList
      ++ (Moment.digits 2 m.date.month).toList ++ (Moment.digits 2 m.date.day).toList
      ++ (Moment.digits 2 (minuteOfDay m / 60)).toList
      ++ (Moment.digits 2 (minuteOfDay m % 60)).toList := by
    simp only [minute, minuteOfDay, String.toList_append]
  constructor
  · show (minute m).toList.length = 12
    rw [htext]
    simp only [List.length_append, Moment.length_digits (by decide : 0 < 4) hyear,
      Moment.length_digits (by decide : 0 < 2) hmonth, Moment.length_digits (by decide : 0 < 2) hday,
      Moment.length_digits (by decide : 0 < 2) (by omega : minuteOfDay m / 60 < 10 ^ 2),
      Moment.length_digits (by decide : 0 < 2) (by omega : minuteOfDay m % 60 < 10 ^ 2)]
  · intro c hc
    rw [htext] at hc
    simp only [List.mem_append] at hc
    rcases hc with (((hc | hc) | hc) | hc) | hc <;> exact Moment.isDigit_of_mem_digits hc

/-- The keys of a notification: the user's inbox, and the user's count of the minute. -/
def Tells (w : World) (userId : String) (k : Key) : Prop :=
  k = .inbox userId ∨ k = .notifyRate userId (minute w.clock)

theorem staysIn_notify (s : Settings) (userId title message : Value) (taskId : Option String)
    (url : Value) (hshown : w.clock.Shown) :
    (notify s userId title message taskId url).StaysIn (Tells w userId.text) w := by
  have hstamped := stamped_minute hshown userId.text
  have hallows : (allows userId.text s.notificationsPerMinute).StaysIn (Tells w userId.text) w := by
    refine .bind (.of_within (.call trivial)) fun now w' hnow => .of_within ?_
    cases hnow
    refine .bind (.uses rfl hstamped (.inr rfl)) fun n => ?_
    dsimp only
    split
    · exact .bind (.uses rfl hstamped (.inr rfl)) fun _ => .done _
    · exact .done _
  refine .guard (.bind hallows fun allowed w' _ => .of_within ?_)
  split
  · refine .bind (.call trivial) fun id => .bind (.setting trivial) fun setting =>
      .bind (.ofChecked _ _) fun n => ?_
    exact .bind (.uses rfl trivial (.inl rfl)) fun _ => .bind (.uses rfl trivial (.inl rfl)) fun _ =>
      .bind (.call trivial) fun _ => .done _
  · exact .bind (.call trivial) fun _ => .done _

theorem uses_list (userId : String) (limit : Int) :
    (list userId limit).Within (Call.Uses (· = .inbox userId)) :=
  .guard trivial (.bind (.uses rfl trivial rfl) fun _ => .each fun _ _ =>
    .bind (.setting trivial) fun _ => .ofChecked _ _)

end Inbox

theorem Timeline.uses_append (taskId : String) (userId type description metadata : Value) :
    (append taskId userId type description metadata).Within (Call.Uses (· = .activity taskId)) := by
  refine .guard trivial (.bind (.call trivial) fun id => .bind (.setting trivial) fun setting => ?_)
  refine .bind (.ofChecked _ _) fun entry => ?_
  exact .bind (.uses rfl trivial rfl) fun _ => .bind (.uses rfl trivial rfl) fun _ => .done _

theorem Timeline.uses_list (taskId : String) (last : Int) :
    (list taskId last).Within (Call.Uses (· = .activity taskId)) :=
  .guard trivial (.bind (.uses rfl trivial rfl) fun _ => .each fun _ _ =>
    .bind (.setting trivial) fun _ => .ofChecked _ _)

namespace Claims

theorem uses_claim (s : Settings) (key : String) :
    (claim s key).Within (Call.Uses (· = .executionDedup key)) :=
  .guard trivial (.uses rfl trivial rfl)

theorem uses_isMarked (eventId : String) :
    (isMarked eventId).Within (Call.Uses (· = .processed eventId)) :=
  .guard trivial (.uses rfl trivial rfl)

theorem uses_mark (s : Settings) (eventId : String) :
    (mark s eventId).Within (Call.Uses (· = .processed eventId)) := by
  refine .guard trivial (.bind (.uses rfl trivial rfl) fun isNew => ?_)
  dsimp only
  split
  · exact .bind (.uses rfl trivial rfl) fun _ => .done _
  · exact .done _

end Claims

/-! ## The operations of the stores -/

/-- An operation of the stores, with the keys that it is about in a world. -/
inductive OfStores : {α : Type} → Program α → (World → Key → Prop) → Prop where
  | createRule (rule : Rule) : OfStores (Rules.create rule) fun _ => Rules.Names rule
  | getRule (id : String) : OfStores (Rules.get id) fun _ k => k = .ruleDetail id
  | updateRule (id : String) (rule : Rule) :
    OfStores (Rules.update id rule) fun w => Rules.Replaces w id rule
  | deleteRule (id : String) : OfStores (Rules.delete id) fun w => Rules.Removes w id
  | setActive (id : String) (isActive : Bool) :
    OfStores (Rules.setActive id isActive) fun _ k => k = .ruleDetail id
  | allRules : OfStores Rules.all fun w =>
    Listed [.ruleAll] (w.store.members w.clock.instant .ruleAll) .ruleDetail
  | rulesOf (userId : String) : OfStores (Rules.ofUser userId) fun w =>
    Listed [.ruleUser userId] (w.store.members w.clock.instant (.ruleUser userId)) .ruleDetail
  | activeRules (userId : String) (trigger : Trigger) : OfStores (Rules.active userId trigger) fun w =>
    Listed [.ruleUser userId, .ruleTrigger trigger.name] (Rules.shared w userId trigger) .ruleDetail
  | usersWithActive (triggers : List Trigger) : OfStores (Rules.usersWithActive triggers) fun w =>
    Listed (triggers.map fun t => .ruleTrigger t.name) (Rules.onAny w triggers) .ruleDetail
  | countRun (id : String) (ranAt : Moment) :
    OfStores (Rules.countRun id ranAt) fun _ k => k = .ruleDetail id
  | recordRun (s : Settings) (run : Execution) : OfStores (Rules.recordRun s run) fun _ k =>
    k = .executionsRule run.ruleId ∨ k = .executionsUser run.userId
  | runs (ruleId userId : Option String) : OfStores (Rules.runs ruleId userId) fun _ k =>
    (∃ id ∈ ruleId, k = .executionsRule id) ∨ ∃ id ∈ userId, k = .executionsUser id
  | getTask (id : String) : OfStores (Tasks.get id) fun _ k => k = .taskDetail id
  | saveTask (task : Task) (previous : Option Task) :
    OfStores (Tasks.save task previous) fun _ => Tasks.Names task previous
  | createTask (fields : Fields) : OfStores (Tasks.create fields) fun w => Tasks.Creates w fields
  | updateTask (id : String) (fields : Fields) :
    OfStores (Tasks.update id fields) fun w => Tasks.Changes w id fields
  | createSubtask (parentId : String) (fields : Fields) : OfStores (Tasks.createSubtask parentId fields)
    fun w => Tasks.Creates w (fields.put "parent_task_id" (.str parentId))
  | updateRelated (field : String) (value : Value) (except : String) (r : Tasks.Relation) :
    OfStores (Tasks.updateRelated field value except r) fun w => Tasks.Related w field value except r
  | overdue (userId : String) (asOf : Moment) : OfStores (Tasks.overdue userId asOf) fun w =>
    Listed [.taskDue userId] (Tasks.duesBefore w userId asOf) .taskDetail
  | dueWithin (userId : String) (start stop : Moment) : OfStores (Tasks.dueWithin userId start stop) fun w =>
    Listed [.taskDue userId] (Tasks.duesBetween w userId start stop) .taskDetail
  | recentTasks (userId : String) (limit : Int) : OfStores (Tasks.recent userId limit) fun w =>
    Listed [.taskUser userId] (Tasks.newest w userId limit) .taskDetail
  | dependents (taskId : String) : OfStores (Tasks.dependents taskId) fun w =>
    Listed [.taskDependents taskId]
      (w.store.members w.clock.instant (.taskDependents taskId)) .taskDetail
  | createDependency (taskId dependsOn : Value) : OfStores (Tasks.createDependency taskId dependsOn)
    fun w => Tasks.Depends w dependsOn
  | createAssignment (taskId : String) (userId : Value) (assignedBy : String) :
    OfStores (Tasks.createAssignment taskId userId assignedBy)
      fun w k => k = .assignment (Tasks.nextId w "assign")
  | getAssignment (id : String) : OfStores (Tasks.getAssignment id) fun _ k => k = .assignment id
  | notify (s : Settings) (userId title message : Value) (taskId : Option String) (url : Value) :
    OfStores (Inbox.notify s userId title message taskId url) fun w => Inbox.Tells w userId.text
  | inbox (userId : String) (limit : Int) : OfStores (Inbox.list userId limit) fun _ k => k = .inbox userId
  | log (taskId : String) (userId type description metadata : Value) :
    OfStores (Timeline.append taskId userId type description metadata) fun _ k => k = .activity taskId
  | timeline (taskId : String) (limit : Int) :
    OfStores (Timeline.list taskId limit) fun _ k => k = .activity taskId
  | claim (s : Settings) (key : String) :
    OfStores (Claims.claim s key) fun _ k => k = .executionDedup key
  | isMarked (eventId : String) : OfStores (Claims.isMarked eventId) fun _ k => k = .processed eventId
  | mark (s : Settings) (eventId : String) :
    OfStores (Claims.mark s eventId) fun _ k => k = .processed eventId

/-- Every run of an operation uses the keys that it is about. -/
theorem OfStores.staysIn {p : Program α} {own : World → Key → Prop} (h : OfStores p own)
    (hshown : w.clock.Shown) : p.StaysIn (own w) w := by
  cases h with
  | createRule rule => exact .of_within (Rules.uses_create rule)
  | getRule id => exact .of_within (Rules.uses_get rfl)
  | updateRule id rule => exact Rules.staysIn_update id rule
  | deleteRule id => exact Rules.staysIn_delete id
  | setActive id isActive => exact .of_within (Rules.uses_setActive id isActive)
  | allRules => exact Rules.staysIn_all
  | rulesOf userId => exact Rules.staysIn_ofUser userId
  | activeRules userId trigger => exact Rules.staysIn_active userId trigger
  | usersWithActive triggers => exact Rules.staysIn_usersWithActive triggers
  | countRun id ranAt => exact .of_within (Rules.uses_countRun id ranAt)
  | recordRun s run => exact .of_within (Rules.uses_recordRun s run)
  | runs ruleId userId => exact .of_within (Rules.uses_runs ruleId userId)
  | getTask id => exact .of_within (Tasks.uses_get rfl)
  | saveTask task previous => exact .of_within (Tasks.uses_save task previous)
  | createTask fields => exact Tasks.staysIn_create fields
  | updateTask id fields => exact Tasks.staysIn_update id fields
  | createSubtask parentId fields => exact Tasks.staysIn_createSubtask parentId fields
  | updateRelated field value except r => exact Tasks.staysIn_updateRelated field value except r
  | overdue userId asOf => exact Tasks.staysIn_overdue userId asOf
  | dueWithin userId start stop => exact Tasks.staysIn_dueWithin userId start stop
  | recentTasks userId limit => exact Tasks.staysIn_recent userId limit
  | dependents taskId => exact Tasks.staysIn_dependents taskId
  | createDependency taskId dependsOn => exact Tasks.staysIn_createDependency taskId dependsOn
  | createAssignment taskId userId assignedBy =>
    exact Tasks.staysIn_createAssignment taskId userId assignedBy
  | getAssignment id => exact .of_within (Tasks.uses_getAssignment id)
  | notify s userId title message taskId url =>
    exact Inbox.staysIn_notify s userId title message taskId url hshown
  | inbox userId limit => exact .of_within (Inbox.uses_list userId limit)
  | log taskId userId type description metadata =>
    exact .of_within (Timeline.uses_append taskId userId type description metadata)
  | timeline taskId limit => exact .of_within (Timeline.uses_list taskId limit)
  | claim s key => exact .of_within (Claims.uses_claim s key)
  | isMarked eventId => exact .of_within (Claims.uses_isMarked eventId)
  | mark s eventId => exact .of_within (Claims.uses_mark s eventId)

/-- Keys have one text only if they are the same, so no operation of the stores reads or writes what is
under the text of a key of another kind or of another id. -/
theorem Key.texts_apart :
    (∀ k l : Key, k.Stamped → l.Stamped → (k.render = l.render ↔ k = l)) ∧
    ∀ {α : Type} {p : Program α} {own : World → Key → Prop}, OfStores p own →
      ∀ w : World, w.clock.Shown → w.store.Stamped → p.Separate (own w) w := by
  refine ⟨fun k l hk hl => ⟨render_injective hk hl, congrArg render⟩, fun hop w hshown hw => ?_⟩
  exact (hop.staysIn hshown).separate hw

/-- A user whose id ends like the key of a rate is still told from the user without that ending, and a
claim of a key with colons is about that key. -/
theorem Key.texts_apart_of_colons :
    (Key.notifyRate "u:202401010000" "202401010001").render
        ≠ (Key.notifyRate "u" "202401010000").render
      ∧ (Claims.claim {} "a:b").Separate (· = .executionDedup "a:b")
        { clock := Moment.ofInstant 0 } := by
  have hstamped : (Key.notifyRate "u:202401010000" "202401010001").Stamped :=
    ⟨rfl, List.all_eq_true.mp rfl⟩
  have hstamped' : (Key.notifyRate "u" "202401010000").Stamped :=
    ⟨rfl, List.all_eq_true.mp rfl⟩
  refine ⟨fun h => ?_, Key.texts_apart.2 (.claim {} "a:b") _ ⟨by decide, by decide⟩ ?_⟩
  · exact absurd ((Key.texts_apart.1 _ _ hstamped hstamped').mp h) (by decide)
  · exact fun k hk => absurd hk (by simp)

end TaskAutomation
