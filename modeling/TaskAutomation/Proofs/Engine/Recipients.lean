import TaskAutomation.Proofs.Engine.Dates
import TaskAutomation.Proofs.Inbox.Delivery
import TaskAutomation.Proofs.Rules.Listing

/-!
# Who is told

* `Telling.audience f t` : those whom parameters name, once placeholders are filled in: a user by id, the users
  assigned to the task, or its owner; `Telling.recipients_eq` : they are the recipients of an action that tells;
* `Telling.Reports` : the result of such an action tells who was reached;
* `Engine.audience_told` : such an action that succeeds notifies each of them once, as far as the limit of the
  minute allows, nobody else, and changes no task.
-/

namespace TaskAutomation

open Check Program

/-! ## Recipients -/

namespace Parameter

variable {s : Setting} {f : Fields} {name : String} {v : Value}

/-- The value is the text in a field, or null where there is no text. -/
def TextIn (f : Fields) (name : String) (v : Value) : Prop :=
  (∃ t, v = .str t ∧ f.get? name = some (.str t)) ∨ v = .null ∧ ∀ t, f.get? name ≠ some (.str t)

/-- A text that may be null is read as itself, and as null where there is none. -/
theorem textIn_of_nullable {c : Checker String} (hc : ∀ v t, c s v = .ok t → v = .str t)
    (h : optional s f name .null (fun s v => (nullable c s v).map .ofText?) = .ok v) : TextIn f name v := by
  rcases get?_of_optional h with ⟨given, hgiven, hv⟩ | ⟨hnone, rfl⟩
  · obtain ⟨t?, ht, rfl⟩ := Checked.map_eq_ok.mp hv
    cases t? with
    | none =>
      refine .inr ⟨rfl, fun t ht' => ?_⟩
      cases hgiven.symm.trans ht'
      obtain ⟨_, -, hsome⟩ := Checked.map_eq_ok.mp ht
      cases hsome
    | some t =>
      refine .inl ⟨t, rfl, ?_⟩
      unfold nullable at ht
      split at ht
      · cases ht
      · obtain ⟨t', ht', hsome⟩ := Checked.map_eq_ok.mp ht
        cases hsome
        rw [hgiven, hc _ _ ht']
  · exact .inr ⟨rfl, fun t ht => nomatch hnone.symm.trans ht⟩

theorem eq_str_of_text {t : String} (h : text s v = .ok t) : v = .str t := by
  unfold text at h
  split at h <;> cases h
  rfl

theorem eq_str_of_literal {choices : List String} {t : String} (h : literal choices s v = .ok t) :
    v = .str t := by
  unfold literal at h
  split at h
  · split at h <;> cases h
    rfl
  · cases h

end Parameter

/-- Resolving a due date leaves the world as it is. -/
theorem Occasion.eq_of_dueDate {o : Occasion} {spec due : Value} {w w' : World}
    (h : (o.dueDate spec).run w = (.ok due, w')) : w' = w := by
  unfold dueDate at h
  split at h
  · cases h
    rfl
  · split at h <;> cases h
    rfl

namespace Telling

variable {f : Fields} {t : Task}

/-- The user whom parameters name by id. -/
def named? (f : Fields) : Option String :=
  match f.get? "recipient_id" with
  | some (.str id) => if id = "" then none else some id
  | _ => none

/-- Those whom parameters name: a user by id, or the users assigned to the task, each once and in order of
their first mention, or its owner; the owner also where nobody is assigned. -/
def audience (f : Fields) (t : Task) : List String :=
  match named? f, f.get? "recipient" with
  | some id, _ => [id]
  | none, some (.str "assignees") => if t.assigneeIds = [] then [t.userId] else t.assigneeIds.eraseDups
  | none, _ => [t.userId]

/-- Somebody is told, and nobody twice. -/
theorem audience_once (f : Fields) (t : Task) : audience f t ≠ [] ∧ (audience f t).Nodup := by
  unfold audience
  split
  · simp
  · split
    · simp
    · next hassigned =>
      obtain ⟨user, huser⟩ := List.exists_mem_of_ne_nil _ hassigned
      exact ⟨List.ne_nil_of_mem (List.mem_eraseDups.mpr huser), Rules.nodup_eraseDups _⟩
  · simp

/-- The types of action that tell users. -/
def tellers : List ActionType := [.sendNotification, .createReport, .createReminder]

theorem recipients_eq {type : ActionType} {s : Setting} {p : Parameters} (htype : type ∈ tellers)
    (h : Parameters.readFor type s f = .ok p) (t : Task) :
    p.recipients t = (audience f t).map .str := by
  have hdeclared : ∀ q ∈ Parameter.recipients, q ∈ type.parameters := by
    intro q hq
    simp only [tellers, List.mem_cons, List.not_mem_nil, or_false] at htype
    rcases htype with rfl | rfl | rfl <;> simp [ActionType.parameters, hq]
  obtain ⟨id, hid, hreadId⟩ := Parameters.get?_of_readFor h (Parameter.textOrNull "recipient_id")
    (hdeclared _ (by simp [Parameter.recipients]))
  obtain ⟨role, hrole, hreadRole⟩ := Parameters.get?_of_readFor h
    (Parameter.wordOrNull "recipient" ["assignees", "owner"]) (hdeclared _ (by simp [Parameter.recipients]))
  replace hid : p.get? "recipient_id" = some id := hid
  replace hrole : p.get? "recipient" = some role := hrole
  replace hreadId : Parameter.TextIn f "recipient_id" id :=
    Parameter.textIn_of_nullable (fun _ _ => Parameter.eq_str_of_text) hreadId
  replace hreadRole : Parameter.TextIn f "recipient" role :=
    Parameter.textIn_of_nullable (fun _ _ => Parameter.eq_str_of_literal) hreadRole
  have hnamed : (p.get? "recipient_id").filter Value.truthy = (named? f).map .str := by
    rw [hid, named?]
    rcases hreadId with ⟨t, rfl, hf⟩ | ⟨rfl, hno⟩
    · rw [hf]
      by_cases ht : t = ""
      · subst ht
        rfl
      · have htruthy : (Value.str t).truthy = true := by simpa [Value.truthy] using ht
        rw [Option.filter_some_pos htruthy]
        simp [ht]
    · split
      · next t hf => exact absurd hf (hno t)
      · rfl
  have hassigned : p.get? "recipient" = some (.str "assignees") ↔ f.get? "recipient" = some (.str "assignees") := by
    rw [hrole]
    rcases hreadRole with ⟨t, rfl, hf⟩ | ⟨rfl, hno⟩
    · rw [hf]
    · refine iff_of_false (fun heq => ?_) (hno _)
      cases heq
  unfold Parameters.recipients audience
  rw [hnamed]
  cases named? f with
  | some id => rfl
  | none =>
    dsimp only [Option.map_none]
    by_cases hrole' : f.get? "recipient" = some (.str "assignees")
    · rw [hrole', hassigned.mpr hrole']
      cases t.assigneeIds with
      | nil => rfl
      | cons user rest =>
        rw [List.eraseDups_cons]
        rfl
    · have hnot := mt hassigned.mp hrole'
      split
      · next heq => exact absurd heq hnot
      · split
        · next heq => cases heq
        · next heq => exact absurd heq hrole'
        · rfl

/-! ## Actions that tell -/

/-- The result of an action that tells says who was reached, or how many. -/
structure Reports (type : ActionType) (result : Fields) (reached : List String) : Prop where
  recipients : type ≠ .createReport → result.get? "recipients" = some (.list (reached.map .str))
  count : type ≠ .createReminder → result.get? "recipient_count" = some (.int reached.length)

variable {w w' : World} {p : Parameters} {o : Occasion} {result : Fields}

theorem told_of_run {type : ActionType} {users : List String} (htype : type ∈ tellers)
    (husers : p.recipients t = users.map .str) (hnodup : users.Nodup) (hreach : w.outages = [])
    (hsize : 0 < o.settings.inboxSize) (h : (type.run p t o).run w = (.ok result, w')) :
    Reports type result (users.filter (Inbox.admits o.settings w)) ∧
      Inbox.Delivered o.settings users (some t.id) w w' := by
  have htold : ∀ {title message url : Value} {reached : List Value} {w₁ : World},
      (tell (p.recipients t) title message url t o).run w = (.ok reached, w₁) →
        reached = (users.filter (Inbox.admits o.settings w)).map .str ∧
          Inbox.Delivered o.settings users (some t.id) w w₁ := by
    intro title message url reached w₁ htell
    rw [husers] at htell
    exact Inbox.delivered_tell hreach hsize hnodup htell
  simp only [tellers, List.mem_cons, List.not_mem_nil, or_false] at htype
  rcases htype with rfl | rfl | rfl
  · replace h : (notification p t o).run w = (.ok result, w') := h
    obtain ⟨title, -, h⟩ := Parameters.run_of_need h
    obtain ⟨message, -, h⟩ := Parameters.run_of_need h
    obtain ⟨url, -, h⟩ := Parameters.run_of_need h
    obtain ⟨reached, w₁, htell, h⟩ := parts_of_bind h
    obtain ⟨type, -, h⟩ := Parameters.run_of_need h
    obtain ⟨rfl, hdelivered⟩ := htold htell
    cases h
    refine ⟨⟨fun _ => rfl, fun _ => ?_⟩, hdelivered⟩
    exact congrArg (fun n : Nat => some (Value.int n)) (List.length_map _)
  · replace h : (report p t o).run w = (.ok result, w') := h
    obtain ⟨summary, w₁, hsummary, h⟩ := parts_of_bind h
    obtain ⟨title, -, h⟩ := Parameters.run_of_need h
    obtain ⟨reached, w₂, htell, h⟩ := parts_of_bind h
    obtain ⟨-, rfl⟩ := ok_of_ofExcept hsummary
    obtain ⟨rfl, hdelivered⟩ := htold htell
    cases h
    refine ⟨⟨fun hne => absurd rfl hne, fun _ => ?_⟩, hdelivered⟩
    exact congrArg (fun n : Nat => some (Value.int n)) (List.length_map _)
  · replace h : (reminder p t o).run w = (.ok result, w') := h
    obtain ⟨spec, -, h⟩ := Parameters.run_of_need h
    obtain ⟨moment, w₁, hmoment, h⟩ := parts_of_bind h
    obtain ⟨message, -, h⟩ := Parameters.run_of_need h
    obtain ⟨title, -, h⟩ := Parameters.run_of_need h
    obtain ⟨reached, w₂, htell, h⟩ := parts_of_bind h
    cases Occasion.eq_of_dueDate hmoment
    obtain ⟨rfl, hdelivered⟩ := htold htell
    cases h
    exact ⟨⟨fun _ => rfl, fun hne => absurd rfl hne⟩, hdelivered⟩

end Telling

namespace Engine

variable {e : Engine} {a : Action} {t : Task} {context : Fields} {rule : Option Rule}
  {moment : Option Moment} {type : ActionType} {w w' : World} {result : Fields}

/-- An action that tells users, and succeeds, puts one notification about its task in front of the inbox of each
of those whom its parameters name, as far as they are within the limit of the minute, and reports these. All else
in the store stays as it is, but for the counts of those it names; so no other inbox changes, and no task. -/
theorem audience_told (htype : type ∈ Telling.tellers) (hname : a.type = type.name)
    (hknown : e.registry.lookup a.type = some type) (hreach : w.outages = []) (hsize : 0 < e.settings.inboxSize)
    (h : (e.dispatch a t context rule moment).run w = (.ok result, w')) :
    let users := Telling.audience (a.filled t context) t
    let reached := users.filter (Inbox.admits e.settings w)
    (users ≠ [] ∧ users.Nodup) ∧
    (∀ user ∈ reached, Inbox.Gained e.settings user (some t.id) w w') ∧
    (∀ user, user ∉ reached → Inbox.Same w w' (.inbox user)) ∧
    (∀ k, (∀ user, k ≠ .inbox user) → (∀ user minute, k ≠ .notifyRate user minute) → Inbox.Same w w' k) ∧
    Telling.Reports type result reached := by
  intro users reached
  obtain ⟨p, hread, hrun⟩ := executor_of_dispatch hknown h
  obtain ⟨hsome, honce⟩ := Telling.audience_once (a.filled t context) t
  have hreadFor : Parameters.readFor type { now := w.clock } (a.filled t context) = .ok p := by
    have hofName : ActionType.ofName? type.name = some type := by cases type <;> rfl
    rwa [hname, Parameters.read, hofName] at hread
  obtain ⟨hreports, hdelivered⟩ :=
    Telling.told_of_run htype (Telling.recipients_eq htype hreadFor t) honce hreach hsize hrun
  refine ⟨⟨hsome, honce⟩, ?_, ?_, ?_, hreports⟩
  · intro user huser
    obtain ⟨huser, hwithin⟩ := List.mem_filter.mp huser
    exact hdelivered.gained user huser hwithin
  · intro user huser
    by_cases hmem : user ∈ users
    · refine hdelivered.kept user hmem ?_
      rw [← Bool.not_eq_true]
      exact fun hwithin => huser (List.mem_filter.mpr ⟨hmem, hwithin⟩)
    · refine hdelivered.others _ fun v hv => ⟨fun heq => hmem ?_, nofun⟩
      exact Key.inbox.inj heq ▸ hv
  · intro k hinbox hrate
    exact hdelivered.others k fun v _ => ⟨hinbox v, hrate v _⟩

/-- One notification a minute for each user. -/
def sparingEngine : Engine := { settings := { notificationsPerMinute := 1 } }

/-- A message to the users assigned to a task. -/
def tellAssignees : Action := ⟨"send_notification", [("recipient", .str "assignees")]⟩

/-- The planned task with two users assigned to it, one of them twice. -/
def sharedTask : Task := { Tasks.plannedTask with assigneeIds := ["user_2", "user_3", "user_2"] }

/-- The first of them has just been notified of something else. -/
def noticedWorld : World := (((⟨"user_2", "Call", "Now", none, none⟩ : Inbox.Post).program
  sparingEngine.settings).run Tasks.emptyWorld).2

/-- So the message reaches the second one only. -/
theorem audience_told_of_assignees : ∃ result w',
    (sparingEngine.dispatch tellAssignees sharedTask [] none none).run noticedWorld = (.ok result, w') ∧
      result.get? "recipients" = some (.list [.str "user_3"]) ∧
      Inbox.Gained sparingEngine.settings "user_3" (some "task_1") noticedWorld w' ∧
      Inbox.Same noticedWorld w' (.inbox "user_2") := by
  obtain ⟨result, w', hrun⟩ := exists_result (p := sparingEngine.dispatch tellAssignees sharedTask [] none none)
    (w := noticedWorld) (by decide +kernel)
  have hreached : (Telling.audience (tellAssignees.filled sharedTask []) sharedTask).filter
      (Inbox.admits sparingEngine.settings noticedWorld) = ["user_3"] := by decide +kernel
  have hteller : ActionType.sendNotification ∈ Telling.tellers := List.mem_cons_self
  obtain ⟨-, hgained, hsame, -, hreports⟩ :=
    audience_told hteller rfl rfl (run_outages _ _) (by decide) hrun
  rw [hreached] at hgained hsame hreports
  exact ⟨result, w', hrun, hreports.recipients nofun, hgained _ List.mem_cons_self, hsame _ (by decide)⟩

end Engine

end TaskAutomation
