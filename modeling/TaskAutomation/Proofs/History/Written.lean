import TaskAutomation.Proofs.Execution
import TaskAutomation.Proofs.Inbox.Delivery
import TaskAutomation.Proofs.Rules.Effects
import TaskAutomation.Store.Timeline

/-!
# What is written to the lists that are cut

The runs of a rule, the runs of a user, the timeline of a task and the inbox of a user are lists that keep
their newest cells. Each is compared with all that was ever written to it.

* `History` : all that was written, the newest first; `History.cells h k` : what of it was written under a key;
* `Settings.Roomy s` : the settings leave room in every list, as those that pass their check do
  (`Settings.roomy_of_check`);
* `Trimmed s cells store` : under each key there are the newest cells, as many as are kept there;
  `Trimmed.pushBounded` : so there are after one more cell is put in front and the list is cut;
* `Timeline.Remark` : a call that adds to a timeline; `Timeline.run_program`, `Inbox.run_deliver` : the entry
  and the notification that a call writes;
* `Trimmed.record`, `Trimmed.append`, `Trimmed.notify` : what each call makes of all lists at once.
-/

namespace TaskAutomation

open Check Program

/-- All that was written to lists that are cut, the newest first. -/
structure History where
  runs : List Execution := []
  entries : List Activity := []
  notes : List Notification := []

/-- The keys of lists that are cut. -/
def Key.isHistory : Key → Prop
  | .executionsRule _ | .executionsUser _ | .activity _ | .inbox _ => True
  | _ => False

namespace History

/-- What was written under a key. -/
def cells (h : History) : Key → List Cell
  | .executionsRule id => (h.runs.filter (·.ruleId = id)).map fun e => .ofDocument e.fields
  | .executionsUser id => (h.runs.filter (·.userId = id)).map fun e => .ofDocument e.fields
  | .activity id => (h.entries.filter (·.taskId = id)).map fun a => .ofDocument a.fields
  | .inbox id => (h.notes.filter (·.userId = id)).map fun n => .ofDocument n.fields
  | _ => []

/-- The most cells that are kept under a key. -/
def most (s : Settings) : Key → Int
  | .activity _ => Timeline.limit
  | .inbox _ => s.inboxSize
  | _ => s.historyLimit

/-- One more record of a run. -/
def record (h : History) (e : Execution) : History := { h with runs := e :: h.runs }

/-- One more entry of a timeline. -/
def append (h : History) (a : Activity) : History := { h with entries := a :: h.entries }

/-- One more notification. -/
def notify (h : History) (n : Notification) : History := { h with notes := n :: h.notes }

/-- A record is written for its rule and for its user. -/
theorem cells_record (h : History) (e : Execution) : (h.record e).cells =
    Function.update (Function.update h.cells (.executionsRule e.ruleId)
      (.ofDocument e.fields :: h.cells (.executionsRule e.ruleId))) (.executionsUser e.userId)
      (.ofDocument e.fields :: h.cells (.executionsUser e.userId)) := by
  ext1 k
  cases k <;> simp [Function.update_apply, cells, record, List.filter_cons] <;> grind

theorem cells_append (h : History) (a : Activity) : (h.append a).cells =
    Function.update h.cells (.activity a.taskId)
      (.ofDocument a.fields :: h.cells (.activity a.taskId)) := by
  ext1 k
  cases k <;> simp [Function.update_apply, cells, append, List.filter_cons]
  grind

theorem cells_notify (h : History) (n : Notification) : (h.notify n).cells =
    Function.update h.cells (.inbox n.userId) (.ofDocument n.fields :: h.cells (.inbox n.userId)) := by
  ext1 k
  cases k <;> simp [Function.update_apply, cells, notify, List.filter_cons]
  grind

end History

/-! ## Lists that are cut -/

/-- Under each key there are the newest of some cells, as many as are kept there. -/
def Trimmed (s : Settings) (cells : Key → List Cell) (store : Store) : Prop :=
  ∀ k, k.isHistory → store.Keeps k (.list ((cells k).take (History.most s k).toNat))

/-- The settings leave room in every list. -/
structure Settings.Roomy (s : Settings) : Prop where
  history : 0 < s.historyLimit
  inbox : 0 < s.inboxSize

/-- Settings that pass their check leave room. -/
theorem Settings.roomy_of_check {setting : Setting} {f : Fields} {s : Settings}
    (h : Settings.ofFields setting f = .ok s) : s.Roomy := by
  have hpos : ∀ {name absent n}, 0 < absent →
      Check.optional setting f name absent (atLeast 10) = .ok n → 0 < n := by
    intro name absent n habsent hn
    rcases optional_eq_ok hn with rfl | ⟨v, hv⟩
    · exact habsent
    · have hleast := le_of_boundedInteger hv
      omega
  obtain ⟨_, history, h₁, hhistory, rfl⟩ := Checked.seq_eq_ok.mp h
  clear h
  obtain ⟨_, inbox, h, hinbox, rfl⟩ := Checked.seq_eq_ok.mp h₁
  clear h₁
  -- the fields in front are of no account
  repeat (obtain ⟨_, _, h', -, rfl⟩ := Checked.seq_eq_ok.mp h; clear h; rename' h' => h)
  obtain ⟨_, -, rfl⟩ := Checked.map_eq_ok.mp h
  exact ⟨hpos (by decide) hhistory, hpos (by decide) hinbox⟩

theorem History.most_pos {s : Settings} (h : s.Roomy) (k : Key) : 0 < History.most s k := by
  unfold History.most
  split
  · decide
  · exact h.inbox
  · exact h.history

namespace Trimmed

variable {s : Settings} {cells : Key → List Cell} {w w' : World} {k : Key}

theorem of_lookup_eq (h : Trimmed s cells w.store)
    (heq : ∀ k, k.isHistory → w'.store.slots.lookup k = w.store.slots.lookup k) :
    Trimmed s cells w'.store := fun k hk => (h k hk).of_lookup_eq (heq k hk)

/-- One more cell in front of a list that is cut. -/
theorem pushBounded (h : Trimmed s cells w.store) (hs : s.Roomy) (hk : k.isHistory) (cell : Cell) :
    Trimmed s (Function.update cells k (cell :: cells k))
      ((Rules.pushBounded k cell (History.most s k)).run w).2.store := by
  intro l hl
  by_cases heq : l = k
  · subst heq
    have hkeeps := Rules.keeps_pushBounded (c := cell) (History.most_pos hs l) (h l hk)
    rwa [Content.take_cons_take, ← Function.update_self l (cell :: cells l) cells] at hkeeps
  · rw [Function.update_of_ne heq]
    exact (h l hl).of_lookup_eq (Rules.lookup_pushBounded heq)

end Trimmed

/-! ## Calls -/

/-- A call that adds an entry to the timeline of a task. -/
structure Timeline.Remark where
  taskId : String
  userId : String
  type : String
  description : String := ""
  metadata : Option Fields := none

namespace Timeline

/-- The data of a call, null if there is none. -/
def Remark.data (r : Remark) : Value := (r.metadata.map Value.obj).getD .null

/-- The call as a program. -/
def Remark.program (r : Remark) : Program String :=
  append r.taskId (.str r.userId) (.str r.type) (.str r.description) r.data

/-- The entry of a call in a world. -/
def Remark.entry (r : Remark) (w : World) : Activity where
  id := "act_" ++ Moment.digits 12 (w.counter .activity + 1)
  taskId := r.taskId
  userId := r.userId
  type := r.type
  description := r.description
  metadata := r.metadata.getD []
  createdAt := w.clock

/-- The entry of a call passes its check. -/
theorem check_entry (r : Remark) (w : World) :
    Activity.check { now := w.clock } (.obj (entryFields (r.entry w).id r.taskId (.str r.userId)
      (.str r.type) (.str r.description) (if r.data.truthy then r.data else .obj []))) =
        .ok (r.entry w) := by
  obtain ⟨taskId, userId, type, description, metadata⟩ := r
  rcases metadata with _ | _ | _ <;> rfl

/-- A call puts its entry in front of the timeline. -/
theorem run_program (r : Remark) {w : World} (hreach : w.outages = []) : ∃ w',
    r.program.run w = (.ok (r.entry w).id, w') ∧ w'.store =
      ((Rules.pushBounded (.activity r.taskId) (.ofDocument (r.entry w).fields) limit).run w).2.store := by
  unfold Remark.program append
  rw [Operation.run_guard hreach, run_bind_ok (run_fresh .activity w)]
  dsimp only
  rw [run_bind_ok (run_setting _)]
  exact ⟨_, (run_bind_ok (run_ofChecked (check_entry r w) _)).trans rfl, rfl⟩

end Timeline

namespace Inbox

variable {s : Settings} {w : World} {p : Post}

/-- The notification of a call in a world. -/
def Post.noteIn (p : Post) (w : World) : Notification :=
  p.note ("notify_" ++ Moment.digits 12 (w.counter .notification + 1)) w.clock

/-- A call within the limit puts its notification in front of the inbox. -/
theorem run_deliver (s : Settings) (p : Post) (w : World) : ∃ w',
    (deliver s p).run w = (.ok true, w') ∧ w'.store =
      ((Rules.pushBounded (.inbox p.userId) (.ofDocument (p.noteIn w).fields) s.inboxSize).run w).2.store := by
  unfold deliver
  rw [run_bind_ok (run_fresh .notification w)]
  dsimp only
  rw [run_bind_ok (run_setting _)]
  exact ⟨_, (run_bind_ok (run_ofChecked (check_fields _ p _) _)).trans rfl, rfl⟩

/-- A call is counted, which changes none of the lists, and is then delivered or refused. -/
theorem run_post (s : Settings) (p : Post) (hreach : w.outages = []) : ∃ w₁,
    (∀ k, k.isHistory → Same w w₁ k) ∧ p.noteIn w₁ = p.noteIn w ∧
      (p.program s).run w = (if admits s w p.userId then deliver s p else refuse).run w₁ := by
  obtain ⟨w₁, hallows, hcounters, hcounted⟩ := run_allows_eq p.userId s.notificationsPerMinute w
  refine ⟨w₁, fun k hk => hcounted k ?_, ?_, ?_⟩
  · rintro rfl
    exact hk
  · unfold Post.noteIn World.counter
    rw [hcounters, clock_of_run hallows]
  · rw [program_eq, Operation.run_guard hreach, run_bind_ok hallows]
    rfl

end Inbox

/-! ## What a call makes of all lists -/

namespace Trimmed

variable {s : Settings} {h : History} {w : World}

theorem record (ht : Trimmed s h.cells w.store) (hs : s.Roomy) (hreach : w.outages = []) (e : Execution) :
    Trimmed s (h.record e).cells ((Rules.recordRun s e).run w).2.store := by
  let cell := Cell.ofDocument e.fields
  let w₁ := ((Rules.pushBounded (.executionsRule e.ruleId) cell s.historyLimit).run w).2
  have hrule : Trimmed s _ w₁.store := ht.pushBounded (k := .executionsRule e.ruleId) hs trivial cell
  have huser := hrule.pushBounded (k := .executionsUser e.userId) hs trivial cell
  have hne : Key.executionsUser e.userId ≠ .executionsRule e.ruleId := nofun
  rw [Function.update_of_ne hne] at huser
  rw [h.cells_record]
  unfold Rules.recordRun
  rw [Operation.run_guardFor hreach]
  exact huser

theorem append (ht : Trimmed s h.cells w.store) (hs : s.Roomy) (hreach : w.outages = [])
    (r : Timeline.Remark) : Trimmed s (h.append (r.entry w)).cells (r.program.run w).2.store := by
  obtain ⟨w', hrun, hstore⟩ := Timeline.run_program r hreach
  rw [hrun, hstore, h.cells_append]
  exact ht.pushBounded (k := .activity r.taskId) hs trivial _

theorem notify (ht : Trimmed s h.cells w.store) (hs : s.Roomy) (hreach : w.outages = []) {p : Inbox.Post}
    (hdelivered : ((p.program s).run w).1 = .ok true) :
    Trimmed s (h.notify (p.noteIn w)).cells ((p.program s).run w).2.store := by
  obtain ⟨w₁, hsame, hnote, hrun⟩ := Inbox.run_post s p hreach
  rw [hrun] at hdelivered ⊢
  split at hdelivered
  · next hadmits =>
    obtain ⟨w', hdeliver, hstore⟩ := Inbox.run_deliver s p w₁
    rw [if_pos hadmits, hdeliver, hstore, hnote, h.cells_notify]
    exact (ht.of_lookup_eq hsame).pushBounded (k := .inbox p.userId) hs trivial _
  · cases hdelivered

theorem refuse (ht : Trimmed s h.cells w.store) (hreach : w.outages = []) {p : Inbox.Post}
    (hrefused : ((p.program s).run w).1 = .ok false) :
    Trimmed s h.cells ((p.program s).run w).2.store := by
  obtain ⟨w₁, hsame, -, hrun⟩ := Inbox.run_post s p hreach
  rw [hrun] at hrefused ⊢
  split at hrefused
  · obtain ⟨w', hdeliver, -⟩ := Inbox.run_deliver s p w₁
    rw [hdeliver] at hrefused
    cases hrefused
  · next hadmits =>
    rw [if_neg hadmits]
    exact ht.of_lookup_eq hsame

/-- A program that keeps off the lists leaves them as they are. -/
theorem other (ht : Trimmed s h.cells w.store) {α : Type} {p : Program α}
    (hp : p.Within (Call.Touches fun k => ¬ k.isHistory)) : Trimmed s h.cells (p.run w).2.store :=
  ht.of_lookup_eq fun _ hk => hp.lookup_run (not_not.mpr hk) w

end Trimmed

end TaskAutomation
