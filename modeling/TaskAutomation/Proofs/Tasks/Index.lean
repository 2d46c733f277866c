import Mathlib.Logic.Function.Basic
import TaskAutomation.Proofs.Action.Effects
import TaskAutomation.Proofs.Program.Frame
import TaskAutomation.Proofs.Task

/-!
# Documents and due indexes of the task store

* `Tasks.Document s id t?` : under an id the store has the document of a task, which is read back as
  this task at any time, or nothing; `Tasks.Documents s m` : it has those of the tasks of `m`;
* `Tasks.Due m u a` : what is in the due index of a user: the tasks of the user that are due, each at
  the score of its due date;
* `Tasks.Indexed s m` : the store holds the documents of the tasks of `m`, and every due index has
  just what it should have, in order;
* `Tasks.run_get_of_keeps` : a document is read as what it is checked to be;
  `Tasks.run_save_document` : a task that is written is in its document, whatever was there before;
  `Tasks.check_of_get`, `Tasks.saved_of_save` : what an answer says, whatever is out of reach;
* `Tasks.save_indexed` : a task that is written is in its document and in the due index of its user,
  at its due date or, without one, not at all.
-/

namespace TaskAutomation.Tasks

open Check Program

variable {s s' : Store} {m : String → Option Task}

/-! ## Documents and indexes -/

/-- Under an id there is the document of a task with this id, without an end, or nothing. -/
def Document (s : Store) (id : String) : Option Task → Prop
  | none => s.slots.lookup (.taskDetail id) = none
  | some t => t.id = id ∧ t.WellFormed ∧ ∃ v, (∀ setting, Task.check setting v = .ok t) ∧
    s.slots.lookup (.taskDetail id) = some ⟨.cell (.document v), none⟩

/-- The store holds the tasks of a map as documents, and no others. -/
def Documents (s : Store) (m : String → Option Task) : Prop := ∀ id, Document s id (m id)

/-- The member of the due index of a user is a task of the user at the score of its due date. -/
def Due (m : String → Option Task) (userId : String) (a : Scored) : Prop :=
  ∃ t due, m a.member = some t ∧ t.userId = userId ∧ t.dueDate = some due ∧ a.score = due.timestamp

/-- The store holds the tasks of a map, and each due index has just the tasks that belong to it. -/
structure Indexed (s : Store) (m : String → Option Task) : Prop where
  document : ∀ id, Document s id (m id)
  due : ∀ userId, ∃ members, s.Keeps (.taskDue userId) (.ordered members) ∧
    Scored.InOrder members ∧ ∀ a, a ∈ members ↔ Due m userId a

theorem Document.of_lookup_eq {id : String} {t? : Option Task} (h : Document s id t?)
    (heq : s'.slots.lookup (.taskDetail id) = s.slots.lookup (.taskDetail id)) :
    Document s' id t? := by
  cases t? with
  | none => exact heq.trans h
  | some t =>
    obtain ⟨hid, hwell, v, hcheck, hlookup⟩ := h
    exact ⟨hid, hwell, v, hcheck, heq.trans hlookup⟩

theorem Documents.id_eq (h : Documents s m) {id : String} {t : Task} (hm : m id = some t) :
    t.id = id := by
  have hdocument := h id
  rw [hm] at hdocument
  exact hdocument.1

theorem Indexed.id_eq (h : Indexed s m) {id : String} {t : Task} (hm : m id = some t) : t.id = id :=
  Documents.id_eq h.document hm

theorem indexed_of_empty (h : s.slots = []) : Indexed s fun _ => none := by
  have hlookup : ∀ k, s.slots.lookup k = none := by
    intro k
    rw [h]
    rfl
  refine ⟨fun id => hlookup _, fun u => ⟨[], ?_, .nil, ?_⟩⟩
  · exact Store.keeps_of_lookup_none (hlookup _) rfl
  · intro a
    simp [Due]

/-! ## Reading a task -/

variable {w : World} {t : Task}

/-- Where there is a document, the body of reading checks it, and changes nothing. -/
theorem run_get_body {id : String} {v : Value}
    (hkeeps : w.store.Keeps (.taskDetail id) (.cell (.document v))) :
    ∃ body, get id = (operation "get_task").guard (some (.str id)) body ∧ body.run w =
      ((Failure.ofChecked "Task" (Task.check { now := w.clock } v)).map some, w) := by
  have hcell : ((Command.get (.taskDetail id)).run w.clock.instant w.store).1 =
      some (.document v) := hkeeps.cell? w.clock.instant
  refine ⟨_, rfl, ?_⟩
  rw [run_bind_ok (run_read rfl w), hcell]
  show ((do return some (← ofChecked "Task" (Task.check (← setting) v))) : Program _).run w = _
  rw [run_bind_ok (run_setting w)]
  cases Task.check { now := w.clock } v <;> rfl

/-- A document is read as the task it is checked to be, if it is one, and reading changes nothing. -/
theorem run_get_of_keeps {id : String} {v : Value} (ho : w.outages = [])
    (hkeeps : w.store.Keeps (.taskDetail id) (.cell (.document v))) :
    (get id).run w =
      ((Failure.ofChecked "Task" (Task.check { now := w.clock } v)).map some, w) := by
  obtain ⟨body, hget, hrun⟩ := run_get_body hkeeps
  rw [hget, Operation.run_guard ho, hrun]

/-- What a document is read as is the task it is checked to be. -/
theorem check_of_get {id : String} {v : Value} {t? : Option Task} {w' : World}
    (hkeeps : w.store.Keeps (.taskDetail id) (.cell (.document v)))
    (h : (get id).run w = (.ok t?, w')) :
    w' = w ∧ ∃ t, t? = some t ∧ Task.check { now := w.clock } v = .ok t := by
  obtain ⟨body, hget, hrun⟩ := run_get_body hkeeps
  rw [hget] at h
  rw [Operation.run_of_guard_ok h] at hrun
  cases hcheck : Task.check { now := w.clock } v with
  | issues found =>
    rw [hcheck] at hrun
    cases hrun
  | ok t =>
    rw [hcheck] at hrun
    cases hrun
    exact ⟨rfl, t, rfl, rfl⟩

/-! ## Scores -/

theorem isNumber_timestamp (due : Moment) : Scored.IsNumber due.timestamp :=
  Decimal.ofFloat_nearest_ne_nan _ _ _

/-- The members of a due index once a task of its user has been written. -/
def reindex (t : Task) (members : List Scored) : List Scored :=
  match t.dueDate with
  | some due => Scored.put ⟨t.id, due.timestamp⟩ members
  | none => members.filter (·.member != t.id)

theorem inOrder_reindex (t : Task) {members : List Scored} (h : Scored.InOrder members) :
    Scored.InOrder (reindex t members) := by
  unfold reindex
  split
  · next due _ => exact h.put (isNumber_timestamp due)
  · exact h.filter _

theorem mem_reindex {t : Task} {members : List Scored} {a : Scored} :
    a ∈ reindex t members ↔ if a.member = t.id then ∃ due, t.dueDate = some due ∧ a.score = due.timestamp
      else a ∈ members := by
  obtain ⟨member, score⟩ := a
  unfold reindex
  cases hdue : t.dueDate with
  | none =>
    by_cases hid : member = t.id
    · simp [hid]
    · simp [hid]
  | some due =>
    simp only [Scored.mem_put, Scored.mk.injEq]
    by_cases hid : member = t.id
    · simp [hid]
    · simp [hid]

/-! ## Writing a task -/

theorem run_move (id : String) (key : String → Key) (old new : Option String) (w : World) :
    ((move id key old new).run w).1 = .ok () := by
  unfold move
  cases old with
  | none => cases new with
    | none => rfl
    | some n =>
      dsimp only
      split <;> rfl
  | some o => cases new with
    | none =>
      dsimp only
      split <;> rfl
    | some n =>
      dsimp only
      split <;> split <;> rfl

/-- The sets of a client's and of a parent's tasks. -/
def IsRelated : Key → Prop
  | .taskClient _ | .taskParent _ => True
  | _ => False

/-- Moving to the sets of a client and a parent leaves everything else. -/
theorem run_moves (t : Task) (previous : Option Task) (w : World) :
    ∃ w', (moves t previous).run w = (.ok t, w')
      ∧ ∀ k, ¬ IsRelated k → w'.store.slots.lookup k = w.store.slots.lookup k := by
  obtain ⟨w₁, hclient⟩ : ∃ w₁, (move t.id .taskClient (previous.bind Task.clientId)
      t.clientId).run w = (.ok (), w₁) := ⟨_, Prod.ext (run_move _ _ _ _ _) rfl⟩
  obtain ⟨w₂, hparent⟩ : ∃ w₂, (move t.id .taskParent (previous.bind Task.parentTaskId)
      t.parentTaskId).run w₁ = (.ok (), w₂) := ⟨_, Prod.ext (run_move _ _ _ _ _) rfl⟩
  have hrun : (moves t previous).run w = (.ok t, w₂) := by
    unfold moves
    rw [run_bind_ok hclient, run_bind_ok hparent, run_pure]
  have hwithin : (moves t previous).Within (Call.Touches IsRelated) :=
    (discreet_moves (fun _ => trivial) (fun _ => trivial) t previous).touches
  refine ⟨w₂, hrun, fun k hk => ?_⟩
  have hlookup := hwithin.lookup_run hk w
  rwa [hrun] at hlookup

/-- The command that keeps the due index of a task's user in step. -/
def dueCommand (t : Task) : Command :=
  match t.dueDate with
  | some due => .orderedPut (.taskDue t.userId) t.id due.timestamp
  | none => .orderedRemove (.taskDue t.userId) t.id

theorem written_dueCommand (t : Task) : (dueCommand t).written = some (.taskDue t.userId) := by
  unfold dueCommand
  split <;> rfl

theorem keeps_dueCommand {s : Store} {members : List Scored} (t : Task) (now : Int)
    (h : s.Keeps (.taskDue t.userId) (.ordered members)) :
    ((dueCommand t).run now s).2.Keeps (.taskDue t.userId) (.ordered (reindex t members)) := by
  unfold dueCommand reindex
  cases t.dueDate with
  | none => exact h.orderedRemove _ _
  | some due => exact h.orderedPut _ _ _

/-- The world with the document of a task, and then the task in the index of its user. -/
def documented (w : World) (t : Task) : World :=
  (w.after (.set (.taskDetail t.id) (.ofDocument t.fields))).after
    (.orderedPut (.taskUser t.userId) t.id t.createdAt.timestamp)

theorem lookup_documented (w : World) (t : Task) (k : Key) (hk : k ≠ .taskUser t.userId) :
    (documented w t).store.slots.lookup k =
      if k = .taskDetail t.id then some ⟨.cell (.ofDocument t.fields), none⟩
      else w.store.slots.lookup k :=
  (World.lookup_after (c := .orderedPut (.taskUser t.userId) t.id _) _ fun heq =>
    hk (Option.some.inj heq).symm).trans (Store.lookup_put _ _ _ _)

/-- A document and two indexes are written, and then the task moves to the sets of its client and its
parent. -/
theorem run_save_body (t : Task) (previous : Option Task) :
    ∃ body, save t previous = (operation "save").guard none body ∧
      ∀ w, body.run w = (moves t previous).run ((documented w t).after (dueCommand t)) := by
  refine ⟨_, rfl, fun w => ?_⟩
  unfold dueCommand
  rw [run_bind_ok (run_store _ _), run_bind_ok (run_store _ _)]
  cases t.dueDate with
  | none => exact run_bind_ok (run_store _ _)
  | some due => exact run_bind_ok (run_store _ _)

theorem run_save_moves (t : Task) (previous : Option Task) (ho : w.outages = []) :
    (save t previous).run w = (moves t previous).run ((documented w t).after (dueCommand t)) := by
  obtain ⟨body, hsave, hrun⟩ := run_save_body t previous
  rw [hsave, Operation.run_guard ho, hrun]

/-- What a task that is written leaves of a store. -/
structure Saved (s s' : Store) (t : Task) : Prop where
  document : s'.slots.lookup (.taskDetail t.id) = some ⟨.cell (.ofDocument t.fields), none⟩
  created : ∀ {members}, s.Keeps (.taskUser t.userId) (.ordered members) →
    s'.Keeps (.taskUser t.userId) (.ordered (Scored.put ⟨t.id, t.createdAt.timestamp⟩ members))
  due : ∀ {members}, s.Keeps (.taskDue t.userId) (.ordered members) →
    s'.Keeps (.taskDue t.userId) (.ordered (reindex t members))
  other : ∀ k, ¬ IsRelated k → k ≠ .taskDetail t.id → k ≠ .taskUser t.userId →
    k ≠ .taskDue t.userId → s'.slots.lookup k = s.slots.lookup k

/-- A task that is written is in its document as it is read there; all others stay in theirs. -/
theorem Saved.documents (hsaved : Saved s s' t) (h : Documents s m) {t' : Task}
    (hdocument : Document s' t.id (some t')) : Documents s' (Function.update m t.id (some t')) := by
  intro id
  by_cases hid : id = t.id
  · subst hid
    rw [Function.update_self]
    exact hdocument
  · rw [Function.update_of_ne hid]
    refine (h id).of_lookup_eq (hsaved.other _ not_false ?_ nofun nofun)
    exact fun heq => hid (Key.taskDetail.inj heq)

theorem run_moves_saved (t : Task) (previous : Option Task) (w : World) :
    ∃ w', (moves t previous).run ((documented w t).after (dueCommand t)) = (.ok t, w')
      ∧ Saved w.store w'.store t := by
  obtain ⟨w', hrun, hlookup⟩ := run_moves t previous ((documented w t).after (dueCommand t))
  have hbeside : ∀ k, ¬ IsRelated k → k ≠ .taskDue t.userId →
      w'.store.slots.lookup k = (documented w t).store.slots.lookup k := by
    intro k hk hdue
    refine (hlookup k hk).trans (World.lookup_after _ fun heq => hdue ?_)
    exact Option.some.inj (heq.symm.trans (written_dueCommand t))
  refine ⟨w', hrun, ?_, fun {members} hkeeps => ?_, fun {members} hkeeps => ?_, ?_⟩
  · rw [hbeside (.taskDetail t.id) id nofun, lookup_documented w t (.taskDetail t.id) nofun, if_pos rfl]
  · have hset : (w.after (.set (.taskDetail t.id) (.ofDocument t.fields))).store.Keeps
        (.taskUser t.userId) (.ordered members) :=
      hkeeps.of_lookup_eq (World.lookup_after _ nofun)
    exact (hset.orderedPut _ _ _).of_lookup_eq (hbeside _ id nofun)
  · have hset : (documented w t).store.Keeps (.taskDue t.userId) (.ordered members) :=
      hkeeps.of_lookup_eq ((lookup_documented w t (.taskDue t.userId) nofun).trans (if_neg nofun))
    exact (keeps_dueCommand t w.clock.instant hset).of_lookup_eq (hlookup _ id)
  · intro k hk hdetail huser hdue
    rw [hbeside k hk hdue, lookup_documented w t k huser, if_neg hdetail]

/-- A task is written to its document and to the indexes of its user, whatever it replaces. -/
theorem run_save (t : Task) (previous : Option Task) (ho : w.outages = []) :
    ∃ w', (save t previous).run w = (.ok t, w') ∧ Saved w.store w'.store t := by
  rw [run_save_moves t previous ho]
  exact run_moves_saved t previous w

/-- So it is whenever the task is answered. -/
theorem saved_of_save {previous : Option Task} {t' : Task} {w' : World}
    (h : (save t previous).run w = (.ok t', w')) : t' = t ∧ Saved w.store w'.store t := by
  obtain ⟨body, hsave, hbody⟩ := run_save_body t previous
  obtain ⟨w'', hrun, hsaved⟩ := run_moves_saved t previous w
  rw [hsave] at h
  rw [← hbody, Operation.run_of_guard_ok h] at hrun
  cases hrun
  exact ⟨rfl, hsaved⟩

/-- A task that is written is in its document, whatever was there before. -/
theorem run_save_document (t : Task) (previous : Option Task) (ho : w.outages = []) :
    ∃ w', (save t previous).run w = (.ok t, w') ∧
      w'.store.Keeps (.taskDetail t.id) (.cell (.ofDocument t.fields)) := by
  obtain ⟨w', hrun, hsaved⟩ := run_save t previous ho
  exact ⟨w', hrun, hsaved.document⟩

/-- A task that is written is in its document and in the due index of its user, unless it takes the
place of another user's task. -/
theorem save_indexed (previous : Option Task) (h : Indexed w.store m) (ho : w.outages = [])
    (hwell : t.WellFormed) (hfinite : t.AllFinite)
    (howner : ∀ old, m t.id = some old → old.userId = t.userId) :
    ∃ w', (save t previous).run w = (.ok t, w') ∧
      Indexed w'.store (Function.update m t.id (some t.reread)) := by
  obtain ⟨members, hkeeps, horder, hmem⟩ := h.due t.userId
  obtain ⟨w', hrun, hsaved⟩ := run_save t previous ho
  have hdocument : Document w'.store t.id (some t.reread) :=
    ⟨rfl, hwell.reread, _, Task.check_fields hwell hfinite, hsaved.document⟩
  refine ⟨w', hrun, hsaved.documents h.document hdocument, fun u => ?_⟩
  · by_cases hu : u = t.userId
    · subst hu
      refine ⟨_, hsaved.due hkeeps, inOrder_reindex t horder, fun a => ?_⟩
      rw [mem_reindex]
      by_cases hid : a.member = t.id
      · rw [if_pos hid]
        simp [Due, hid, Task.reread]
      · rw [if_neg hid, hmem]
        simp [Due, hid]
    · obtain ⟨members', hkeeps', horder', hmem'⟩ := h.due u
      refine ⟨members', hkeeps'.of_lookup_eq (hsaved.other _ id nofun nofun ?_), horder', fun a => ?_⟩
      · exact fun heq => hu (Key.taskDue.inj heq)
      · rw [hmem']
        by_cases hid : a.member = t.id
        · -- the task of this id is of another user, before as well as now
          have hold : ∀ old, m t.id = some old → old.userId ≠ u :=
            fun old hm heq => hu (heq.symm.trans (howner old hm))
          simp only [Due, hid, Function.update_self, Option.some.injEq]
          constructor
          · rintro ⟨old, due, hm, howned, -⟩
            exact absurd howned (hold old hm)
          · rintro ⟨_, due, rfl, howned, -⟩
            exact absurd howned.symm hu
        · simp [Due, hid]

end TaskAutomation.Tasks
