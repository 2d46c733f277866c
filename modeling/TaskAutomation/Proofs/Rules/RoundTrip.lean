import TaskAutomation.Engine.Run
import TaskAutomation.Proofs.Rules.Reading
import TaskAutomation.Proofs.Value.Finite

/-!
# Rules come back from the store

* `Rule.Storable` : the numbers in a rule's conditions and in the parameters of its actions are finite,
  and its moments are in whole minutes from UTC, as those of every rule that passes its check are
  (`Rule.stamped_of_check`);
* `Rules.run_create` : creating a rule leaves a table without an end, whatever was there before, that
  says what the rule says;
* `Rules.run_get_of_create` : it is read as the rule with null for numbers that are not finite;
* `Rules.get_create` : a rule that can be stored is read as itself, in every field, at any later time.
-/

namespace TaskAutomation

open Check Program

theorem Action.reread_eq {a : Action} (h : Value.allFiniteFields a.parameters = true) :
    a.reread = a := by
  unfold Action.reread
  rw [Value.storableFields_of_allFinite _ h]

namespace Rule

/-- What the object of a rule says all of. -/
structure Storable (r : Rule) : Prop where
  conditions : Value.allFiniteFields r.conditions = true
  parameters : ∀ a ∈ r.actions, Value.allFiniteFields a.parameters = true
  createdAt : r.createdAt.Stamped
  updatedAt : r.updatedAt.Stamped

/-- The moments of a rule that passes its check are in whole minutes from UTC. -/
theorem stamped_of_check {s : Setting} {v : Value} {r : Rule} (hs : s.now.Stamped)
    (h : Rule.check s v = .ok r) : r.createdAt.Stamped ∧ r.updatedAt.Stamped := by
  obtain ⟨f, -, -, -, hcreated, hupdated⟩ := parts_of_check h
  exact ⟨stamped_of_optional hs hcreated, stamped_of_optional hs hupdated⟩

/-- A rule that can be stored is all in its object. -/
theorem Storable.stored_eq {r : Rule} (h : r.Storable) : Rules.stored r = r := by
  have hactions : r.actions.map Action.reread = r.actions := by
    conv_rhs => rw [← List.map_id r.actions]
    exact List.map_congr_left fun a ha => Action.reread_eq (h.parameters a ha)
  unfold Rules.stored reread
  rw [Value.storableFields_of_allFinite _ h.conditions, hactions, h.createdAt.toMinute_eq,
    h.updatedAt.toMinute_eq]

end Rule

namespace Rules

variable {rule : Rule} {w later : World}

/-- The cells that a new rule is written with. -/
def creationCells (rule : Rule) : List (String × Cell) :=
  [("config", .ofDocument rule.fields), ("is_active", flagCell rule.isActive),
    ("execution_count", .count rule.executionCount), ("last_executed", momentCell rule.lastExecuted)]

/-- What a new rule is written over shows nowhere. -/
theorem assemble_creationCells (base rule : Rule) (cells : List (String × Cell)) :
    assemble base (setCells (creationCells rule) cells) =
      { base with isActive := rule.isActive, executionCount := rule.executionCount,
                  lastExecuted := rule.lastExecuted } := by
  have hactive : (setCells (creationCells rule) cells).lookup "is_active" =
      some (flagCell rule.isActive) := by
    simp [setCells, creationCells, Content.lookup_putCell]
  have hcount : (setCells (creationCells rule) cells).lookup "execution_count" =
      some (.count rule.executionCount) := by
    simp [setCells, creationCells, Content.lookup_putCell]
  have hlast : (setCells (creationCells rule) cells).lookup "last_executed" =
      some (momentCell rule.lastExecuted) := by
    simp [setCells, creationCells, Content.lookup_putCell]
  unfold assemble
  rw [hactive, hcount, hlast, isActiveCell_flagCell, momentOf_momentCell]
  rfl

/-- A rule is created with a table of its own, in place of the cells that were there. -/
theorem run_create (ho : w.outages = []) (hlasts : w.store.Lasts (.ruleDetail rule.id)) :
    ∃ w', (create rule).run w = (.ok rule, w') ∧ w'.store.Keeps (.ruleDetail rule.id)
      (.table (setCells (creationCells rule) (w.store.table w.clock.instant (.ruleDetail rule.id)))) := by
  let w₁ := w.after (.tableSet (.ruleDetail rule.id) (creationCells rule))
  let w₂ := w₁.after (.setAdd .ruleAll rule.id)
  let w₃ := w₂.after (.setAdd (.ruleUser rule.userId) rule.id)
  let w₄ := w₃.after (.setAdd (.ruleTrigger rule.trigger.name) rule.id)
  have hrun : (create rule).run w = (.ok rule, w₄) := by
    unfold create
    rw [Operation.run_guard ho, run_bind_ok (run_store _ _), run_bind_ok (run_store _ _),
      run_bind_ok (run_store _ _), run_bind_ok (run_store _ _), run_pure]
    rfl
  refine ⟨w₄, hrun, ?_⟩
  have htable : w₁.store.Keeps (.ruleDetail rule.id) (.table (setCells (creationCells rule)
      (w.store.table w.clock.instant (.ruleDetail rule.id)))) := hlasts.keep w.clock.instant _
  -- the indexes of the rule are entered after its table, under other keys
  have hall : w₂.store.slots.lookup (.ruleDetail rule.id) = w₁.store.slots.lookup (.ruleDetail rule.id) :=
    World.lookup_after _ nofun
  have huser : w₃.store.slots.lookup (.ruleDetail rule.id) = w₂.store.slots.lookup (.ruleDetail rule.id) :=
    World.lookup_after _ nofun
  have htrigger :
      w₄.store.slots.lookup (.ruleDetail rule.id) = w₃.store.slots.lookup (.ruleDetail rule.id) :=
    World.lookup_after _ nofun
  exact htable.of_lookup_eq (htrigger.trans (huser.trans hall))

/-- A rule that was created is read, at any later time, as it is stored. -/
theorem run_get_of_create (hwell : rule.WellFormed) (ho : w.outages = [])
    (hlasts : w.store.Lasts (.ruleDetail rule.id))
    (hstore : later.store = ((create rule).run w).2.store) (hlater : later.outages = []) :
    (get rule.id).run later = (.ok (some (stored rule)), later) := by
  obtain ⟨w', hcreate, hkeeps⟩ := run_create ho hlasts
  rw [hcreate] at hstore
  rw [← hstore] at hkeeps
  have hconfig : ((setCells (creationCells rule) (w.store.table w.clock.instant
      (.ruleDetail rule.id))).lookup "config").bind Cell.document? =
      some (.obj (Value.storableFields rule.fields)) := by
    simp [setCells, creationCells, Content.lookup_putCell, Cell.ofDocument, Cell.document?]
  rw [run_get_of_keeps hlater hkeeps hconfig (Rule.check_fields hwell _), assemble_creationCells]
  rfl

/-- A rule that can be stored is read as itself at any later time, so its conditions hold for what they
held for. -/
theorem get_create (hwell : rule.WellFormed) (hstorable : rule.Storable) (ho : w.outages = [])
    (hlasts : w.store.Lasts (.ruleDetail rule.id))
    (hstore : later.store = ((create rule).run w).2.store) (hlater : later.outages = []) :
    ((create rule).run w).1 = .ok rule ∧ ∃ found, ((get rule.id).run later).1 = .ok (some found) ∧
      found = rule ∧ ∀ task context, found.holds task context = rule.holds task context := by
  obtain ⟨w', hcreate, -⟩ := run_create ho hlasts
  rw [run_get_of_create hwell ho hlasts hstore hlater, hstorable.stored_eq]
  exact ⟨congrArg Prod.fst hcreate, rule, rfl, rfl, fun _ _ => rfl⟩

/-- A rule with numbers of both kinds, nested in its conditions and parameters, that has run twice. -/
def nestedRule : Rule where
  id := "rule_1"
  userId := "user_1"
  name := "Plan"
  description := "Plans the next step"
  trigger := .taskCompleted
  conditions := [("task.estimated_hours", .obj [(">", .int 1), ("<=", .float 1.5)]),
    ("any", .list [.obj [("task.tag", .list [.str "call", .null])],
      .obj [("task.points", .obj [("==", .float 1.0)])]])]
  actions := [⟨"create_subtasks", [("subtasks", .list [.obj [("title", .str "Agenda"),
    ("estimated_hours", .float 0.5), ("points", .int 3)]])]⟩]
  isActive := false
  executionCount := 2
  lastExecuted := some ⟨Moment.epoch, some 5400⟩
  createdAt := Moment.ofInstant Moment.epoch
  updatedAt := Moment.ofInstant Moment.epoch

theorem wellFormed_nestedRule : nestedRule.WellFormed where
  actions := by decide
  types := by simp [nestedRule]
  count := by decide
  lastExecuted := by
    rintro _ ⟨⟩
    exact ⟨by decide, by rintro _ ⟨⟩; decide⟩
  createdAt := ⟨by decide, by rintro _ ⟨⟩; decide⟩
  updatedAt := ⟨by decide, by rintro _ ⟨⟩; decide⟩

theorem storable_nestedRule : nestedRule.Storable where
  conditions := by decide +kernel
  parameters := by decide +kernel
  createdAt := ⟨wellFormed_nestedRule.createdAt, by rintro _ ⟨⟩; decide⟩
  updatedAt := ⟨wellFormed_nestedRule.updatedAt, by rintro _ ⟨⟩; decide⟩

/-- A world with other cells in the place of that rule. -/
def occupiedWorld : World :=
  { store := ⟨[(.ruleDetail "rule_1", ⟨.table [("is_active", .text "true"), ("owner", .text "u")], none⟩)]⟩
    clock := Moment.ofInstant 0 }

/-- The rule comes back from there. -/
theorem get_create_of_nested :
    ((get "rule_1").run ((create nestedRule).run occupiedWorld).2).1 = .ok (some nestedRule) := by
  have hlasts : occupiedWorld.store.Lasts (.ruleDetail nestedRule.id) := by
    rintro slot ⟨⟩
    rfl
  obtain ⟨-, found, hfound, rfl, -⟩ := get_create (w := occupiedWorld)
    wellFormed_nestedRule storable_nestedRule rfl hlasts rfl (run_outages _ _)
  exact hfound

end Rules

end TaskAutomation
