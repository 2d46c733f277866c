import TaskAutomation.Proofs.Engine.Accounting
import TaskAutomation.Proofs.Value.Finite

/-!
# Runs that are told and runs that are kept

A run that did not fail is counted in the outcome of its rule, and its record is put into the history of
the rule. The two agree as long as no rule's own count is out of reach, which is taken after the record
is kept and makes the rule fail.

* `Entry.earned log` : the records of runs that did not fail which the calls of a log put into
  histories; `Unhindered log` : the count of a rule was never out of reach;
* `Earns p v` : what the program keeps of such records is what its result tells of them, and nothing is
  kept where it fails; closed under what programs are put together with (`Earns.bind`, `Earns.after`,
  `Earns.attempt`, `Earns.told`, `Earns.each`, `Earns.guarded`);
* `Engine.earns_execute`, `Engine.earns_runAll`, `Engine.earns_process` : one rule, and all rules on a
  trigger.
-/

namespace TaskAutomation

open Program

/-! ## Records of runs that did not fail -/

/-- The status in the document of a run. -/
def Cell.status? : Cell → Option Value
  | .document (.obj f) => Fields.get? f "status"
  | _ => none

/-- The call puts the record of a run that succeeded, in part at least, into the history of a rule. -/
def Call.earns : Call → Bool
  | .store (.push (.executionsRule _) cell) =>
    match cell.status? with
    | some (.str s) => s == ExecutionStatus.success.name || s == ExecutionStatus.part.name
    | _ => false
  | _ => false

/-- The records of runs that did not fail which were put into histories. -/
def Entry.earned (log : List Entry) : Nat := log.countP fun n => n.call.earns

/-- The run did not fail. -/
def Execution.worth (r : Execution) : Nat := if r.status = .failed then 0 else 1

theorem Call.earns_push (id : String) (r : Execution) :
    (Call.store (.push (.executionsRule id) (.ofDocument r.fields))).earns
      = decide (r.status ≠ .failed) := by
  have hstatus : (Cell.ofDocument r.fields).status? = some (.str r.status.name) := by
    show Fields.get? (Value.storableFields r.fields) "status" = _
    rw [Value.get?_storableFields]
    rfl
  simp only [earns, hstatus]
  cases r.status <;> decide

namespace Entry

@[simp] theorem earned_nil : earned [] = 0 := rfl

@[simp] theorem earned_append (log more : List Entry) :
    earned (log ++ more) = earned log + earned more := List.countP_append

theorem earned_flatMap {ι : Type} (xs : List ι) (f : ι → List Entry) :
    earned (xs.flatMap f) = Scan.total (xs.map fun x => earned (f x)) := by
  induction xs with
  | nil => rfl
  | cons x rest ih =>
    rw [List.flatMap_cons, earned_append, ih]
    rfl

theorem earned_of_within {α : Type} {p : Program α} (hp : p.Within fun c => c.earns = false)
    {log : List Entry} {result : Except Failure α} (h : p.Ends log result) : earned log = 0 :=
  List.countP_eq_zero.mpr fun n hn => Bool.eq_false_iff.mp (h.within hp n hn)

end Entry

/-- What keeps away from histories puts nothing there. -/
theorem Call.earns_of_touches {area : Key → Prop} (harea : ∀ id, ¬area (.executionsRule id)) (c : Call)
    (h : c.Touches area) : c.earns = false := by
  unfold earns
  split
  · next id cell => exact absurd (h _ rfl) (harea id)
  · rfl

/-- The count of a rule was never out of reach. -/
def Unhindered (log : List Entry) : Prop :=
  ∀ n ∈ log, ∀ argument subject, ∀ message : String,
    n ≠ ⟨.enter (Rules.operation "increment_execution") argument subject, some message⟩

namespace Unhindered

variable {log more : List Entry}

theorem of_subset (h : Unhindered log) (hsub : ∀ n ∈ more, n ∈ log) : Unhindered more :=
  fun n hn => h n (hsub n hn)

theorem left (h : Unhindered (log ++ more)) : Unhindered log :=
  h.of_subset fun _ => List.mem_append_left more

theorem right (h : Unhindered (log ++ more)) : Unhindered more :=
  h.of_subset fun _ => List.mem_append_right log

theorem tail {n : Entry} (h : Unhindered (n :: log)) : Unhindered log :=
  h.of_subset fun _ => List.mem_cons_of_mem n

end Unhindered

/-- So it is where nothing was out of reach. -/
theorem Clean.unhindered {log : List Entry} (h : Clean log) : Unhindered log :=
  fun n hn argument subject message => h n hn _ argument subject message

/-! ## Programs that keep what they tell -/

/-- What a result is worth; a failure is worth nothing. -/
def gain {α : Type} (v : α → Nat) : Except Failure α → Nat
  | .ok a => v a
  | .error _ => 0

/-- The program keeps as many records of runs that did not fail as its result is worth. -/
def Earns {α : Type} (p : Program α) (v : α → Nat) : Prop :=
  ∀ log result, p.Ends log result → Unhindered log → Entry.earned log = gain v result

/-- The program keeps no such record. -/
abbrev Idle {α : Type} (p : Program α) : Prop := p.Within fun c => c.earns = false

theorem Idle.of_touches {α : Type} {area : Key → Prop} {p : Program α}
    (h : p.Within (Call.Touches area)) (harea : ∀ id, ¬area (.executionsRule id)) : Idle p :=
  h.mono (Call.earns_of_touches harea)

namespace Earns

variable {α β : Type} {v : α → Nat} {u : β → Nat}

theorem done {b : β} (h : u b = 0) : Earns (.done b) u := by
  rintro log result ⟨rfl, rfl⟩ -
  exact h.symm

/-- After a part that keeps nothing. -/
theorem bind {p : Program α} {g : α → Program β} (hp : Idle p) (hg : ∀ a, Earns (g a) u) :
    Earns (p >>= g) u := by
  intro log result h hfree
  rcases Ends.of_bind h with ⟨f, hfail, rfl⟩ | ⟨before, after, a, rfl, ha, hrest⟩
  · exact Entry.earned_of_within hp hfail
  · rw [Entry.earned_append, Entry.earned_of_within hp ha, hg a after result hrest hfree.right, zero_add]

/-- Before a part that keeps nothing, cannot fail, and tells what was kept. -/
theorem after {p : Program α} {g : α → Program β} (hp : Earns p v)
    (hg : ∀ a log result, (g a).Ends log result → Unhindered log →
      Entry.earned log = 0 ∧ ∃ b, result = .ok b ∧ u b = v a) : Earns (p >>= g) u := by
  intro log result h hfree
  rcases Ends.of_bind h with ⟨f, hfail, rfl⟩ | ⟨before, after, a, rfl, ha, hrest⟩
  · exact hp log _ hfail hfree
  · obtain ⟨hnone, b, rfl, hb⟩ := hg a after result hrest hfree.right
    rw [Entry.earned_append, hp before _ ha hfree.left, hnone, Nat.add_zero]
    exact hb.symm

/-- Before a result that tells what was kept. -/
theorem map {p : Program α} {g : α → β} (hp : Earns p v) (hg : ∀ a, u (g a) = v a) :
    Earns (p >>= fun a => pure (g a)) u := by
  refine hp.after ?_
  rintro a log result ⟨rfl, rfl⟩ -
  exact ⟨rfl, _, rfl, hg a⟩

theorem attempt {p : Program α} (hp : Earns p v) : Earns p.attempt (gain v) := by
  intro log result h hfree
  obtain ⟨outcome, hends, rfl⟩ := Ends.of_attempt h
  exact hp log outcome hends hfree

/-- An attempt whose outcome is only told. -/
theorem told {p : Program α} (hp : Earns p v) {g : Except Failure α → Program β}
    (hg : ∀ outcome, ∃ b, g outcome = .done b ∧ u b = gain v outcome) : Earns (p.attempt >>= g) u := by
  choose f hdone hgain using hg
  intro log result h hfree
  obtain ⟨outcome, hends, rfl⟩ := Ends.of_attempt_told hdone h
  exact (hp log outcome hends hfree).trans (hgain outcome).symm

theorem guarded {o : Operation} {argument : Option Value} {subject : Subject} {body : Program β}
    (h : Earns body u) : Earns (o.guarded argument subject body) u := by
  intro log result hends hfree
  rcases Ends.of_guarded hends with ⟨message, rfl, rfl⟩ | ⟨rest, rfl, hbody⟩
  · rfl
  · exact (Entry.earned_append [_] rest).trans ((zero_add _).trans (h rest result hbody hfree.tail))

theorem guard {o : Operation} {argument : Option Value} {body : Program β} (h : Earns body u) :
    Earns (o.guard argument body) u := h.guarded

/-- Programs that cannot fail keep together what each of them keeps. -/
theorem each {f : α → Program β} {items : List α} (h : ∀ a ∈ items, Earns (f a) u)
    (hf : ∀ a ∈ items, (f a).Succeeds fun _ => True) :
    Earns (Program.each f items) fun bs => Scan.total (bs.map u) := by
  induction items with
  | nil => exact .done rfl
  | cons a rest ih =>
    intro log result hends hfree
    have hrest := Succeeds.each fun c hc => hf c (List.mem_cons_of_mem a hc)
    obtain ⟨before, after, b, rfl, hb, -, hends⟩ := (hf a List.mem_cons_self).of_bind hends
    obtain ⟨mid, last, bs, rfl, hbs, -, rfl, rfl⟩ := hrest.of_bind hends
    have hafter := ih (fun c hc => h c (List.mem_cons_of_mem a hc))
      (fun c hc => hf c (List.mem_cons_of_mem a hc)) mid _ hbs hfree.right.left
    rw [Entry.earned_append, Entry.earned_append, h a List.mem_cons_self before _ hb hfree.left, hafter]
    rfl

end Earns

/-! ## Rules -/

/-- The rule ran, and did not fail. -/
def RuleOutcome.worth (o : RuleOutcome) : Nat := if o.executed then 1 else 0

theorem TriggerOutcome.executedCount_eq (o : TriggerOutcome) :
    o.executedCount = Scan.total (o.outcomes.map RuleOutcome.worth) := by
  unfold executedCount Scan.total
  induction o.outcomes with
  | nil => rfl
  | cons a rest ih =>
    rw [List.countP_cons, ih, List.map_cons, List.foldr_cons, RuleOutcome.worth, Nat.add_comm]

namespace Engine

variable {e : Engine} {rule : Rule} {x : Occurrence} {once : Bool}

theorem worth_of_record {id : String} {matched : Bool} {error : Option String} (r : Execution) :
    ({ ruleId := id, matched, record := some r, error } : RuleOutcome).worth = r.worth := by
  simp [RuleOutcome.worth, RuleOutcome.executed, Execution.worth]

/-- A record that is put into the histories is worth what it says. -/
theorem earns_recordRun (s : Settings) (r : Execution) :
    Earns (Rules.recordRun s r) fun _ => r.worth := by
  refine .guarded ?_
  rintro log result ⟨⟨⟩, _, rfl, ⟨⟩, _, rfl, ⟨⟩, _, rfl, ⟨⟩, _, rfl, rfl, rfl⟩ -
  rw [Entry.earned, List.countP_cons, Call.earns_push]
  -- of the four writes only the first is into the history of a rule
  refine (Nat.zero_add _).trans ?_
  unfold gain Execution.worth
  by_cases hfailed : r.status = .failed <;> simp [hfailed]

/-- As long as it is in reach, the count of a rule does not fail. -/
theorem ends_countRun_of_unhindered {id : String} {ranAt : Moment} {log : List Entry}
    {result : Except Failure Unit} (hfree : Unhindered log)
    (h : (Rules.countRun id ranAt).Ends log result) : result = .ok () := by
  rcases Ends.of_guarded h with ⟨message, rfl, rfl⟩ | ⟨rest, rfl, there, rest', rfl, hcount⟩
  · exact absurd rfl (hfree _ List.mem_cons_self _ _ message)
  · cases there with
    | false => exact hcount.2
    | true =>
      obtain ⟨⟨⟩, _, -, ⟨⟩, _, -, -, hresult⟩ := hcount
      exact hresult

/-- A record that is kept is worth what it says. -/
theorem earns_keep (r : Execution) : Earns (e.keep r) fun _ => r.worth := by
  refine .guard ((earns_recordRun e.settings r).after fun _ log result h hfree => ?_)
  have hidle : Idle (Rules.countRun r.ruleId r.executedAt) :=
    .of_touches (Rules.touches_countRun _ _) fun _ => nofun
  rcases Ends.of_bind h with ⟨f, hfail, -⟩ | ⟨before, after, _, rfl, hcount, _, _, rfl, rfl, rfl⟩
  · cases ends_countRun_of_unhindered hfree hfail
  · rw [Entry.earned_append, Entry.earned_of_within hidle hcount]
    exact ⟨rfl, (), rfl, rfl⟩

theorem idle_recordOf (actions : List ActionOutcome) (status : ExecutionStatus)
    (error : Option String) : Idle (recordOf rule x actions status error) :=
  .bind (.call rfl) fun _ => .bind (.call rfl) fun _ => .done _

theorem idle_runActions : Idle (e.runActions rule x) :=
  .guardFor rfl (Idle.of_touches (works_runActionsFrom rule x x.context rule.actions) fun _ => id)

/-- A rule tells that it ran, and did not fail, just when such a record is kept. -/
theorem earns_execute : Earns (e.execute rule x once) RuleOutcome.worth := by
  have hevaluate : Idle (evaluate rule x) := .guardFor rfl (.ofExcept _)
  refine .guarded (.bind hevaluate.attempt fun tried => ?_)
  cases tried with
  | error f =>
    refine .bind (idle_recordOf _ _ _) fun record => (earns_keep record).map fun _ => ?_
    exact worth_of_record record
  | ok matched =>
    refine .bind (.call rfl) fun _ => ?_
    cases matched with
    | false => exact .done rfl
    | true =>
      refine .bind (Idle.of_touches (touches_mayAct rule x once) fun _ => nofun) fun may => ?_
      cases may with
      | true =>
        refine .bind idle_runActions fun outcomes => .bind (idle_recordOf _ _ _) fun record => ?_
        exact (earns_keep record).map fun _ => worth_of_record record
      | false => exact .bind (.call rfl) fun _ => .done rfl

theorem earns_executeSafely (rule : Rule) : Earns (e.executeSafely x once rule) RuleOutcome.worth :=
  earns_execute.told (by rintro (_ | _) <;> exact ⟨_, rfl, rfl⟩)

theorem earns_runAll (rules : List Rule) :
    Earns (e.runAll rules x once) TriggerOutcome.executedCount := by
  have heach : Earns (each (e.executeSafely x once) (candidates rules x)) fun os =>
      Scan.total (os.map RuleOutcome.worth) :=
    .each (fun rule _ => earns_executeSafely rule) fun rule _ => succeeds_executeSafely rule x once
  exact .guard (heach.map fun os => TriggerOutcome.executedCount_eq _)

/-- What a trigger tells of the rules that ran agrees with the records that are kept. -/
theorem earns_process (e : Engine) (x : Occurrence) (once : Bool) :
    Earns (e.process x once) TriggerOutcome.executedCount := by
  have hactive : Idle (Rules.active x.task.userId x.event) := .of_touches (Rules.reads_active _ _) fun _ => id
  refine .guard (.bind (.call rfl) fun _ => .bind hactive.attempt fun found => ?_)
  cases found with
  | ok rules => exact earns_runAll rules
  | error f => exact .done rfl

end Engine

end TaskAutomation
