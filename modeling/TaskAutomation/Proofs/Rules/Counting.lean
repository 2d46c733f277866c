import TaskAutomation.Proofs.Program.Given
import TaskAutomation.Proofs.Program.Traffic
import TaskAutomation.Proofs.Rules.Edits

/-!
# No run is counted in vain

Replacing the definition of a rule, or switching it, reads the rule first and writes what it read with
the change, so it may write a count that is no longer true. That count lies in the definition, where
no one looks for it; the count that is read has a cell of its own, which only runs write.

* `Edit.Writes id e c` : the commands with which an edit writes the table of a rule;
  `Edit.given_program` : there are no others, as long as the edit reads a readable table;
* `increments id c` : the call adds one to the count; `dated id s d` : the moment of the run whose
  deed sets the last run; `lastRun id s` : the latest of these;
* `Tells id count last s` : the table is readable, with this count and this last run; `Tells.answer` : a
  call of an edit adds to them what it increments and dates;
* `Counted id rule s` : the table tells what the deeds say; `Counted.step` : every step keeps it so;
* `runs_all_counted` : whatever edits of a stored rule are interleaved with, the rule that is read at any
  time has a count of its first value and all increments, and the moment of the latest run.
-/

namespace TaskAutomation

open Check Program

namespace Traffic

variable {ι α : Type} {prog : ι → Program α} {d : Regime ι} {s s' : Traffic ι α}

/-- What the maker of a deed is about. -/
def maker? (s : Traffic ι α) (x : Deed) : Option ι := s.flights[x.maker]?.map Prod.fst

/-- A program under way stays what it is about. -/
theorem maker?_step (hstep : Step prog d s s') {x : Deed} (hx : x.maker < s.flights.length) :
    s'.maker? x = s.maker? x := by
  cases hstep with
  | start hi =>
    unfold maker?
    rw [List.getElem?_append_left hx]
  | @call before after i c next hflights =>
    unfold maker?
    rw [hflights]
    dsimp only
    rcases Nat.lt_trichotomy x.maker before.length with hlt | heq | hgt
    · rw [List.getElem?_append_left hlt, List.getElem?_append_left hlt]
    · rw [heq, List.getElem?_append_right (Nat.le_refl _), List.getElem?_append_right (Nat.le_refl _),
        Nat.sub_self]
      rfl
    · obtain ⟨k, hk⟩ := Nat.exists_eq_add_of_lt hgt
      rw [List.getElem?_append_right (by omega), List.getElem?_append_right (by omega),
        show x.maker - before.length = k + 1 by omega, List.getElem?_cons_succ, List.getElem?_cons_succ]
  | others hw => rfl

theorem maker?_self (w : World) (before after : List (ι × Program α)) (i : ι) (p : Program α)
    (deeds : List Deed) (time : Int) (n : Entry) :
    maker? ⟨w, before ++ (i, p) :: after, deeds⟩ ⟨before.length, time, n⟩ = some i := by
  unfold maker?
  rw [List.getElem?_append_right (Nat.le_refl _), Nat.sub_self]
  rfl

end Traffic

namespace Rules

variable {id : String}

/-! ## What edits write -/

/-- The commands with which an edit writes the table of a rule. -/
inductive Edit.Writes (id : String) : Edit → Command → Prop where
  | redefine {given rule : Rule} (h : rule.WellFormed) :
    Writes id (.update id given) (.tableSet (.ruleDetail id) (definitionCells rule))
  | switch {isActive : Bool} {rule : Rule} (h : rule.WellFormed) :
    Writes id (.setActive id isActive) (.tableSet (.ruleDetail id) (definitionCells rule))
  | increment {ranAt : Moment} :
    Writes id (.countRun id ranAt) (.tableIncrement (.ruleDetail id) "execution_count")
  | date {ranAt : Moment} (h : ranAt.Shown) :
    Writes id (.countRun id ranAt) (.tableSet (.ruleDetail id) [("last_executed", .moment ranAt)])

/-- The calls of an edit: of those that write the table, the ones of its kind. -/
def Edit.Calls (id : String) (e : Edit) : Call → Prop
  | .store c => c.written = some (.ruleDetail id) → e.Writes id c
  | _ => True

/-- The clock is one that can be, and the table of the rule is readable. -/
def Answers (id : String) : (c : Call) → c.Reply → Prop
  | .now, m => m.Shown
  | .store (.tableAll k), cells => k = .ruleDetail id → Readable cells
  | _, _ => True

theorem Edit.calls_of_written {e : Edit} {c : Command} (h : c.written ≠ some (.ruleDetail id)) :
    e.Calls id (.store c) := fun heq => absurd heq h

/-- A rule that is read from a readable table is well formed. -/
theorem given_get (e : Edit) : (get id).Given (Answers id) (e.Calls id)
    fun rule? => ∀ rule ∈ rule?, rule.WellFormed := by
  have hread : (store (.tableAll (.ruleDetail id))).Given (Answers id) (e.Calls id) Readable :=
    .ask (Edit.calls_of_written nofun) fun cells hcells => .done (hcells rfl)
  refine .guarded trivial (.bind hread fun cells hreadable => ?_)
  split
  · exact .done fun rule hrule => absurd hrule (Option.not_mem_none rule)
  · next v _ =>
    refine .bind (.setting trivial) fun s hs => ?_
    have hcheck : (ofChecked "AutomationRule" (Rule.check s v)).Given (Answers id) (e.Calls id)
        fun base => Rule.check s v = .ok base := .ofChecked fun base hbase => hbase
    refine .bind hcheck fun base hbase => .done fun rule hrule => ?_
    cases hrule
    exact hreadable.wellFormed hs hbase

/-- A new definition is written after a rule was read. -/
theorem given_writeDefinition {e : Edit} {rule : Rule}
    (hwrites : e.Writes id (.tableSet (.ruleDetail id) (definitionCells rule))) :
    (do writeDefinition id rule; return some rule : Program (Option Rule)).Given (Answers id)
      (e.Calls id) fun _ => True :=
  .ask (fun _ => hwrites) fun _ _ => .done trivial

/-- The edits of a stored rule that neither create nor remove it. -/
def Edit.Keeps (id : String) : Edit → Prop
  | .update i rule => i = id ∧ rule.WellFormed
  | .setActive i _ => i = id
  | .countRun i ranAt => i = id ∧ ranAt.Shown
  | _ => False

/-- As long as they read a readable table, such edits write it in their own ways only. -/
theorem Edit.given_program {e : Edit} (h : e.Keeps id) :
    e.program.Given (Answers id) (e.Calls id) fun _ => True := by
  cases e with
  | update i given =>
    obtain ⟨rfl, hgiven⟩ := h
    refine .bind (Q := fun _ => True) (.guarded trivial ?_) fun _ _ => .done trivial
    refine .bind (given_get _) fun existing? hexisting => ?_
    cases existing? with
    | none => exact .done trivial
    | some existing =>
      have hold := hexisting existing rfl
      refine .bind (.now trivial) fun now hnow => ?_
      have hnew : Rule.WellFormed { given with
          id := i, userId := existing.userId, createdAt := existing.createdAt, updatedAt := now,
          executionCount := existing.executionCount, lastExecuted := existing.lastExecuted } :=
        ⟨hgiven.actions, hgiven.types, hold.count, hold.lastExecuted, hold.createdAt, hnow⟩
      have hwrite := given_writeDefinition (e := .update i given) (.redefine hnew)
      dsimp only
      split
      · refine .ask (calls_of_written ?_) fun _ _ => .ask (calls_of_written ?_) fun _ _ => hwrite
        all_goals nofun
      · exact hwrite
  | setActive i isActive =>
    obtain rfl : i = id := h
    refine .bind (Q := fun _ => True) (.guarded trivial ?_) fun _ _ => .done trivial
    refine .bind (given_get _) fun existing? hexisting => ?_
    cases existing? with
    | none => exact .done trivial
    | some existing =>
      have hold := hexisting existing rfl
      refine .bind (.now trivial) fun now hnow => given_writeDefinition (.switch ?_)
      exact ⟨hold.actions, hold.types, hold.count, hold.lastExecuted, hold.createdAt, hnow⟩
  | countRun i ranAt =>
    obtain ⟨rfl, hran⟩ := h
    refine .guarded trivial (.of_within (.bind (.store (calls_of_written nofun)) fun there => ?_))
    split
    · exact .bind (.store fun _ => .increment) fun _ => .store fun _ => .date hran
    · exact .done _
  | _ => exact h.elim

/-! ## What calls say -/

/-- The call adds one to the count of a rule. -/
def increments (id : String) : Call → Bool
  | .store (.tableIncrement k _) => k == .ruleDetail id
  | _ => false

/-- The moment of a run, where the call of its edit sets when a rule ran last. -/
def Edit.dates (id : String) : Edit → Call → Option Moment
  | .countRun _ ranAt, .store (.tableSet k _) => if k = .ruleDetail id then some ranAt else none
  | _, _ => none

theorem increments_of_written {c : Command} (h : c.written ≠ some (.ruleDetail id)) :
    increments id (.store c) = false := by
  cases c with
  | tableIncrement k name => exact beq_false_of_ne fun hk => h (congrArg some hk)
  | _ => rfl

theorem Edit.dates_of_written (e : Edit) {c : Command} (h : c.written ≠ some (.ruleDetail id)) :
    e.dates id (.store c) = none := by
  cases e with
  | countRun i ranAt => cases c with
    | tableSet k cells => exact if_neg fun hk => h (congrArg some hk)
    | _ => rfl
  | _ => rfl

theorem Edit.eq_countRun_of_increments {e : Edit} {c : Call} (hcalls : e.Calls id c)
    (h : increments id c = true) : ∃ ranAt, e = .countRun id ranAt := by
  cases c with
  | store c =>
    by_cases hwritten : c.written = some (.ruleDetail id)
    · cases hcalls hwritten with
      | redefine | switch | date => cases h
      | @increment ranAt => exact ⟨ranAt, rfl⟩
    · rw [increments_of_written hwritten] at h
      cases h
  | _ => cases h

/-- The table of a rule is readable, with a count and the moment of a last run. -/
def Tells (id : String) (count : Int) (last : Option Moment) (s : Store) : Prop :=
  ∃ cells, s.Keeps (.ruleDetail id) (.table cells) ∧ Readable cells ∧ countIn cells = count ∧
    lastIn cells = last

section Tells

variable {count : Int} {last : Option Moment} {s s' : Store} {w : World} {e : Edit}

theorem Tells.of_lookup_eq (h : Tells id count last s)
    (heq : s'.slots.lookup (.ruleDetail id) = s.slots.lookup (.ruleDetail id)) :
    Tells id count last s' := by
  obtain ⟨cells, hkeeps, htold⟩ := h
  exact ⟨cells, hkeeps.of_lookup_eq heq, htold⟩

/-- What an edit writes leaves a readable table, and counts and dates it as it says. -/
theorem Edit.Writes.tells {c : Command} (hwrites : e.Writes id c) (h : Tells id count last s)
    (now : Int) : Tells id (count + if increments id (.store c) then 1 else 0)
      ((e.dates id (.store c)).or last) (c.run now s).2 := by
  obtain ⟨cells, hkeeps, hreadable, rfl, rfl⟩ := h
  have hset : ∀ new, ((Command.tableSet (.ruleDetail id) new).run now s).2.Keeps (.ruleDetail id)
      (.table (setCells new cells)) := by
    intro new
    simp only [Command.run, hkeeps.table now]
    exact hkeeps.keep now _
  cases hwrites with
  | redefine hwell | switch hwell =>
    obtain ⟨hreadable', hcount, hlast⟩ := hreadable.redefine hwell
    exact ⟨_, hset _, hreadable', hcount.trans (Int.add_zero _).symm, hlast⟩
  | increment =>
    obtain ⟨hreadable', hcount, hlast⟩ := hreadable.increment
    refine ⟨_, ?_, hreadable', hcount.trans (congrArg _ (if_pos (beq_self_eq_true _)).symm), hlast⟩
    simp only [Command.run, hkeeps.table now]
    exact hkeeps.keep now _
  | @date ranAt hran =>
    obtain ⟨hreadable', hcount, hlast⟩ := hreadable.date hran
    refine ⟨_, hset _, hreadable', hcount.trans (Int.add_zero _).symm, ?_⟩
    rw [hlast, Edit.dates, if_pos rfl]
    rfl

/-- Whatever an edit asks, the table tells what it told before, and what the call adds. -/
theorem Tells.answer {c : Call} (h : Tells id count last w.store) (hcalls : e.Calls id c) :
    Tells id (count + if increments id c then 1 else 0) ((e.dates id c).or last)
      (w.answer c).2.store := by
  have hsame : ∀ {s' : Store}, s'.slots.lookup (.ruleDetail id) =
      w.store.slots.lookup (.ruleDetail id) → increments id c = false → e.dates id c = none →
      Tells id (count + if increments id c then 1 else 0) ((e.dates id c).or last) s' := by
    intro s' heq hincrements hdates
    rw [hincrements, hdates, if_neg Bool.false_ne_true, Int.add_zero, Option.none_or]
    exact h.of_lookup_eq heq
  cases c with
  | store c =>
    by_cases hwritten : c.written = some (.ruleDetail id)
    · exact (hcalls hwritten).tells h w.clock.instant
    · exact hsame (Command.lookup_run _ c _ hwritten) (increments_of_written hwritten)
        (e.dates_of_written hwritten)
  | _ => exact hsame rfl rfl (by cases e <;> rfl)

end Tells

/-! ## Traffic -/

/-- Edits of a rule start at any time, and time passes; others leave the table of the rule alone. -/
def countingRegime (id : String) : Regime Edit where
  starts := Edit.Keeps id
  others w w' := w'.clock.Shown ∧
    w'.store.slots.lookup (.ruleDetail id) = w.store.slots.lookup (.ruleDetail id)

/-- How often a rule was counted. -/
def increased (id : String) (s : Traffic Edit Unit) : Nat :=
  s.deeds.countP fun x => increments id x.entry.call

/-- The moment of the run whose deed sets when a rule ran last. -/
def dated (id : String) (s : Traffic Edit Unit) (x : Deed) : Option Moment :=
  (s.maker? x).bind fun e => e.dates id x.entry.call

/-- The moment of the latest run that set when a rule ran last. -/
def lastRun (id : String) (s : Traffic Edit Unit) : Option Moment :=
  (s.deeds.filterMap (dated id s)).getLast?

/-- The table of a rule is readable and says what the deeds say, and the edits under way will write it
in their own ways only. -/
structure Counted (id : String) (rule : Rule) (s : Traffic Edit Unit) : Prop where
  clock : s.world.clock.Shown
  flights : ∀ f ∈ s.flights, f.2.Given (Answers id) (f.1.Calls id) fun _ => True
  makers : ∀ x ∈ s.deeds, x.maker < s.flights.length
  table : Tells id (rule.executionCount + increased id s) ((lastRun id s).or rule.lastExecuted)
    s.world.store
  runs : ∀ x ∈ s.deeds, increments id x.entry.call = true → ∃ ranAt, s.maker? x = some (.countRun id ranAt)

namespace Counted

variable {rule : Rule} {s s' : Traffic Edit Unit}

/-- The world answers as edits count on. -/
theorem answers (h : Counted id rule s) (c : Call) : Answers id c (s.world.answer c).1 := by
  cases c with
  | now => exact h.clock
  | store c => cases c with
    | tableAll k =>
      rintro rfl
      obtain ⟨cells, hkeeps, hreadable, -⟩ := h.table
      show Readable (s.world.store.table s.world.clock.instant (.ruleDetail id))
      rw [hkeeps.table]
      exact hreadable
    | _ => trivial
  | _ => trivial

theorem filterMap_dated (h : Counted id rule s)
    (hstep : Traffic.Step Edit.program (countingRegime id) s s') :
    s.deeds.filterMap (dated id s') = s.deeds.filterMap (dated id s) := by
  refine List.filterMap_congr fun x hx => ?_
  unfold dated
  rw [Traffic.maker?_step hstep (h.makers x hx)]

theorem lastRun_step (h : Counted id rule s)
    (hstep : Traffic.Step Edit.program (countingRegime id) s s') (hdeeds : s'.deeds = s.deeds) :
    lastRun id s' = lastRun id s := by
  unfold lastRun
  rw [hdeeds, h.filterMap_dated hstep]

theorem lastRun_concat (h : Counted id rule s)
    (hstep : Traffic.Step Edit.program (countingRegime id) s s') {x : Deed}
    (hdeeds : s'.deeds = s.deeds ++ [x]) : lastRun id s' = (dated id s' x).or (lastRun id s) := by
  unfold lastRun
  rw [hdeeds, List.filterMap_append, h.filterMap_dated hstep, List.filterMap_cons, List.filterMap_nil]
  cases dated id s' x with
  | none => rw [List.append_nil, Option.none_or]
  | some ranAt => rw [List.getLast?_concat, Option.some_or]

theorem runs_step (h : Counted id rule s)
    (hstep : Traffic.Step Edit.program (countingRegime id) s s') :
    ∀ x ∈ s.deeds, increments id x.entry.call = true → ∃ ranAt, s'.maker? x = some (.countRun id ranAt) := by
  intro x hx hincrements
  rw [Traffic.maker?_step hstep (h.makers x hx)]
  exact h.runs x hx hincrements

theorem flight (h : Counted id rule s) {e : Edit} {c : Call} {next : c.Reply → Program Unit}
    (hmem : (e, Program.ask c next) ∈ s.flights) :
    e.Calls id c ∧ (next (s.world.answer c).1).Given (Answers id) (e.Calls id) fun _ => True := by
  cases h.flights _ hmem with
  | ask hcalls hnext => exact ⟨hcalls, hnext _ (h.answers c)⟩

theorem step (h : Counted id rule s)
    (hstep : Traffic.Step Edit.program (countingRegime id) s s') : Counted id rule s' := by
  have hruns := h.runs_step hstep
  cases hstep with
  | @start e he =>
    have hlast := h.lastRun_step (.start he) rfl
    refine ⟨h.clock, fun f hf => ?_, fun x hx => ?_, ?_, hruns⟩
    · rcases List.mem_append.mp hf with hf | hf
      · exact h.flights f hf
      · cases List.mem_singleton.mp hf
        exact Edit.given_program he
    · have := h.makers x hx
      rw [List.length_append]
      omega
    · rw [hlast]
      exact h.table
  | @others w' hw =>
    have hlast := h.lastRun_step (.others hw) rfl
    refine ⟨hw.1, h.flights, h.makers, ?_, hruns⟩
    rw [hlast]
    exact h.table.of_lookup_eq hw.2
  | @call before after e c next hflights =>
    have hlast := h.lastRun_concat (.call hflights) rfl
    have hmem : (e, Program.ask c next) ∈ s.flights := by
      rw [hflights]
      exact List.mem_append_right _ List.mem_cons_self
    obtain ⟨hcalls, hnext⟩ := h.flight hmem
    have hmaker := Traffic.maker?_self (s.world.answer c).2 before after e
      (next (s.world.answer c).1) (s.deeds ++ [⟨before.length, s.world.clock.instant,
        ⟨c, (s.world.answer c).1⟩⟩]) s.world.clock.instant ⟨c, (s.world.answer c).1⟩
    -- the edit that asked goes on, the others and their deeds stay what they are
    refine ⟨?_, fun f hf => ?_, fun x hx => ?_, ?_, fun x hx => ?_⟩
    · rw [World.answer_clock]
      exact h.clock
    · have hother : f ∈ before ∨ f ∈ after → f ∈ s.flights := by
        rw [hflights, List.mem_append, List.mem_cons]
        exact fun hf => hf.imp_right .inr
      rcases List.mem_append.mp hf with hf | hf
      · exact h.flights f (hother (.inl hf))
      · rcases List.mem_cons.mp hf with rfl | hf
        · exact hnext
        · exact h.flights f (hother (.inr hf))
    · rcases List.mem_append.mp hx with hx | hx
      · have := h.makers x hx
        rw [hflights] at this
        simpa using this
      · cases List.mem_singleton.mp hx
        simp
    · have hincreased : ∀ deeds x, ((deeds ++ [x]).countP fun x : Deed => increments id x.entry.call : Int)
          = deeds.countP (fun x => increments id x.entry.call) +
            if increments id x.entry.call then 1 else 0 := by
        intro deeds x
        rw [List.countP_append, List.countP_singleton]
        push_cast
        rfl
      rw [hlast, dated, hmaker, Option.or_assoc]
      unfold increased
      rw [hincreased, ← Int.add_assoc]
      exact h.table.answer hcalls
    · rcases List.mem_append.mp hx with hx | hx
      · exact hruns x hx
      · cases List.mem_singleton.mp hx
        intro hincrements
        obtain ⟨ranAt, rfl⟩ := Edit.eq_countRun_of_increments hcalls hincrements
        exact ⟨ranAt, hmaker⟩

end Counted

/-- The rule that is read at any time has the count that the deeds say, and the last run. -/
theorem runs_all_counted {rule : Rule} {w : World} {s : Traffic Edit Unit}
    (hlasts : w.store.Lasts (.ruleDetail id)) (hclock : w.clock.Shown)
    (hget : ((get id).run w).1 = .ok (some rule)) (hwell : rule.WellFormed)
    (h : Traffic.Leads Edit.program (countingRegime id) ⟨w, [], []⟩ s) :
    (∀ reader : World, reader.store = s.world.store → reader.outages = [] →
      ∃ found, ((get id).run reader).1 = .ok (some found) ∧
        found.executionCount = rule.executionCount + increased id s ∧
        found.lastExecuted = (lastRun id s).or rule.lastExecuted) ∧
    ∀ x ∈ s.deeds, increments id x.entry.call = true →
      ∃ ranAt, s.maker? x = some (.countRun id ranAt) := by
  have hstart : Counted id rule ⟨w, [], []⟩ := by
    obtain ⟨cells, hkeeps, hreadable, hcount, hlast⟩ := readable_of_get hlasts hget hwell
    refine ⟨hclock, fun f hf => absurd hf List.not_mem_nil, fun x hx => absurd hx List.not_mem_nil,
      ⟨cells, hkeeps, hreadable, ?_, ?_⟩, fun x hx => absurd hx List.not_mem_nil⟩
    · simp [increased, hcount]
    · simp [lastRun, hlast]
  have hcounted := h.induct (p := Counted id rule) hstart fun a b ha hstep => ha.step hstep
  refine ⟨fun reader hstore ho => ?_, hcounted.runs⟩
  obtain ⟨cells, hkeeps, hreadable, hcount, hlast⟩ := hcounted.table
  rw [← hstore] at hkeeps
  obtain ⟨found, hfound, hfoundCount, hfoundLast⟩ := hreadable.get hkeeps ho
  exact ⟨found, hfound, hfoundCount.trans hcount, hfoundLast.trans hlast⟩

/-- A world in which a rule was created. -/
def createdWorld : World := ((create logRule).run { clock := Moment.ofInstant 0 }).2

/-- An edit under way. -/
def underWay (e : Edit) : Edit × Program Unit := (e, e.program)

/-- The rule is about to be renamed, and a run of it is about to be counted. -/
def renameRule : Edit := .update "rule_1" { logRule with name := "Renamed" }

def countRule : Edit := .countRun "rule_1" (Moment.ofInstant 1)

/-- The rule is read to be renamed, then the run is counted, and then the new name is written, with the
count that was read. -/
def staleUpdate : Traffic Edit Unit :=
  .play [0, 0, 0, 1, 1, 1, 1, 0, 0, 0] ⟨createdWorld, [underWay renameRule, underWay countRule], []⟩

/-- The run is counted all the same. -/
theorem runs_all_counted_of_stale :
    ∃ found, ((get "rule_1").run staleUpdate.world).1 = .ok (some found) ∧
      found.executionCount = 1 ∧ found.lastExecuted = some (Moment.ofInstant 1) := by
  have hindexed : Indexed createdWorld.store (Function.update (fun _ => none) "rule_1"
      (some (stored logRule))) :=
    create_indexed (w := { clock := Moment.ofInstant 0 }) (indexed_of_empty rfl) rfl wellFormed_logRule
      rfl rfl
  have hrule := Function.update_self (f := fun _ => none) "rule_1" (some (stored logRule))
  have hlasts : createdWorld.store.Lasts (.ruleDetail "rule_1") := by
    obtain ⟨rows, hholds, -⟩ := hindexed
    exact (hholds.row "rule_1").lasts
  have hget : ((get "rule_1").run createdWorld).1 = .ok (some (stored logRule)) := by
    rw [run_get hindexed rfl, hrule]
  have hplay : Traffic.Leads Edit.program (countingRegime "rule_1")
      ⟨createdWorld, [underWay renameRule, underWay countRule], []⟩ staleUpdate := Traffic.leads_play _ _
  have hleads : Traffic.Leads Edit.program (countingRegime "rule_1") ⟨createdWorld, [], []⟩ staleUpdate := by
    refine .head (.start (i := renameRule) ⟨rfl, ?_⟩) (.head (.start (i := countRule) ⟨rfl, ?_⟩) hplay)
    · exact ⟨wellFormed_logRule.actions, wellFormed_logRule.types, wellFormed_logRule.count,
        wellFormed_logRule.lastExecuted, shown_start, shown_start⟩
    · exact ⟨by decide, by rintro _ ⟨⟩; decide⟩
  obtain ⟨hread, -⟩ := runs_all_counted hlasts shown_start hget (hindexed.wellFormed hrule) hleads
  obtain ⟨found, hfound, hcount, hlast⟩ := hread staleUpdate.world rfl rfl
  have hincreased : increased "rule_1" staleUpdate = 1 := by decide +kernel
  have hlastRun : lastRun "rule_1" staleUpdate = some (Moment.ofInstant 1) := by decide +kernel
  refine ⟨found, hfound, ?_, ?_⟩
  · rw [hcount, hincreased]
    rfl
  · rw [hlast, hlastRun]
    rfl

end Rules

end TaskAutomation
