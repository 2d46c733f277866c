import TaskAutomation.Proofs.Rules.Listing

/-!
# Edits of the rule store

* `Rules.Edit` : an operation that changes the rule store, with its arguments; `Edit.Allowed` : the
  arguments are rules and moments that exist, and a rule is created under a free id;
* `Rules.Reached w` : the world comes from an empty store by edits, with any time in between;
* `Rules.run_update` : a stored rule takes on a new definition, and keeps its identity and its counts
  (`Rules.redefined`);
* `Rules.edit_indexed` : an edit leaves a store whose indexes are exact, with the rules that it makes of
  those before (`Edit.applied`); `Reached.indexed` : so do all of them together;
* `Rules.listings_exact` : after any edits the listings give just the stored rules they should.
-/

namespace TaskAutomation.Rules

open Check Program

variable {w : World} {m : String → Option Rule}

/-! ## Steps -/

/-- Under the rule's id the row and the indexes are those of another version of the rule. -/
theorem Indexed.of_holds {s : Store} {rows : String → List (String × Cell)}
    {member : Key → String → Prop} {q : Option Rule} {id : String} {row : List (String × Cell)}
    (hrows : ∀ i, Row i (m i) (rows i))
    (h : Holds s (Function.update rows id row) member) (hrow : Row id q row)
    (hself : ∀ k, member k id ↔ ∃ r, q = some r ∧ k ∈ indexKeys r)
    (hother : ∀ k i, i ≠ id → (member k i ↔ ∃ r, m i = some r ∧ k ∈ indexKeys r)) :
    Indexed s (Function.update m id q) := by
  refine ⟨_, h.congr (fun _ => rfl) fun k i => ?_, fun i => ?_⟩
  · by_cases hi : i = id
    · subst hi
      rw [Function.update_self]
      exact hself k
    · rw [Function.update_of_ne hi]
      exact hother k i hi
  · by_cases hi : i = id
    · subst hi
      rw [Function.update_self, Function.update_self]
      exact hrow
    · rw [Function.update_of_ne hi, Function.update_of_ne hi]
      exact hrows i

/-- A new rule is in its table and in its indexes. -/
theorem create_indexed (h : Indexed w.store m) (ho : w.outages = []) {rule : Rule}
    (hwell : rule.WellFormed) (haware : rule.createdAt.isNaive = false) (hfree : m rule.id = none) :
    Indexed ((create rule).run w).2.store (Function.update m rule.id (some (stored rule))) := by
  obtain ⟨rows, hholds, hrows⟩ := h
  have hempty : rows rule.id = [] := by
    have hrow := hrows rule.id
    rwa [hfree] at hrow
  unfold create
  rw [Operation.run_guard ho, run_bind_ok (run_store _ _), run_bind_ok (run_store _ _),
    run_bind_ok (run_store _ _), run_bind_ok (run_store _ _), run_pure]
  simp only [World.after_store, World.after_clock]
  have htable := hholds.tableSet w.clock.instant rule.id
    [("config", .ofDocument rule.fields), ("is_active", flagCell rule.isActive),
      ("execution_count", .count rule.executionCount), ("last_executed", momentCell rule.lastExecuted)]
  have hadd := ((htable.setAdd w.clock.instant (k := .ruleAll) rfl rule.id).setAdd w.clock.instant
    (k := .ruleUser rule.userId) rfl rule.id).setAdd w.clock.instant
    (k := .ruleTrigger rule.trigger.name) rfl rule.id
  refine Indexed.of_holds hrows hadd ?_ ?_ ?_
  · rw [hempty]
    exact row_stored hwell haware
  · intro k
    simp [hfree, indexKeys, stored, Rule.reread]
    tauto
  · intro k i hi
    simp [hi]

theorem run_writeDefinition (id : String) (rule : Rule) (w : World) :
    (writeDefinition id rule).run w = (.ok (), w.after (.tableSet (.ruleDetail id)
      [("config", .ofDocument rule.fields), ("is_active", flagCell rule.isActive)])) := rfl

/-- A rule's table after a new version of its definition is written. -/
theorem foldl_putCell_tableOf (v : Value) {old new : Rule}
    (hcount : new.executionCount = old.executionCount)
    (hlast : new.lastExecuted = old.lastExecuted) :
    [("config", Cell.ofDocument new.fields), ("is_active", flagCell new.isActive)].foldl
      (fun t (name, c) => Content.putCell name c t) (tableOf v old)
      = tableOf (.obj (Value.storableFields new.fields)) new := by
  unfold tableOf
  rw [hcount, hlast]
  rfl

/-- A new version of a stored rule is written, once the indexes are those of this version. -/
theorem redefine_indexed {s : Store} {rows : String → List (String × Cell)}
    {member : Key → String → Prop} {id : String} {v : Value} {old new : Rule} (now : Int)
    (hrows : ∀ i, Row i (m i) (rows i)) (h : Holds s rows member) (htable : rows id = tableOf v old)
    (hid : new.id = id) (hwell : new.WellFormed) (haware : new.createdAt.isNaive = false)
    (hcount : new.executionCount = old.executionCount)
    (hlast : new.lastExecuted = old.lastExecuted)
    (hself : ∀ k, member k id ↔ k ∈ indexKeys new)
    (hother : ∀ k i, i ≠ id → (member k i ↔ ∃ r, m i = some r ∧ k ∈ indexKeys r)) :
    Indexed ((Command.tableSet (.ruleDetail id)
      [("config", .ofDocument new.fields), ("is_active", flagCell new.isActive)]).run now s).2
      (Function.update m id (some (stored new))) := by
  refine Indexed.of_holds hrows (h.tableSet now id _) ?_ ?_ hother
  · rw [htable, foldl_putCell_tableOf v hcount hlast, ← hid]
    exact row_stored hwell haware
  · intro k
    rw [hself k]
    constructor
    · intro hk
      exact ⟨stored new, rfl, hk⟩
    · rintro ⟨r, ⟨⟩, hk⟩
      exact hk

/-- A rule with a new definition: it keeps its identity and its counts. -/
def redefined (old rule : Rule) (now : Moment) : Rule :=
  { rule with
    id := old.id
    userId := old.userId
    createdAt := old.createdAt
    updatedAt := now
    executionCount := old.executionCount
    lastExecuted := old.lastExecuted }

/-- A stored rule takes on a new definition, and nothing else is written unless its trigger changes. -/
theorem run_update (h : Indexed w.store m) (ho : w.outages = []) (hc : w.clock.Shown) {id : String}
    {old rule : Rule} (hm : m id = some old) (hwell : rule.WellFormed) :
    ∃ w', (update id rule).run w = (.ok (some (redefined old rule w.clock)), w')
      ∧ Indexed w'.store (Function.update m id (some (stored (redefined old rule w.clock))))
      ∧ ∀ k, k ≠ .ruleDetail id → (∀ t, k = .ruleTrigger t → old.trigger = rule.trigger) →
        w'.store.slots.lookup k = w.store.slots.lookup k := by
  have hget := run_get h ho id
  rw [hm] at hget
  have hid := h.id_eq hm
  have haware := h.aware hm
  have hold := h.wellFormed hm
  obtain ⟨rows, hholds, hrows⟩ := h
  have hrow := hrows id
  rw [hm] at hrow
  obtain ⟨-, -, -, v, base, -, htable, -⟩ := hrow
  have hnew : (redefined old rule w.clock).WellFormed :=
    ⟨hwell.actions, hwell.types, hold.count, hold.lastExecuted, hold.createdAt, hc⟩
  have hupdated : { rule with
      id := id, userId := old.userId, createdAt := old.createdAt, updatedAt := w.clock,
      executionCount := old.executionCount, lastExecuted := old.lastExecuted } =
      redefined old rule w.clock := by
    rw [redefined, hid]
  unfold update
  rw [Operation.run_guard ho, run_bind_ok hget]
  simp only
  rw [run_bind_ok (run_now w), hupdated]
  -- the id moves from one index to another only where the trigger changes
  by_cases htrigger : old.trigger = rule.trigger
  · rw [if_neg (fun hne => hne htrigger), run_bind_ok (run_writeDefinition _ _ _), run_pure]
    have hself : ∀ k, k ≠ .ruleDetail id → some (Key.ruleDetail id) ≠ some k :=
      fun k hk heq => hk (Option.some.inj heq).symm
    refine ⟨_, rfl, ?_, fun k hk _ => World.lookup_after _ (hself k hk)⟩
    refine redefine_indexed w.clock.instant hrows hholds htable hid hnew haware rfl rfl ?_ ?_
    · intro k
      simp [hm, indexKeys, htrigger, redefined]
    · intro k i hi
      rfl
  · rw [if_pos htrigger, run_bind_ok (run_store _ _), run_bind_ok (run_store _ _),
      run_bind_ok (run_writeDefinition _ _ _), run_pure]
    refine ⟨_, rfl, ?_, fun k hk hindex => ?_⟩
    · have hmove := (hholds.setRemove w.clock.instant (k := .ruleTrigger old.trigger.name) rfl
        id).setAdd w.clock.instant (k := .ruleTrigger rule.trigger.name) rfl id
      refine redefine_indexed w.clock.instant hrows hmove htable hid hnew haware rfl rfl ?_ ?_
      · intro k
        simp only [hm, Option.some.injEq, exists_eq_left', indexKeys, List.mem_cons,
          List.not_mem_nil, or_false, and_true, redefined]
        by_cases hk : k = .ruleTrigger old.trigger.name
        · simp [hk]
        · simp only [hk, false_or, not_false_eq_true, and_true]
          exact or_comm
      · intro k i hi
        simp [hi]
    · have hother : ∀ t, some (Key.ruleTrigger t) ≠ some k := by
        rintro t ⟨⟩
        exact htrigger (hindex t rfl)
      have hself : some (Key.ruleDetail id) ≠ some k := fun heq => hk (Option.some.inj heq).symm
      rw [World.lookup_after _ (by exact hself), World.lookup_after _ (by exact hother _),
        World.lookup_after _ (by exact hother _)]

/-- Where no rule is, none is removed. -/
theorem update_none {id : String} (hm : m id = none) : Function.update m id none = m := by
  rw [← hm, Function.update_eq_self]

theorem update_indexed (h : Indexed w.store m) (ho : w.outages = []) (hc : w.clock.Shown)
    (id : String) {rule : Rule} (hwell : rule.WellFormed) :
    Indexed ((update id rule).run w).2.store
      (Function.update m id ((m id).map fun old => stored (redefined old rule w.clock))) := by
  cases hm : m id with
  | none =>
    have hget := run_get h ho id
    rw [hm] at hget
    rw [Option.map_none, update_none hm]
    unfold update
    rw [Operation.run_guard ho, run_bind_ok hget]
    exact h
  | some old =>
    obtain ⟨w', hrun, hindexed, -⟩ := run_update h ho hc hm hwell
    rw [hrun]
    exact hindexed

/-- A stored rule becomes active, or no longer so. -/
theorem setActive_indexed (h : Indexed w.store m) (ho : w.outages = []) (hc : w.clock.Shown)
    (id : String) (isActive : Bool) : Indexed ((setActive id isActive).run w).2.store
      (Function.update m id
        ((m id).map fun old => stored { old with isActive := isActive, updatedAt := w.clock })) := by
  have hget := run_get h ho id
  unfold setActive
  rw [Operation.run_guard ho, run_bind_ok hget]
  cases hm : m id with
  | none =>
    rw [Option.map_none, update_none hm]
    exact h
  | some existing =>
    have hid := h.id_eq hm
    have haware := h.aware hm
    have hold := h.wellFormed hm
    obtain ⟨rows, hholds, hrows⟩ := h
    have hrow := hrows id
    rw [hm] at hrow
    obtain ⟨-, -, -, v, base, -, htable, -⟩ := hrow
    simp only
    rw [run_bind_ok (run_now w), run_bind_ok (run_writeDefinition _ _ _)]
    have hnew : Rule.WellFormed { existing with isActive := isActive, updatedAt := w.clock } :=
      ⟨hold.actions, hold.types, hold.count, hold.lastExecuted, hold.createdAt, hc⟩
    refine redefine_indexed w.clock.instant hrows hholds htable hid hnew haware rfl rfl ?_ ?_
    · intro k
      simp [hm, indexKeys]
    · intro k i hi
      rfl

/-- A rule is gone from its table and from its indexes. -/
theorem delete_indexed (h : Indexed w.store m) (ho : w.outages = []) (id : String) :
    Indexed ((delete id).run w).2.store (Function.update m id none) := by
  have hget := run_get h ho id
  unfold delete
  rw [Operation.run_guard ho, run_bind_ok hget]
  cases hm : m id with
  | none =>
    rw [update_none hm]
    exact h
  | some existing =>
    obtain ⟨rows, hholds, hrows⟩ := h
    simp only
    rw [run_bind_ok (run_store _ _), run_bind_ok (run_store _ _), run_bind_ok (run_store _ _),
      run_bind_ok (run_store _ _)]
    have hremove := (((hholds.setRemove w.clock.instant (k := .ruleTrigger existing.trigger.name) rfl
      id).setRemove w.clock.instant (k := .ruleUser existing.userId) rfl id).setRemove
      w.clock.instant (k := .ruleAll) rfl id).delete w.clock.instant id
    refine Indexed.of_holds (q := none) hrows hremove rfl ?_ ?_
    · intro k
      simp [hm, indexKeys]
      tauto
    · intro k i hi
      simp [hi]

/-- A run of a rule is counted in its table. -/
theorem countRun_indexed (h : Indexed w.store m) (ho : w.outages = []) (id : String) {ranAt : Moment}
    (hran : ranAt.Shown) : Indexed ((countRun id ranAt).run w).2.store (Function.update m id
      ((m id).map fun old =>
        { old with executionCount := old.executionCount + 1, lastExecuted := some ranAt })) := by
  unfold countRun
  rw [Operation.run_guard ho, run_bind_ok (run_read rfl w)]
  obtain ⟨rows, hholds, hrows⟩ := h
  have hrow := hrows id
  have hfind := (hholds.row id).find? w.clock.instant
  cases hm : m id with
  | none =>
    rw [hm] at hrow
    rw [show rows id = [] from hrow] at hfind
    have hthere : ((Command.has (.ruleDetail id)).run w.clock.instant w.store).1 = false := by
      show (w.store.find? w.clock.instant (.ruleDetail id)).isSome = false
      rw [hfind]
      rfl
    rw [hthere, Option.map_none, update_none hm]
    exact ⟨rows, hholds, hrows⟩
  | some r =>
    rw [hm] at hrow
    obtain ⟨hid, hwell, haware, v, base, hcheck, htable, hbase⟩ := hrow
    have hthere : ((Command.has (.ruleDetail id)).run w.clock.instant w.store).1 = true := by
      show (w.store.find? w.clock.instant (.ruleDetail id)).isSome = true
      rw [hfind, htable]
      rfl
    rw [hthere, if_pos rfl, run_bind_ok (run_store _ _), run_store]
    have hwrite := (hholds.tableIncrement w.clock.instant id "execution_count").tableSet
      w.clock.instant id [("last_executed", .moment ranAt)]
    rw [Function.update_idem, Function.update_self] at hwrite
    -- what a run changes are cells of their own: the definition that was written stays readable
    let new : Rule := { r with executionCount := r.executionCount + 1, lastExecuted := some ranAt }
    refine Indexed.of_holds (q := some new) hrows hwrite ?_ ?_ ?_
    · have hcount := hwell.count
      rw [htable]
      refine ⟨hid, ⟨hwell.actions, hwell.types, ?_, ?_, hwell.createdAt, hwell.updatedAt⟩, haware, v,
        base, hcheck, rfl, ?_⟩
      · show 0 ≤ r.executionCount + 1
        omega
      · rintro _ ⟨⟩
        exact hran
      · exact congrArg (fun q : Rule =>
          { q with executionCount := r.executionCount + 1, lastExecuted := some ranAt }) hbase
    · intro k
      simp [hm, indexKeys, new]
    · intro k i hi
      rfl

/-- The history of runs lies beside the rules. -/
theorem recordRun_indexed (h : Indexed w.store m) (ho : w.outages = []) (s : Settings)
    (run : Execution) : Indexed ((recordRun s run).run w).2.store m := by
  obtain ⟨rows, hholds, hrows⟩ := h
  have hpush : ∀ {s' : Store} (key : Key) (cell : Cell) (last : Int),
      (∀ id, key ≠ .ruleDetail id) → isIndex key = false →
      Holds s' rows (fun k id => ∃ r, m id = some r ∧ k ∈ indexKeys r) →
      Holds ((Command.trim key last).run w.clock.instant
          ((Command.push key cell).run w.clock.instant s').2).2 rows
        (fun k id => ∃ r, m id = some r ∧ k ∈ indexKeys r) := by
    intro s' key cell last hrow hindex hs'
    have hkeys : ∀ k, isIndex k = true → some key ≠ some k := by
      rintro k hk ⟨⟩
      rw [hindex] at hk
      cases hk
    have hids : ∀ id, some key ≠ some (.ruleDetail id) := fun id heq => hrow id (Option.some.inj heq)
    exact (hs'.frame w.clock.instant (.push key cell) hids hkeys).frame w.clock.instant
      (.trim key last) hids hkeys
  unfold recordRun
  rw [Operation.run_guardFor ho]
  refine ⟨rows, ?_, hrows⟩
  exact hpush (.executionsUser run.userId) _ _ nofun rfl
    (hpush (.executionsRule run.ruleId) _ _ nofun rfl hholds)

/-! ## Runs -/

/-- An operation that changes the rule store. -/
inductive Edit where
  | create (rule : Rule)
  | update (id : String) (rule : Rule)
  | setActive (id : String) (isActive : Bool)
  | delete (id : String)
  | countRun (id : String) (ranAt : Moment)
  | recordRun (settings : Settings) (run : Execution)

namespace Edit

/-- The operation; what it answers is of no account. -/
def program : Edit → Program Unit
  | .create rule => do let _ ← Rules.create rule
  | .update id rule => do let _ ← Rules.update id rule
  | .setActive id isActive => do let _ ← Rules.setActive id isActive
  | .delete id => do let _ ← Rules.delete id
  | .countRun id ranAt => Rules.countRun id ranAt
  | .recordRun settings run => Rules.recordRun settings run

/-- The arguments are rules and moments that exist; a rule is created under an id that is free, at a
moment with an offset. -/
def Allowed (w : World) : Edit → Prop
  | .create rule => rule.WellFormed ∧ rule.createdAt.isNaive = false
      ∧ ((get rule.id).run w).1 = .ok none
  | .update _ rule => rule.WellFormed
  | .countRun _ ranAt => ranAt.Shown
  | _ => True

/-- The rules that an edit makes of those in the store. -/
def applied (now : Moment) (m : String → Option Rule) : Edit → String → Option Rule
  | .create rule => Function.update m rule.id (some (stored rule))
  | .update id rule =>
    Function.update m id ((m id).map fun old => stored (redefined old rule now))
  | .setActive id isActive => Function.update m id
    ((m id).map fun old => stored { old with isActive := isActive, updatedAt := now })
  | .delete id => Function.update m id none
  | .countRun id ranAt => Function.update m id ((m id).map fun old =>
    { old with executionCount := old.executionCount + 1, lastExecuted := some ranAt })
  | .recordRun _ _ => m

end Edit

/-- The worlds that edits lead to from an empty store. Between edits time may pass, and all but the
store may change. -/
inductive Reached : World → Prop where
  | start {w : World} (hstore : w.store.slots = []) (hclock : w.clock.Shown)
      (houtages : w.outages = []) : Reached w
  | edit {w : World} (h : Reached w) (e : Edit) (he : e.Allowed w) : Reached (e.program.run w).2
  | pass {w w' : World} (h : Reached w) (hstore : w'.store = w.store) (hclock : w'.clock.Shown)
      (houtages : w'.outages = []) : Reached w'

/-- An edit leaves a store whose indexes are exact. -/
theorem edit_indexed (h : Indexed w.store m) (ho : w.outages = []) (hc : w.clock.Shown) {e : Edit}
    (he : e.Allowed w) : Indexed (e.program.run w).2.store (e.applied w.clock m) := by
  cases e with
  | create rule =>
    obtain ⟨hwell, haware, hfree⟩ := he
    rw [run_get h ho] at hfree
    rw [show (Edit.create rule).program = do let _ ← create rule from rfl, run_discard]
    exact create_indexed h ho hwell haware (Except.ok.inj hfree)
  | update id rule =>
    rw [show (Edit.update id rule).program = do let _ ← update id rule from rfl, run_discard]
    exact update_indexed h ho hc id he
  | setActive id isActive =>
    rw [show (Edit.setActive id isActive).program = do let _ ← setActive id isActive from rfl,
      run_discard]
    exact setActive_indexed h ho hc id isActive
  | delete id =>
    rw [show (Edit.delete id).program = do let _ ← delete id from rfl, run_discard]
    exact delete_indexed h ho id
  | countRun id ranAt => exact countRun_indexed h ho id he
  | recordRun settings run => exact recordRun_indexed h ho settings run

theorem indexed_of_empty {s : Store} (h : s.slots = []) : Indexed s fun _ => none := by
  have hlookup : ∀ k, s.slots.lookup k = none := by
    intro k
    rw [h]
    rfl
  refine ⟨fun _ => [], ⟨fun id => ?_, fun k _ => ⟨[], ?_, List.nodup_nil, ?_⟩⟩, fun id => rfl⟩
  · exact Store.keeps_of_lookup_none (hlookup _) rfl
  · exact Store.keeps_of_lookup_none (hlookup k) rfl
  · intro id
    simp

/-- After any edits the indexes are exact. -/
theorem Reached.indexed (h : Reached w) :
    (∃ m, Indexed w.store m) ∧ w.clock.Shown ∧ w.outages = [] := by
  induction h with
  | start hstore hclock houtages => exact ⟨⟨_, indexed_of_empty hstore⟩, hclock, houtages⟩
  | edit h e he ih =>
    obtain ⟨⟨m, hm⟩, hclock, houtages⟩ := ih
    refine ⟨⟨_, edit_indexed hm houtages hclock he⟩, ?_, ?_⟩
    · rwa [run_clock]
    · rwa [run_outages]
  | pass h hstore hclock houtages ih =>
    obtain ⟨⟨m, hm⟩, -, -⟩ := ih
    exact ⟨⟨m, hstore ▸ hm⟩, hclock, houtages⟩

/-! ## Listings -/

/-- The rule is stored: it is what its id gives. -/
def Stored (w : World) (r : Rule) : Prop := ((get r.id).run w).1 = .ok (some r)

/-- A listing gives the stored rules with a property, each once, the oldest first. -/
def Gives (w : World) (listing : Program (List Rule)) (p : Rule → Prop) : Prop :=
  ∃ rs, (listing.run w).1 = .ok rs ∧ (rs.map Rule.id).Nodup
    ∧ rs.Pairwise (fun a b => a.createdAt.instant ≤ b.createdAt.instant)
    ∧ ∀ r, r ∈ rs ↔ Stored w r ∧ p r

/-- Every listing gives just the stored rules that it should. -/
structure Exact (w : World) : Prop where
  active : ∀ u t, Gives w (active u t) fun r => r.userId = u ∧ r.trigger = t ∧ r.isActive = true
  ofUser : ∀ u, Gives w (ofUser u) fun r => r.userId = u
  all : Gives w all fun _ => True
  usersWithActive : ∀ ts, ∃ us, ((usersWithActive ts).run w).1 = .ok us ∧ us.Pairwise (· < ·)
    ∧ ∀ u, u ∈ us ↔ ∃ r, Stored w r ∧ r.isActive = true ∧ r.userId = u ∧ r.trigger ∈ ts

theorem stored_iff (h : Indexed w.store m) (ho : w.outages = []) (r : Rule) :
    Stored w r ↔ m r.id = some r := by
  unfold Stored
  rw [run_get h ho]
  exact ⟨Except.ok.inj, congrArg Except.ok⟩

theorem Lists.gives (h : Indexed w.store m) (ho : w.outages = []) {listing : Program (List Rule)}
    {p : Rule → Prop} {rs : List Rule} (hrun : listing.run w = (.ok rs, w)) (hlists : Lists m p rs) :
    Gives w listing p := by
  refine ⟨rs, congrArg Prod.fst hrun, hlists.once, hlists.oldestFirst, fun r => ?_⟩
  rw [hlists.mem r, stored_iff h ho r]

/-- After any edits of an empty store every listing gives just the stored rules that it should. -/
theorem listings_exact (h : Reached w) : Exact w := by
  obtain ⟨⟨m, hm⟩, -, ho⟩ := h.indexed
  constructor
  · intro u t
    obtain ⟨rs, hrun, hlists⟩ := run_active hm ho u t
    exact (hlists.congr fun r _ => and_assoc).gives hm ho hrun
  · intro u
    obtain ⟨rs, hrun, hlists⟩ := run_ofUser hm ho u
    exact hlists.gives hm ho hrun
  · obtain ⟨rs, hrun, hlists⟩ := run_all hm ho
    exact hlists.gives hm ho hrun
  · intro ts
    obtain ⟨us, hrun, hsorted, hmem⟩ := run_usersWithActive hm ho ts
    refine ⟨us, congrArg Prod.fst hrun, hsorted, fun u => ?_⟩
    simp only [hmem, stored_iff hm ho]

/-- A rule that logs completed tasks. -/
def logRule : Rule where
  id := "rule_1"
  userId := "user_1"
  name := "Log"
  description := ""
  trigger := .taskCompleted
  conditions := []
  actions := [⟨"log_activity", []⟩]
  isActive := true
  executionCount := 0
  lastExecuted := none
  createdAt := Moment.ofInstant 0
  updatedAt := Moment.ofInstant 0

theorem shown_start : (Moment.ofInstant 0).Shown where
  wall := by decide
  offset := by
    rintro _ ⟨⟩
    decide

theorem wellFormed_logRule : logRule.WellFormed where
  actions := by decide
  types := by simp [logRule]
  count := by decide
  lastExecuted := by
    rintro _ ⟨⟩
  createdAt := shown_start
  updatedAt := shown_start

/-- The listings are exact where a rule was created, and this rule is stored. -/
theorem listings_exact_of_create :
    Exact ((Edit.create logRule).program.run { clock := Moment.ofInstant 0 }).2
      ∧ Stored ((Edit.create logRule).program.run { clock := Moment.ofInstant 0 }).2
        (stored logRule) := by
  have hstart : Reached { clock := Moment.ofInstant 0 } := .start rfl shown_start rfl
  have hindexed := create_indexed (w := { clock := Moment.ofInstant 0 }) (indexed_of_empty rfl) rfl
    wellFormed_logRule rfl rfl
  refine ⟨listings_exact (.edit hstart (.create logRule) ⟨wellFormed_logRule, rfl, rfl⟩), ?_⟩
  refine (stored_iff hindexed ?_ (stored logRule)).mpr ?_
  · exact run_outages _ _
  · exact Function.update_self _ _ _

end TaskAutomation.Rules
