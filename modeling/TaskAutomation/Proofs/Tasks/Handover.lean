import TaskAutomation.Proofs.Tasks.Owners

/-!
# What the queries give of a task that changed hands

* `Tasks.Finds` : just when the due queries of a user give a task; `Tracked.finds_own` : those of its
  owner give it by its due date;
* `Tasks.Recent` : the list that the answers to a user's recent tasks are cut from;
  `Ranks.recent` : it has all of the user's tasks, the newest first;
* `Tasks.handover_exact` : after a change of owner the queries of the new owner give the task by its new
  due date, and those of the old owner still give it, by the due date that it had there;
* `Tasks.kept_by_old_owner` : a task that is overdue for a user whom it no longer belongs to.
-/

namespace TaskAutomation.Tasks

open Check Program

variable {s s' : Store} {w later : World} {m : String → Option Task} {old t : Task} {u : String}
  {members : List Scored}

/-! ## Due queries -/

/-- The due queries of a user answer, and give the task just when it is open and the date, if there is
one, is what they ask for. -/
structure Finds (w : World) (u : String) (t : Task) (due? : Option Moment) : Prop where
  late : ∀ asOf, ∃ ts, ((overdue u asOf).run w).1 = .ok ts ∧
    (t ∈ ts ↔ t.isClosed = false ∧ ∃ due ∈ due?,
      Scored.scoreBefore due.timestamp asOf.timestamp = true)
  soon : ∀ start stop, ∃ ts, ((dueWithin u start stop).run w).1 = .ok ts ∧
    (t ∈ ts ↔ t.isClosed = false ∧ ∃ due ∈ due?,
      (Scored.atLeast start.timestamp due.timestamp &&
        Scored.atLeast due.timestamp stop.timestamp) = true)

theorem Documents.mem_openTasks (h : Documents s m) (hm : m t.id = some t) {due? : Option Moment}
    (hdue : ∀ a : Scored, a.member = t.id → (a ∈ members ↔ ∃ due ∈ due?, a.score = due.timestamp))
    (f : Float → Bool) : t ∈ openTasks m (members.filter fun a => f a.score) ↔
      t.isClosed = false ∧ ∃ due ∈ due?, f due.timestamp = true := by
  unfold openTasks
  rw [List.mem_filter, List.mem_filterMap, Bool.not_eq_true']
  constructor
  · rintro ⟨⟨a, ha, hma⟩, hopen⟩
    obtain ⟨ha, hf⟩ := List.mem_filter.mp ha
    obtain ⟨due, hmem, hscore⟩ := (hdue a (h.id_eq hma).symm).mp ha
    exact ⟨hopen, due, hmem, hscore ▸ hf⟩
  · rintro ⟨hopen, due, hmem, hf⟩
    have ha := (hdue ⟨t.id, due.timestamp⟩ rfl).mpr ⟨due, hmem, rfl⟩
    exact ⟨⟨_, List.mem_filter.mpr ⟨ha, hf⟩, hm⟩, hopen⟩

theorem Documents.finds (h : Documents w.store m) (ho : w.outages = []) (hm : m t.id = some t)
    (hkeeps : w.store.Keeps (.taskDue u) (.ordered members)) {due? : Option Moment}
    (hdue : ∀ a : Scored, a.member = t.id → (a ∈ members ↔ ∃ due ∈ due?, a.score = due.timestamp)) :
    Finds w u t due? where
  late asOf := ⟨_, congrArg Prod.fst (h.run_overdue ho hkeeps asOf), h.mem_openTasks hm hdue fun x =>
    Scored.scoreBefore x asOf.timestamp⟩
  soon start stop := ⟨_, congrArg Prod.fst (h.run_dueWithin ho hkeeps start stop),
    h.mem_openTasks hm hdue fun x =>
      Scored.atLeast start.timestamp x && Scored.atLeast x stop.timestamp⟩

/-- The due queries of its owner give a stored task by its due date. -/
theorem Tracked.finds_own (h : Tracked w.store m) (ho : w.outages = []) (hm : m t.id = some t) :
    Finds w t.userId t t.dueDate := by
  obtain ⟨members, hkeeps, hranks⟩ := h.due t.userId
  exact h.documents.finds ho hm hkeeps fun a ha => hranks.own a t (ha ▸ hm) rfl

/-! ## Recent tasks -/

/-- One task was created before another, or at the same time with a lower id, as scores tell times. -/
def CreatedBefore (a b : Task) : Prop :=
  Scored.place ⟨a.id, a.createdAt.timestamp⟩ < Scored.place ⟨b.id, b.createdAt.timestamp⟩

/-- The answers to a user's recent tasks are the first tasks of a list: all tasks of the user are in it,
the newest first, each once. Tasks of other users may stand between them. -/
structure Recent (w : World) (u : String) (all : List Task) : Prop where
  answer : ∀ limit, ((recent u limit).run w).1 = .ok (Content.through (limit - 1) all)
  stored : ∀ t ∈ all, Stored w t
  own : ∀ t, Stored w t → t.userId = u → t ∈ all
  once : (all.map Task.id).Nodup
  newest : all.Pairwise fun a b => a.userId = u → b.userId = u → CreatedBefore b a

def listed (m : String → Option Task) (members : List Scored) : List Task :=
  members.reverse.filterMap fun a => m a.member

theorem mem_listed : t ∈ listed m members ↔ ∃ a ∈ members, m a.member = some t := by
  simp [listed]

/-- Where everything is there, the first items are read from the first places. -/
theorem filterMap_through {α β : Type} {f : α → Option β} {xs : List α}
    (h : ∀ a ∈ xs, (f a).isSome = true) (last : Int) :
    (Content.through last xs).filterMap f = Content.through last (xs.filterMap f) := by
  have htake : ∀ n, (xs.take n).filterMap f = (xs.filterMap f).take n := by
    intro n
    induction xs generalizing n with
    | nil => simp
    | cons a rest ih =>
      obtain ⟨ha, hrest⟩ := List.forall_mem_cons.mp h
      obtain ⟨b, hb⟩ := Option.isSome_iff_exists.mp ha
      cases n with
      | zero => rfl
      | succ n =>
        rw [List.take_succ_cons, List.filterMap_cons_some hb, List.filterMap_cons_some hb, ih hrest,
          List.take_succ_cons]
  unfold Content.through
  rw [List.filterMap_length_eq_length.mpr h]
  split
  · exact htake _
  · exact htake _

theorem Documents.run_recent (h : Documents w.store m) (ho : w.outages = [])
    (hkeeps : w.store.Keeps (.taskUser u) (.ordered members))
    (hstored : ∀ a ∈ members, ∃ t, m a.member = some t) (limit : Int) :
    (recent u limit).run w = (.ok (Content.through (limit - 1) (listed m members)), w) := by
  unfold recent
  rw [Operation.run_guard ho, run_bind_ok (run_read rfl w)]
  simp only [Command.run, hkeeps.ordered]
  rw [h.run_getMany ho, filterMap_through, List.filterMap_map]
  · rfl
  · intro id hid
    obtain ⟨a, ha, rfl⟩ := List.mem_map.mp hid
    obtain ⟨t, hm⟩ := hstored a (List.mem_reverse.mp ha)
    rw [hm]
    rfl

/-- The index by creation of a user is such a list. -/
theorem Ranks.recent (hranks : Ranks m u (fun t => some t.createdAt) members)
    (h : Documents w.store m) (ho : w.outages = [])
    (hkeeps : w.store.Keeps (.taskUser u) (.ordered members)) : Recent w u (listed m members) where
  answer limit := congrArg Prod.fst (h.run_recent ho hkeeps hranks.stored limit)
  stored t ht := by
    obtain ⟨a, -, hm⟩ := mem_listed.mp ht
    rw [h.stored_iff ho, h.id_eq hm]
    exact hm
  own t ht hu := by
    have hm := (h.stored_iff ho t).mp ht
    exact mem_listed.mpr ⟨_, (hranks.own ⟨t.id, t.createdAt.timestamp⟩ t hm hu).mpr ⟨_, rfl, rfl⟩, hm⟩
  once := by
    refine (h.members_sublist members.reverse).nodup ?_
    rw [List.map_reverse, List.nodup_reverse]
    exact hranks.order.once
  newest := by
    -- where a user's own tasks stand is when they were created; nothing is known of the others
    have hown : ∀ a ∈ members, ∀ t, m a.member = some t → t.userId = u →
        a = ⟨t.id, t.createdAt.timestamp⟩ := by
      intro a ha t hm hu
      obtain ⟨x, hx, hscore⟩ := (hranks.own a t hm hu).mp ha
      cases hx
      rw [h.id_eq hm, ← hscore]
    refine List.pairwise_filterMap.mpr (List.pairwise_reverse.mpr ?_)
    refine hranks.order.sorted.imp_of_mem fun {a b} ha hb hlt => ?_
    intro later hm earlier hm' hu hu'
    rw [hown a ha earlier hm' hu', hown b hb later hm hu] at hlt
    exact hlt

/-! ## Changes of owner -/

/-- A task that was written for another user is still found by the old owner's queries, by the due date
that it had. -/
theorem Saved.finds_old (hsaved : Saved w.store later.store t) (h : Tracked w.store m)
    (hlater : Tracked later.store (Function.update m t.id (some t.written))) (ho : later.outages = [])
    (hold : m t.id = some old) (howner : t.userId ≠ old.userId) :
    Finds later old.userId t.written old.dueDate := by
  obtain ⟨members, hkeeps, hranks⟩ := h.due old.userId
  refine hlater.documents.finds (u := old.userId) (m := Function.update m t.id (some t.written)) ho
    (Function.update_self _ _ _)
    (hkeeps.of_lookup_eq (hsaved.other _ not_false nofun nofun ?_)) fun a ha => ?_
  · exact fun heq => howner (Key.taskDue.inj heq).symm
  · exact hranks.own a old ((congrArg m ha).trans hold) rfl

theorem Saved.recent_old (hsaved : Saved w.store later.store t) (h : Tracked w.store m)
    (hlater : Tracked later.store (Function.update m t.id (some t.written))) (ho : later.outages = [])
    (hold : m t.id = some old) (howner : t.userId ≠ old.userId) :
    ∃ all, Recent later old.userId all ∧ t.written ∈ all := by
  obtain ⟨members, hkeeps, hranks⟩ := h.created old.userId
  have hkeeps' : later.store.Keeps (.taskUser old.userId) (.ordered members) := by
    refine hkeeps.of_lookup_eq (hsaved.other _ not_false nofun ?_ nofun)
    exact fun heq => howner (Key.taskUser.inj heq).symm
  have hranks' : Ranks (Function.update m t.id (some t.written)) old.userId
      (fun t => some t.createdAt) members := Ranks.elsewhere (t := t.written) hranks howner
  have hmem := (hranks.own ⟨t.id, old.createdAt.timestamp⟩ old hold rfl).mpr ⟨_, rfl, rfl⟩
  exact ⟨_, hranks'.recent hlater.documents ho hkeeps',
    mem_listed.mpr ⟨_, hmem, Function.update_self _ _ _⟩⟩

/-- A change that is answered writes the revised task over the stored one. -/
theorem Documents.saved_of_update (h : Documents w.store m) (ho : w.outages = []) {id : String}
    {fields : Fields} (ht : ((update id fields).run w).1 = .ok t) :
    ∃ old, m id = some old ∧ revise { now := w.clock } old fields = .ok t ∧
      Saved w.store ((update id fields).run w).2.store t := by
  obtain ⟨old, hold, hrevise⟩ := h.revise_of_update ho ht
  have hrun : (update id fields).run w = (save t (some old)).run w := by
    rw [h.run_update ho, hold]
    simp only [hrevise]
    rfl
  obtain ⟨w', hsave, hsaved⟩ := run_save t (some old) ho
  rw [hrun, hsave]
  exact ⟨old, hold, hrevise, hsaved⟩

/-- After any edits, when a stored task is given to another user: it is stored as it was written; the
due queries of the new owner give it just when it is open and has a due date that they ask for, and it
is in the list that the new owner's recent tasks are cut from. But the due queries of the old owner give
it too, just when it is open and the due date that it had there is one that they ask for, and it stays
in the list that the old owner's recent tasks are cut from. -/
theorem handover_exact (h : Tended w) {fields : Fields} (hold : Stored w old)
    (ht : ((update old.id fields).run w).1 = .ok t) (howner : t.userId ≠ old.userId)
    (hhours : Decimal.isFinite t.actualHours = true)
    (hstore : later.store = ((update old.id fields).run w).2.store) (ho : later.outages = []) :
    Stored later t.written
      ∧ Finds later t.userId t.written t.dueDate
      ∧ (∃ all, Recent later t.userId all ∧ t.written ∈ all)
      ∧ Finds later old.userId t.written old.dueDate
      ∧ ∃ all, Recent later old.userId all ∧ t.written ∈ all := by
  obtain ⟨⟨m, hm⟩, -, hclock, houtages⟩ := h.tracked
  obtain ⟨old', hold', hrevise, hsaved⟩ := hm.documents.saved_of_update houtages ht
  rw [(hm.documents.stored_iff houtages old).mp hold] at hold'
  cases hold'
  -- the task takes the place of its old version, which is found in the indexes of the old owner
  have hid : t.id = old.id := id_of_revise hrevise
  have hmold : m t.id = some old := by
    rw [hid]
    exact (hm.documents.stored_iff houtages old).mp hold
  rw [← hstore] at hsaved
  have hlater : Tracked later.store (Function.update m t.id (some t.written)) :=
    hsaved.tracked hm (hsaved.document_written ⟨_, _, hclock, hrevise⟩ hhours)
  have hstored : (Function.update m t.id (some t.written)) t.written.id = some t.written :=
    Function.update_self _ _ _
  refine ⟨(hlater.documents.stored_iff ho _).mpr hstored, hlater.finds_own ho hstored, ?_,
    hsaved.finds_old hm hlater ho hmold howner, hsaved.recent_old hm hlater ho hmold howner⟩
  obtain ⟨members, hkeeps, hranks⟩ := hlater.created t.userId
  have hrecent := hranks.recent hlater.documents ho hkeeps
  exact ⟨_, hrecent, hrecent.own _ ((hlater.documents.stored_iff ho _).mpr hstored) rfl⟩

/-- A task is given to another user: nothing else of it changes but the time of its last change. -/
theorem revise_owner (setting : Setting) (t : Task) (u : String) :
    revise setting t [("user_id", .str u)] =
      Task.check setting ({ t with userId := u, updatedAt := setting.now } : Task).value := by
  unfold revise
  refine congrArg (fun f => Task.check setting (.obj f)) ?_
  simp [Task.fields, Fields.merge, Fields.put]

/-- The world of one task, which is due at an hour. -/
def heldWorld : World := withTask { clock := sampleHour 0 } (sampleTask "task_1" 1)

/-- The world when the task has been given to a second user. -/
def handedWorld : World := ((update "task_1" [("user_id", .str "user_2")]).run heldWorld).2

def handedTask : Task := { sampleTask "task_1" 1 with userId := "user_2" }

theorem zoned_sampleHour {n : Int} (h : Moment.shows (sampleHour n).wall = true) :
    (sampleHour n).Stamped ∧ (sampleHour n).isNaive = false := ⟨stamped_sampleHour h, rfl⟩

theorem accepted_sampleTask {n : Int} (h : Moment.shows (sampleHour n).wall = true) :
    (sampleTask "task_1" n).Accepted := by
  have hnow := zoned_sampleHour (n := 0) (by decide)
  exact ⟨{ now := sampleHour 0 }, _, hnow, Task.check_value (wellFormed_sampleTask h) hnow hnow rfl _⟩

theorem hours_sampleTask (n : Int) : Decimal.isFinite (sampleTask "task_1" n).actualHours = true := by
  show Decimal.isFinite 0.0 = true
  decide +kernel

/-- The world of a task that is due at any hour. -/
theorem tracked_withTask {n : Int} (h : Moment.shows (sampleHour n).wall = true) :
    Tended (withTask { clock := sampleHour 0 } (sampleTask "task_1" n)) ∧
      Tracked (withTask { clock := sampleHour 0 } (sampleTask "task_1" n)).store
        (Function.update (fun _ => none) "task_1" (some (sampleTask "task_1" n))) := by
  have hstart : Tended { clock := sampleHour 0 } := .start rfl (zoned_sampleHour (by decide)) rfl
  refine ⟨hstart.edit (.save (sampleTask "task_1" n) none) ⟨?_, ?_⟩, ?_⟩
  · rintro _ _ ⟨⟩
    exact accepted_sampleTask h
  · rintro _ rfl
    exact hours_sampleTask n
  · obtain ⟨w', hrun, hsaved⟩ := run_save (w := { clock := sampleHour 0 }) (sampleTask "task_1" n) none rfl
    have hheld : withTask { clock := sampleHour 0 } (sampleTask "task_1" n) = w' := by
      unfold withTask
      rw [show (Edit.save (sampleTask "task_1" n) none).program =
        do let _ ← save (sampleTask "task_1" n) none from rfl, run_discard, hrun]
    rw [hheld]
    exact hsaved.tracked (tracked_of_empty rfl)
      (hsaved.document_written (accepted_sampleTask h) (hours_sampleTask n))

theorem heldWorld_tracked : Tended heldWorld ∧
    Tracked heldWorld.store (Function.update (fun _ => none) "task_1" (some (sampleTask "task_1" 1))) :=
  tracked_withTask (by decide)

theorem stored_sampleTask : Stored heldWorld (sampleTask "task_1" 1) := by
  obtain ⟨hheld, htracked⟩ := heldWorld_tracked
  exact (htracked.documents.stored_iff hheld.tracked.2.2.2 _).mpr rfl

theorem withOwner (h : t.WellFormed) (u : String) : ({ t with userId := u } : Task).WellFormed :=
  { h with }

theorem check_handedTask (setting : Setting) : Task.check setting handedTask.value = .ok handedTask := by
  have hnow := zoned_sampleHour (n := 0) (by decide)
  exact Task.check_value (withOwner (wellFormed_sampleTask (by decide)) "user_2") hnow hnow rfl setting

theorem accepted_handedTask : handedTask.Accepted :=
  ⟨{ now := sampleHour 0 }, _, zoned_sampleHour (by decide), check_handedTask _⟩

theorem answer_handedTask :
    ((update "task_1" [("user_id", .str "user_2")]).run heldWorld).1 = .ok handedTask := by
  obtain ⟨hheld, htracked⟩ := heldWorld_tracked
  have hclock : heldWorld.clock = sampleHour 0 := run_clock _ _
  rw [htracked.documents.answer_update hheld.tracked.2.2.2, hclock]
  show Failure.ofChecked "Task" (revise _ (sampleTask "task_1" 1) _) = _
  rw [revise_owner]
  exact congrArg (Failure.ofChecked "Task") (check_handedTask _)

theorem handedWorld_outages : handedWorld.outages = [] := by
  unfold handedWorld
  rw [run_outages]
  exact heldWorld_tracked.1.tracked.2.2.2

/-- What the queries give once the task is the second user's. -/
theorem handover_exact_of_task : Tended heldWorld ∧ Stored heldWorld (sampleTask "task_1" 1)
    ∧ ((update "task_1" [("user_id", .str "user_2")]).run heldWorld).1 = .ok handedTask
    ∧ handedTask.userId ≠ (sampleTask "task_1" 1).userId
    ∧ Decimal.isFinite handedTask.actualHours = true
    ∧ Stored handedWorld handedTask
    ∧ Finds handedWorld "user_2" handedTask (some (sampleHour 1))
    ∧ (∃ all, Recent handedWorld "user_2" all ∧ handedTask ∈ all)
    ∧ Finds handedWorld "user_1" handedTask (some (sampleHour 1))
    ∧ ∃ all, Recent handedWorld "user_1" all ∧ handedTask ∈ all := by
  have hheld := heldWorld_tracked.1
  have howner : handedTask.userId ≠ (sampleTask "task_1" 1).userId := by decide
  have hhours : Decimal.isFinite handedTask.actualHours = true := hours_sampleTask 1
  have hstore : handedWorld.store = ((update (sampleTask "task_1" 1).id [("user_id", .str "user_2")]).run
      heldWorld).2.store := by
    rw [show (sampleTask "task_1" 1).id = "task_1" from rfl]
    unfold handedWorld
    rfl
  exact ⟨hheld, stored_sampleTask, answer_handedTask, howner, hhours,
    handover_exact hheld stored_sampleTask answer_handedTask howner hhours hstore handedWorld_outages⟩

theorem handedWorld_saved : Saved heldWorld.store handedWorld.store handedTask := by
  obtain ⟨hheld, htracked⟩ := heldWorld_tracked
  obtain ⟨-, -, -, hsaved⟩ :=
    htracked.documents.saved_of_update hheld.tracked.2.2.2 answer_handedTask
  unfold handedWorld
  exact hsaved

/-- An open task that was due before is given to a second user. It is still overdue for the first one,
and among the first one's recent tasks. -/
theorem kept_by_old_owner : Tended heldWorld ∧ Stored heldWorld (sampleTask "task_1" 1)
    ∧ (sampleTask "task_1" 1).userId = "user_1"
    ∧ ((update "task_1" [("user_id", .str "user_2")]).run heldWorld).1 = .ok handedTask
    ∧ handedTask.userId = "user_2"
    ∧ (∃ ts, ((overdue "user_1" (sampleHour 2)).run handedWorld).1 = .ok ts ∧ handedTask ∈ ts)
    ∧ ∃ ts, ((recent "user_1" 100).run handedWorld).1 = .ok ts ∧ handedTask ∈ ts := by
  obtain ⟨hheld, htracked⟩ := heldWorld_tracked
  have hmold : (Function.update (fun _ => none) "task_1" (some (sampleTask "task_1" 1)))
      handedTask.id = some (sampleTask "task_1" 1) := rfl
  have howner : handedTask.userId ≠ (sampleTask "task_1" 1).userId := by decide
  have hafter := handedWorld_saved.tracked htracked
    (handedWorld_saved.document_written accepted_handedTask (hours_sampleTask 1))
  have hfinds : Finds handedWorld "user_1" handedTask (some (sampleHour 1)) :=
    handedWorld_saved.finds_old htracked hafter handedWorld_outages hmold howner
  obtain ⟨all, hrecent, hmem⟩ :=
    handedWorld_saved.recent_old htracked hafter handedWorld_outages hmold howner
  refine ⟨hheld, stored_sampleTask, rfl, answer_handedTask, rfl, ?_, _, hrecent.answer 100, ?_⟩
  · obtain ⟨ts, hrun, hiff⟩ := hfinds.late (sampleHour 2)
    have hscores : ScoresExact (· ∈ [sampleHour 1, sampleHour 2]) :=
      scoresExact_of_near (by decide)
    refine ⟨ts, hrun, hiff.mpr ⟨rfl, _, rfl, ?_⟩⟩
    exact (hscores _ _ (by simp) (by simp)).mpr (by decide)
  · have hall : ∀ t ∈ all, t = handedTask := by
      intro t ht
      have hm := (hafter.documents.stored_iff handedWorld_outages t).mp (hrecent.stored t ht)
      rw [Function.update_apply, Function.update_apply] at hm
      split at hm
      · exact (Option.some.inj hm).symm
      · next hid =>
        rw [if_neg (show ¬ t.id = "task_1" from hid)] at hm
        cases hm
    cases all with
    | nil => cases hmem
    | cons first rest =>
      rw [hall first List.mem_cons_self]
      exact List.mem_cons_self

end TaskAutomation.Tasks
