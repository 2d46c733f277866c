import TaskAutomation.Proofs.Decimal.Nearest
import TaskAutomation.Proofs.Tasks.Edits

/-!
# What is due

* `Tasks.ScoresExact` : the scores of moments order them as their instants do;
  `Tasks.scoresExact_of_near` : so they do where moments are within `2 ^ 33` seconds of 1970;
* `Tasks.Gives` : a query gives the stored tasks with a property, each once, by due date and then by
  id; `Tasks.gives_overdue`, `Tasks.gives_dueWithin` : the queries in a store whose due indexes are
  exact;
* `Tasks.due_exact` : after any edits of an empty store, the tasks that are overdue and those that
  are due from then on are the open tasks due so far, each in one of the two.
-/

namespace TaskAutomation.Tasks

open Check Program

variable {w : World} {m : String → Option Task} {userId : String}

/-! ## Orders -/

/-- One task is due before another: at an earlier instant, or at the same one with a lower id. -/
def DueBefore (a b : Task) : Prop :=
  ∃ d e, a.dueDate = some d ∧ b.dueDate = some e ∧
    (d.instant < e.instant ∨ d.instant = e.instant ∧ a.id < b.id)

theorem DueBefore.irrefl (t : Task) : ¬ DueBefore t t := by
  rintro ⟨d, e, hd, he, hlt⟩
  rw [hd] at he
  cases he
  rcases hlt with hlt | ⟨-, hlt⟩
  · exact lt_irrefl _ hlt
  · exact lt_irrefl _ hlt

/-! ## Scores -/

/-- The scores of moments order them as their instants do. -/
def ScoresExact (used : Moment → Prop) : Prop :=
  ∀ a b, used a → used b → (Scored.scoreBefore a.timestamp b.timestamp = true ↔ a.instant < b.instant)

/-- Near 1970 a score is off by less than half a microsecond. -/
theorem rank_timestamp {x : Moment} (h : |x.instant - Moment.epoch| < 2 ^ 33 * Moment.second) :
    ∃ s : ℚ, (Decimal.Binary.ofFloat x.timestamp).rank = toLex (0, s)
      ∧ |s - (x.instant - Moment.epoch : ℤ) / 1000000| ≤ 2 ^ (-21 : ℤ) := by
  have hbelow : (((x.instant - Moment.epoch).natAbs : ℚ) / (1000000 : ℕ)) < 2 ^ (33 : ℤ) := by
    rw [div_lt_iff₀ (by norm_num), Nat.cast_natAbs]
    exact_mod_cast h
  obtain ⟨s, hrank, herror⟩ := Decimal.rank_nearest (decide (x.instant - Moment.epoch < 0)) _
    (by decide : 0 < 1000000) (by decide) (by decide) hbelow
  rw [Decimal.signed_natAbs] at herror
  exact ⟨s, hrank, herror⟩

/-- Near 1970 scores tell microseconds apart. -/
theorem scoresExact_of_near {used : Moment → Prop}
    (h : ∀ x, used x → |x.instant - Moment.epoch| < 2 ^ 33 * Moment.second) : ScoresExact used := by
  have hlt : ∀ a b, used a → used b → a.instant < b.instant →
      Scored.scoreBefore a.timestamp b.timestamp = true := by
    intro a b ha hb hab
    obtain ⟨s, hs, herror⟩ := rank_timestamp (h a ha)
    obtain ⟨t, ht, herror'⟩ := rank_timestamp (h b hb)
    have hgap : ((a.instant - Moment.epoch : ℤ) : ℚ) + 1 ≤ (b.instant - Moment.epoch : ℤ) := by
      exact_mod_cast (by omega : a.instant - Moment.epoch + 1 ≤ b.instant - Moment.epoch)
    have hspace : (2 : ℚ) ^ (-21 : ℤ) + 2 ^ (-21 : ℤ) < 1 / 1000000 := by norm_num
    rw [Scored.scoreBefore_iff (isNumber_timestamp a) (isNumber_timestamp b), hs, ht,
      Prod.Lex.toLex_lt_toLex]
    refine .inr ⟨rfl, ?_⟩
    have hle := (abs_le.mp herror).2
    have hge := (abs_le.mp herror').1
    linarith
  intro a b ha hb
  refine ⟨fun hbefore => ?_, hlt a b ha hb⟩
  rw [Scored.scoreBefore_iff (isNumber_timestamp a) (isNumber_timestamp b)] at hbefore
  rcases lt_trichotomy a.instant b.instant with hab | hab | hab
  · exact hab
  · rw [Moment.timestamp, Moment.timestamp, hab] at hbefore
    exact absurd hbefore (lt_irrefl _)
  · have hafter := hlt b a hb ha hab
    rw [Scored.scoreBefore_iff (isNumber_timestamp b) (isNumber_timestamp a)] at hafter
    exact absurd hbefore hafter.asymm

/-- The moments that a query of due dates compares: the due dates of a user, and its bounds. -/
def Compared (w : World) (userId : String) (bounds : List Moment) (x : Moment) : Prop :=
  x ∈ bounds ∨ ∃ t, Stored w t ∧ t.userId = userId ∧ t.dueDate = some x

section Order

variable {used : Moment → Prop} {d e : Moment}

theorem rank_lt_iff (hscores : ScoresExact used) (hd : used d) (he : used e) :
    (Decimal.Binary.ofFloat d.timestamp).rank < (Decimal.Binary.ofFloat e.timestamp).rank ↔
      d.instant < e.instant :=
  (Scored.scoreBefore_iff (isNumber_timestamp d) (isNumber_timestamp e)).symm.trans (hscores d e hd he)

/-- Where scores are exact, members stand in the order of their moments, and then in their own. -/
theorem place_lt_iff (hscores : ScoresExact used) (hd : used d) (he : used e) (i j : String) :
    Scored.place ⟨i, d.timestamp⟩ < Scored.place ⟨j, e.timestamp⟩ ↔
      d.instant < e.instant ∨ d.instant = e.instant ∧ i < j := by
  have heq : (Decimal.Binary.ofFloat d.timestamp).rank = (Decimal.Binary.ofFloat e.timestamp).rank ↔
      d.instant = e.instant := by
    rw [le_antisymm_iff, le_antisymm_iff, ← not_lt, ← not_lt, ← not_lt, ← not_lt,
      rank_lt_iff hscores hd he, rank_lt_iff hscores he hd]
  unfold Scored.place
  rw [Prod.Lex.toLex_lt_toLex, rank_lt_iff hscores hd he, heq]

end Order

/-! ## Queries -/

/-- The open tasks among some members of an index. -/
def openTasks (m : String → Option Task) (members : List Scored) : List Task :=
  (members.filterMap fun a => m a.member).filter fun t => !t.isClosed

/-- Stored tasks have the ids that they are found by. -/
theorem Documents.ids_sublist (h : Documents w.store m) (ids : List String) :
    ((ids.filterMap m).map Task.id).Sublist ids := by
  induction ids with
  | nil => exact .slnil
  | cons id rest ih =>
    rw [List.filterMap_cons]
    cases hm : m id with
    | none => exact .cons _ ih
    | some t =>
      rw [List.map_cons, h.id_eq hm]
      exact .cons_cons _ ih

theorem Documents.members_sublist (h : Documents w.store m) (members : List Scored) :
    ((members.filterMap fun a => m a.member).map Task.id).Sublist (members.map Scored.member) := by
  have hsublist := h.ids_sublist (members.map Scored.member)
  rwa [List.filterMap_map] at hsublist

theorem ids_openTasks (h : Indexed w.store m) (members : List Scored) :
    ((openTasks m members).map Task.id).Sublist (members.map Scored.member) :=
  (List.filter_sublist.map Task.id).trans (Documents.members_sublist h.document members)

theorem openTasks_append (members more : List Scored) :
    openTasks m (members ++ more) = openTasks m members ++ openTasks m more := by
  unfold openTasks
  rw [List.filterMap_append, List.filter_append]

/-- Tasks of some ids are read as they are stored. -/
theorem Documents.run_getMany (h : Documents w.store m) (ho : w.outages = []) (ids : List String) :
    (getMany ids).run w = (.ok (ids.filterMap m), w) := by
  have heach : (each get ids).run w = (.ok (ids.map m), w) := run_each fun id _ => h.run_get ho id
  unfold getMany
  rw [Operation.run_guard ho, run_bind_ok heach, run_pure, List.filterMap_map]
  rfl

theorem Documents.run_overdue (h : Documents w.store m) (ho : w.outages = [])
    {members : List Scored} (hkeeps : w.store.Keeps (.taskDue userId) (.ordered members))
    (asOf : Moment) : (overdue userId asOf).run w = (.ok (openTasks m (members.filter fun a =>
      Scored.scoreBefore a.score asOf.timestamp)), w) := by
  unfold overdue openTasks
  rw [Operation.run_guard ho, run_bind_ok (run_read rfl w)]
  simp only [Command.run, hkeeps.ordered]
  rw [run_bind_ok (h.run_getMany ho _), run_pure, List.filterMap_map]
  rfl

theorem Documents.run_dueWithin (h : Documents w.store m) (ho : w.outages = [])
    {members : List Scored} (hkeeps : w.store.Keeps (.taskDue userId) (.ordered members))
    (start stop : Moment) : (dueWithin userId start stop).run w = (.ok (openTasks m (members.filter fun a =>
      Scored.atLeast start.timestamp a.score && Scored.atLeast a.score stop.timestamp)), w) := by
  unfold dueWithin openTasks
  rw [Operation.run_guard ho, run_bind_ok (run_read rfl w)]
  simp only [Command.run, hkeeps.ordered]
  rw [run_bind_ok (h.run_getMany ho _), run_pure, List.filterMap_map]
  rfl

/-! ## Answers -/

/-- The task belongs to the user and is neither completed nor cancelled. -/
def IsOpen (userId : String) (t : Task) : Prop := t.userId = userId ∧ t.isClosed = false

/-- A query gives the stored tasks with a property, each once, by due date and then by id. -/
def Gives (w : World) (query : Program (List Task)) (p : Task → Prop) : Prop :=
  ∃ ts, (query.run w).1 = .ok ts ∧ (ts.map Task.id).Nodup ∧ ts.Pairwise DueBefore
    ∧ ∀ t, t ∈ ts ↔ Stored w t ∧ p t

theorem Gives.congr {query : Program (List Task)} {p q : Task → Prop} (h : Gives w query p)
    (hpq : ∀ t, Stored w t → (p t ↔ q t)) : Gives w query q := by
  obtain ⟨ts, hrun, honce, hsorted, hmem⟩ := h
  refine ⟨ts, hrun, honce, hsorted, fun t => (hmem t).trans ?_⟩
  constructor
  · rintro ⟨hstored, hp⟩
    exact ⟨hstored, (hpq t hstored).mp hp⟩
  · rintro ⟨hstored, hq⟩
    exact ⟨hstored, (hpq t hstored).mpr hq⟩

/-- A query of some members of a due index gives the open tasks of its user whose members these
are. -/
theorem gives_openTasks (h : Indexed w.store m) (ho : w.outages = []) {bounds : List Moment}
    (hscores : ScoresExact (Compared w userId bounds)) {query : Program (List Task)}
    {f : Scored → Bool} (hquery : ∀ members, w.store.Keeps (.taskDue userId) (.ordered members) →
      query.run w = (.ok (openTasks m (members.filter f)), w)) :
    Gives w query fun t => IsOpen userId t ∧ ∃ due ∈ t.dueDate, f ⟨t.id, due.timestamp⟩ = true := by
  obtain ⟨members, hkeeps, horder, hmem⟩ := h.due userId
  have hfrom : ∀ a ∈ members.filter f, ∀ t, m a.member = some t → m t.id = some t ∧
      t.userId = userId ∧ ∃ due, t.dueDate = some due ∧ a = ⟨t.id, due.timestamp⟩ := by
    intro a ha t hm
    obtain ⟨t', due, hm', huser, hdue, hscore⟩ := (hmem a).mp (List.mem_of_mem_filter ha)
    rw [hm] at hm'
    cases hm'
    have hid := h.id_eq hm
    refine ⟨hid ▸ hm, huser, due, hdue, ?_⟩
    rw [hid, ← hscore]
  have hts : ∀ t, t ∈ openTasks m (members.filter f) ↔ Stored w t ∧ IsOpen userId t ∧
      ∃ due ∈ t.dueDate, f ⟨t.id, due.timestamp⟩ = true := by
    intro t
    unfold openTasks
    rw [List.mem_filter, List.mem_filterMap, stored_iff h ho, Bool.not_eq_true']
    constructor
    · rintro ⟨⟨a, ha, hm⟩, hopen⟩
      obtain ⟨hm, huser, due, hdue, rfl⟩ := hfrom a ha t hm
      exact ⟨hm, ⟨huser, hopen⟩, due, hdue, (List.mem_filter.mp ha).2⟩
    · rintro ⟨hm, ⟨huser, hopen⟩, due, hdue, hf⟩
      have ha := (hmem ⟨t.id, due.timestamp⟩).mpr ⟨t, due, hm, huser, hdue, rfl⟩
      exact ⟨⟨_, List.mem_filter.mpr ⟨ha, hf⟩, hm⟩, hopen⟩
  have hsorted : (openTasks m (members.filter f)).Pairwise DueBefore := by
    refine List.Pairwise.filter _ (List.pairwise_filterMap.mpr ?_)
    refine (horder.filter f).sorted.imp_of_mem fun {a b} ha hb hlt s hs t ht => ?_
    obtain ⟨hms, hsuser, d, hd, rfl⟩ := hfrom a ha s hs
    obtain ⟨hmt, htuser, e, he, rfl⟩ := hfrom b hb t ht
    have hused : Compared w userId bounds d := .inr ⟨s, (stored_iff h ho s).mpr hms, hsuser, hd⟩
    have hused' : Compared w userId bounds e := .inr ⟨t, (stored_iff h ho t).mpr hmt, htuser, he⟩
    exact ⟨d, e, hd, he, (place_lt_iff hscores hused hused' s.id t.id).mp hlt⟩
  refine ⟨_, congrArg Prod.fst (hquery members hkeeps), ?_, hsorted, hts⟩
  rw [List.Nodup, List.pairwise_map]
  refine hsorted.imp_of_mem fun {s t} hs ht hlt heq => ?_
  -- an id gives one task only
  have hms := (stored_iff h ho s).mp ((hts s).mp hs).1
  have hmt := (stored_iff h ho t).mp ((hts t).mp ht).1
  rw [heq, hmt] at hms
  cases hms
  exact DueBefore.irrefl _ hlt

section Queries

variable {asOf start stop : Moment}

theorem compared_of_due {bounds : List Moment} {t : Task} {due : Moment} (ht : Stored w t)
    (hopen : IsOpen userId t) (hdue : due ∈ t.dueDate) : Compared w userId bounds due :=
  .inr ⟨t, ht, hopen.1, hdue⟩

/-- The tasks that are overdue are the open ones that were due before. -/
theorem gives_overdue (h : Indexed w.store m) (ho : w.outages = []) {bounds : List Moment}
    (hscores : ScoresExact (Compared w userId bounds)) (hasOf : asOf ∈ bounds) :
    Gives w (overdue userId asOf) fun t => IsOpen userId t ∧ ∃ due ∈ t.dueDate,
      due.instant < asOf.instant := by
  refine (gives_openTasks h ho hscores fun members hkeeps =>
    Documents.run_overdue h.document ho hkeeps asOf).congr fun t ht => and_congr_right fun hopen => ?_
  refine exists_congr fun due => and_congr_right fun hdue => ?_
  exact hscores due asOf (compared_of_due ht hopen hdue) (.inl hasOf)

/-- The tasks that are due between two moments are the open ones with such a due date. -/
theorem gives_dueWithin (h : Indexed w.store m) (ho : w.outages = []) {bounds : List Moment}
    (hscores : ScoresExact (Compared w userId bounds)) (hstart : start ∈ bounds)
    (hstop : stop ∈ bounds) :
    Gives w (dueWithin userId start stop) fun t => IsOpen userId t ∧ ∃ due ∈ t.dueDate,
      start.instant ≤ due.instant ∧ due.instant ≤ stop.instant := by
  refine (gives_openTasks h ho hscores fun members hkeeps =>
    Documents.run_dueWithin h.document ho hkeeps start stop).congr fun t ht => and_congr_right fun hopen => ?_
  refine exists_congr fun due => and_congr_right fun hdue => ?_
  have hused : Compared w userId bounds due := compared_of_due ht hopen hdue
  unfold Scored.atLeast
  rw [Bool.and_eq_true, Bool.not_eq_true', Bool.not_eq_true', ← Bool.not_eq_true,
    ← Bool.not_eq_true, hscores due start hused (.inl hstart), hscores stop due (.inl hstop) hused,
    not_lt, not_lt]

end Queries

/-- After any edits of an empty store, where scores are exact, the overdue tasks of a user are just
the stored open tasks that were due before, and those due between two moments just the open tasks
with such a due date; and the tasks that are overdue and those due from then on are together just
the open tasks due so far, each in one of the two. -/
theorem due_exact (h : Reached w) (userId : String) {asOf stop : Moment}
    (hscores : ScoresExact (Compared w userId [asOf, stop])) :
    Gives w (overdue userId asOf) (fun t => IsOpen userId t ∧ ∃ due ∈ t.dueDate,
        due.instant < asOf.instant)
      ∧ Gives w (dueWithin userId asOf stop) (fun t => IsOpen userId t ∧ ∃ due ∈ t.dueDate,
        asOf.instant ≤ due.instant ∧ due.instant ≤ stop.instant)
      ∧ (asOf.instant ≤ stop.instant → ∃ late soon, ((overdue userId asOf).run w).1 = .ok late
        ∧ ((dueWithin userId asOf stop).run w).1 = .ok soon ∧ late.Disjoint soon
        ∧ ∀ t, t ∈ late ++ soon ↔ Stored w t ∧ IsOpen userId t ∧ ∃ due ∈ t.dueDate,
          due.instant ≤ stop.instant) := by
  obtain ⟨⟨m, hm⟩, -, -, ho⟩ := h.indexed
  have hlate := gives_overdue hm ho hscores (List.mem_cons_self (a := asOf))
  have hsoon := gives_dueWithin hm ho hscores (List.mem_cons_self (a := asOf))
    (List.mem_cons_of_mem asOf (List.mem_singleton_self stop))
  refine ⟨hlate, hsoon, fun hle => ?_⟩
  obtain ⟨late, hrun, -, -, hmem⟩ := hlate
  obtain ⟨soon, hrun', -, -, hmem'⟩ := hsoon
  refine ⟨late, soon, hrun, hrun', fun t ht ht' => ?_, fun t => ?_⟩
  · obtain ⟨-, -, due, hdue, hlt⟩ := (hmem t).mp ht
    obtain ⟨-, -, due', hdue', hle', -⟩ := (hmem' t).mp ht'
    rw [hdue] at hdue'
    cases hdue'
    exact absurd hlt (not_lt.mpr hle')
  · rw [List.mem_append, hmem, hmem']
    constructor
    · rintro (⟨hstored, hopen, due, hdue, hlt⟩ | ⟨hstored, hopen, due, hdue, -, hle'⟩)
      · exact ⟨hstored, hopen, due, hdue, (hlt.trans_le hle).le⟩
      · exact ⟨hstored, hopen, due, hdue, hle'⟩
    · rintro ⟨hstored, hopen, due, hdue, hle'⟩
      rcases lt_or_ge due.instant asOf.instant with hlt | hge
      · exact .inl ⟨hstored, hopen, due, hdue, hlt⟩
      · exact .inr ⟨hstored, hopen, due, hdue, hge, hle'⟩

/-- Some hours after the start of 2001, in UTC. -/
def sampleHour (n : Int) : Moment := .ofInstant (Moment.epoch + (978307200 + n * 3600) * Moment.second)

/-- A pending task that is due at an hour. -/
def sampleTask (id : String) (hour : Int) : Task where
  id := id
  userId := "user_1"
  clientId := none
  title := "Call"
  description := none
  status := .pending
  priority := .medium
  tag := none
  dueDate := some (sampleHour hour)
  parentTaskId := none
  estimatedHours := none
  actualHours := 0.0
  progress := 0
  aiGenerated := false
  aiConfidence := none
  assigneeIds := []
  createdAt := sampleHour 0
  updatedAt := sampleHour 0
  extra := []

/-- A world that a new task is written to. -/
def withTask (w : World) (t : Task) : World := ((Edit.save t none).program.run w).2

theorem withTask_indexed {t : Task} (hreached : Reached w) (h : Indexed w.store m)
    (hwell : t.WellFormed) (hfinite : t.AllFinite) (hnew : m t.id = none) :
    Reached (withTask w t) ∧
      Indexed (withTask w t).store (Function.update m t.id (some t.reread)) := by
  obtain ⟨-, -, -, ho⟩ := hreached.indexed
  have hallowed : (Edit.save t none).Allowed w := by
    refine ⟨?_, ?_, ?_⟩
    · rintro _ _ ⟨⟩
      exact hwell
    · rintro _ rfl
      exact hfinite
    · rintro _ old rfl hold hid
      rw [stored_iff h ho, hid, hnew] at hold
      cases hold
  refine ⟨hreached.edit _ hallowed, ?_⟩
  obtain ⟨w', hrun, hindexed⟩ := save_indexed none h ho hwell hfinite (by simp [hnew])
  unfold withTask
  rw [show (Edit.save t none).program = do let _ ← save t none from rfl, run_discard, hrun]
  exact hindexed

theorem stamped_sampleHour {n : Int} (h : Moment.shows (sampleHour n).wall = true) :
    (sampleHour n).Stamped where
  wall := h
  offset := by
    rintro _ ⟨⟩
    decide
  minutes := by
    rintro _ ⟨⟩
    rfl

theorem wellFormed_sampleTask {id : String} {n : Int}
    (h : Moment.shows (sampleHour n).wall = true) : (sampleTask id n).WellFormed where
  dueDate := by
    rintro _ ⟨⟩
    exact ⟨stamped_sampleHour h, rfl⟩
  estimatedHours := nofun
  actualHours := Task.broken?_zero
  progress := by
    show Check.Bounds.broken? _ (.ofInt 0) = none
    decide
  aiConfidence := nofun
  createdAt := (stamped_sampleHour (by decide)).toShown
  updatedAt := (stamped_sampleHour (by decide)).toShown
  extra := nofun

/-- The world of two tasks, one due at an hour and one an hour later. -/
def sampleWorld : World :=
  withTask (withTask { clock := sampleHour 0 } (sampleTask "task_1" 1)) (sampleTask "task_2" 2)

/-- The tasks of the world. -/
def sampleTasks : String → Option Task :=
  Function.update (Function.update (fun _ => none) "task_1" (some (sampleTask "task_1" 1).reread))
    "task_2" (some (sampleTask "task_2" 2).reread)

theorem sampleWorld_indexed : Reached sampleWorld ∧ Indexed sampleWorld.store sampleTasks := by
  have hstart : Reached { clock := sampleHour 0 } :=
    .start rfl (stamped_sampleHour (by decide)).toShown rfl
  obtain ⟨hreached₁, h₁⟩ := withTask_indexed hstart (indexed_of_empty rfl)
    (wellFormed_sampleTask (by decide)) (t := sampleTask "task_1" 1) (by decide +kernel) rfl
  exact withTask_indexed hreached₁ h₁
    (wellFormed_sampleTask (by decide)) (t := sampleTask "task_2" 2) (by decide +kernel) (by decide)

/-- With bounds near 1970 the scores that a query compares in the world are exact. -/
theorem scoresExact_sampleWorld {bounds : List Moment}
    (h : ∀ x ∈ bounds, |x.instant - Moment.epoch| < 2 ^ 33 * Moment.second) :
    ScoresExact (Compared sampleWorld "user_1" bounds) := by
  obtain ⟨hreached, hindexed⟩ := sampleWorld_indexed
  refine scoresExact_of_near fun x hx => ?_
  rcases hx with hbound | ⟨t, ht, -, hdue⟩
  · exact h x hbound
  · have ht := (stored_iff hindexed hreached.indexed.2.2.2 t).mp ht
    unfold sampleTasks at ht
    rw [Function.update_apply, Function.update_apply] at ht
    split at ht
    · cases ht
      cases hdue
      decide
    · split at ht
      · cases ht
        cases hdue
        decide
      · cases ht

/-- The queries are exact where both tasks are stored, at the hour that the second is due. -/
theorem due_exact_of_tasks : Stored sampleWorld (sampleTask "task_1" 1).reread
    ∧ Stored sampleWorld (sampleTask "task_2" 2).reread
    ∧ Gives sampleWorld (overdue "user_1" (sampleHour 2)) (fun t => IsOpen "user_1" t ∧
      ∃ due ∈ t.dueDate, due.instant < (sampleHour 2).instant)
    ∧ Gives sampleWorld (dueWithin "user_1" (sampleHour 2) (sampleHour 3)) (fun t =>
      IsOpen "user_1" t ∧ ∃ due ∈ t.dueDate, (sampleHour 2).instant ≤ due.instant ∧
        due.instant ≤ (sampleHour 3).instant) := by
  obtain ⟨hreached, hindexed⟩ := sampleWorld_indexed
  have ho := hreached.indexed.2.2.2
  have hscores : ScoresExact (Compared sampleWorld "user_1" [sampleHour 2, sampleHour 3]) :=
    scoresExact_sampleWorld (by decide)
  obtain ⟨hlate, hsoon, -⟩ := due_exact hreached "user_1" hscores
  refine ⟨?_, ?_, hlate, hsoon⟩
  · exact (stored_iff hindexed ho _).mpr rfl
  · exact (stored_iff hindexed ho _).mpr rfl

end TaskAutomation.Tasks
