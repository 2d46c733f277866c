import TaskAutomation.Proofs.Engine.Blame
import TaskAutomation.Proofs.Engine.Earned
import TaskAutomation.Proofs.Rules.Edits
import TaskAutomation.Proofs.Scan.Budget

/-!
# What a scan reports

* `Rules.strict_usersWithActive`, `Rules.sorted_usersWithActive` : the users are listed only where nothing
  was refused, in increasing order;
* `Scan.UserScan` : the scan of one user, what came of it, and what is reported of it;
  `Scan.scans_of_each` : a loop over users scans each of them, in order, whatever comes of it;
* `Scan.Listed` : the calls of a scan that listed the users; `Scan.listed_of_ends` : a scan was refused,
  could not list the users, or is such a one and reports;
* `Scan.earns_user`, `Scan.earns_all` : a report tells of as many runs as records of them were kept;
* `Scan.reports_all` : the report of a scan, whatever fails after the users are listed.
-/

namespace TaskAutomation

open Check Program

/-! ## Listing the users -/

namespace Rules

theorem strict_get (id : String) : (get id).Strict := by
  refine .guarded (.bind (.store _) fun cells => ?_)
  split
  · exact .done _
  · exact .bind .setting fun s => .bind (.ofChecked _ _) fun rule => .done _

theorem strict_load (ids : List String) : (load ids).Strict :=
  .guarded (.bind (.each strict_get) fun _ => .ofExcept _)

theorem strict_usersWithActive (triggers : List Trigger) : (usersWithActive triggers).Strict := by
  refine .guarded ?_
  cases triggers with
  | nil => exact .done _
  | cons t rest => exact .bind (.store _) fun ids => .bind (strict_load ids) fun _ => .done _

/-- The users are listed in increasing order, each once. -/
theorem sorted_usersWithActive (triggers : List Trigger) :
    (usersWithActive triggers).Yields fun users => users.Pairwise (· < ·) := by
  refine .guarded ?_
  cases triggers with
  | nil => exact .done .nil
  | cons t rest => exact .after fun ids => .after fun rules => .done (pairwise_lt_sorted _)

end Rules

namespace Scan

variable {e : Engine} {moment : Moment}

/-! ## Scans of users -/

/-- The scan of a user, what came of it, and the calls that it took. -/
structure UserScan where
  userId : String
  outcome : Except Failure UserReport
  log : List Entry

namespace UserScan

/-- The user was scanned. -/
def Runs (e : Engine) (moment : Moment) (x : UserScan) : Prop :=
  (user e x.userId moment).Ends x.log x.outcome

/-- What is reported of the user: what the scan reports, or why it failed. -/
def report (x : UserScan) : UserReport :=
  match x.outcome with
  | .ok r => r
  | .error f => { userId := x.userId, errors := [f.message] }

end UserScan

theorem scan_of_userSafely {userId : String} {log : List Entry} {result : Except Failure UserReport}
    (h : (userSafely e moment userId).Ends log result) :
    ∃ x : UserScan, x.userId = userId ∧ x.log = log ∧ x.Runs e moment ∧ result = .ok x.report := by
  let scan outcome : UserScan := ⟨userId, outcome, log⟩
  obtain ⟨outcome, huser, rfl⟩ := Ends.of_attempt_told (f := fun outcome => (scan outcome).report)
    (by rintro (_ | _) <;> rfl) h
  exact ⟨scan outcome, rfl, rfl, huser, rfl⟩

/-- Each of some users is scanned in order, whatever comes of it. -/
theorem scans_of_each {users : List String} {log : List Entry}
    {result : Except Failure (List UserReport)}
    (h : (each (userSafely e moment) users).Ends log result) :
    ∃ scans : List UserScan, log = scans.flatMap UserScan.log ∧ (∀ x ∈ scans, x.Runs e moment)
      ∧ scans.map UserScan.userId = users.map id ∧ result = .ok (scans.map UserScan.report) :=
  Ends.of_each (fun _ _ _ => scan_of_userSafely) h

/-- The report of a user is about this user. -/
theorem userId_of_user (userId : String) :
    (user e userId moment).Yields fun r => r.userId = userId :=
  .guarded (.after fun _ => .after fun _ => .after fun _ => .after fun _ => .after fun _ => .done rfl)

theorem UserScan.userId_report {x : UserScan} (h : x.Runs e moment) : x.report.userId = x.userId := by
  unfold UserScan.Runs at h
  unfold UserScan.report
  cases houtcome : x.outcome with
  | error f => rfl
  | ok r =>
    rw [houtcome] at h
    exact userId_of_user x.userId x.log r h

/-! ## The scan of all users -/

/-- The call that enters the scan. -/
abbrev entry : Call := .enter (operation "run_scheduled_scan") none .nothing

/-- The calls of a scan that lists some users: it scans them in order, as many as it may. -/
structure Listed (e : Engine) (moment : Moment) (users : List String) (scans : List UserScan)
    (log : List Entry) : Prop where
  log : ∃ listing, log = ⟨entry, none⟩ :: (listing ++ (scans.flatMap UserScan.log ++ [⟨.count .scan, ()⟩]))
    ∧ (Rules.usersWithActive Trigger.scheduled).Ends listing (.ok users)
  scanned : scans.map UserScan.userId = users.take e.settings.scanMaxUsers.toNat
  runs : ∀ x ∈ scans, x.Runs e moment

/-- The calls of a scan that cannot list the users, or is refused itself. -/
inductive Unlisted : List Entry → Failure → Prop where
  | refused (message : String) : Unlisted [⟨entry, some message⟩] (.unreachable message)
  | listing {listing : List Entry} {f : Failure}
      (h : (Rules.usersWithActive Trigger.scheduled).Ends listing (.error f)) :
      Unlisted (⟨entry, none⟩ :: listing) f

/-- A scan fails only where it cannot list the users. -/
theorem listed_of_ends {log : List Entry} {result : Except Failure Report}
    (h : (all e moment).Ends log result) : (∃ f, Unlisted log f ∧ result = .error f)
      ∨ ∃ users scans, Listed e moment users scans log
        ∧ result = .ok ⟨scans.map UserScan.report⟩ := by
  rcases Ends.of_guarded h with ⟨message, rfl, rfl⟩ | ⟨rest, rfl, hbody⟩
  · exact .inl ⟨_, .refused message, rfl⟩
  rcases Ends.of_bind hbody with ⟨f, hfail, rfl⟩ | ⟨listing, rest, users, rfl, hlisting, hscan⟩
  · exact .inl ⟨f, .listing hfail, rfl⟩
  rcases Ends.of_bind hscan with ⟨f, hfail, -⟩ | ⟨during, last, reports, rfl, hscans, _, _, rfl, rfl, rfl⟩
  · obtain ⟨_, -, -, -, heq⟩ := scans_of_each hfail
    cases heq
  obtain ⟨scans, rfl, hruns, husers, heq⟩ := scans_of_each hscans
  cases heq
  exact .inr ⟨users, scans, ⟨⟨listing, rfl, hlisting⟩, husers.trans (List.map_id _), hruns⟩, rfl⟩

/-! ## What is told of runs -/

/-- A firing tells of as many runs as records of them were kept. -/
theorem Firing.earned_eq {x : Firing} (h : x.Runs e moment) (hfree : Unhindered x.log) :
    Entry.earned x.log = x.executed := by
  refine (e.earns_process _ true x.log x.outcome h hfree).trans ?_
  unfold gain Firing.executed
  cases x.outcome <;> rfl

/-- What a scan fires tells of as many runs as records of them were kept. -/
theorem earns_fire (userId : String) (late soon : List Task) :
    Earns (fire e userId moment late soon) UserReport.executed := by
  intro log result h hfree
  obtain ⟨firings, rfl, hruns, -, rfl⟩ := firings_of_fire h
  rw [Entry.earned_flatMap]
  refine congrArg total (List.map_congr_left fun x hx => x.earned_eq (hruns x hx) ?_)
  exact hfree.of_subset fun n hn => List.mem_flatMap.mpr ⟨x, hx, hn⟩

theorem earns_user (userId : String) : Earns (user e userId moment) UserReport.executed := by
  have hqueries : ∀ stop, Idle (Tasks.overdue userId moment) ∧ Idle (Tasks.dueWithin userId moment stop) :=
    fun stop => ⟨.of_touches (Tasks.discreet_overdue _ _ : Serves _).touches fun _ => id,
      .of_touches (Tasks.discreet_dueWithin _ _ _ : Serves _).touches fun _ => id⟩
  rw [user_eq]
  refine .guard (.bind (hqueries moment).1 fun late => .bind (.ofExcept _) fun stop => ?_)
  exact .bind (hqueries stop).2 fun soon => earns_fire userId late soon

theorem earns_userSafely (userId : String) :
    Earns (userSafely e moment userId) UserReport.executed :=
  (earns_user userId).told (by rintro (_ | _) <;> exact ⟨_, rfl, rfl⟩)

/-- How many rules ran, for all users together. -/
def Report.executed (r : Report) : Nat := total (r.users.map UserReport.executed)

theorem earns_all : Earns (all e moment) Report.executed := by
  have hlisting : Idle (Rules.usersWithActive Trigger.scheduled) :=
    .of_touches (Rules.reads_usersWithActive _) fun _ => id
  refine .guard (.bind hlisting fun users => ?_)
  refine (Earns.each (fun u _ => earns_userSafely u) fun u _ => succeeds_userSafely u).after ?_
  rintro reports log result ⟨_, _, rfl, rfl, rfl⟩ -
  exact ⟨rfl, _, rfl, rfl⟩

/-! ## The report -/

/-- Where the rules are indexed and nothing was refused, the users are listed. -/
theorem not_unlisted {w : World} {m : String → Option Rule} {log : List Entry} {f : Failure}
    (hindexed : Rules.Indexed w.store m) (ho : w.outages = []) (hw : w.Answers log)
    (hclean : Clean log) : ¬ Unlisted log f := by
  rintro (message | hfail)
  · exact hclean _ List.mem_cons_self _ _ _ message rfl
  · obtain ⟨users, hrun, -⟩ := Rules.run_usersWithActive hindexed ho Trigger.scheduled
    cases (hfail.run_of_clean hw.2 hclean.tail ho).symm.trans hrun

/-- The users that are listed in a world where the rules are indexed are the owners of active rules on
scheduled triggers. -/
theorem Listed.mem_users {users : List String} {scans : List UserScan} {log : List Entry} {w : World}
    {m : String → Option Rule} (h : Listed e moment users scans log)
    (hindexed : Rules.Indexed w.store m) (ho : w.outages = []) (hw : w.Answers log) (u : String) :
    u ∈ users ↔ ∃ r, m r.id = some r ∧ r.isActive = true ∧ r.userId = u
      ∧ r.trigger ∈ Trigger.scheduled := by
  obtain ⟨listing, rfl, hlisting⟩ := h.log
  obtain ⟨users', hrun, -, hmem⟩ := Rules.run_usersWithActive hindexed ho Trigger.scheduled
  have hclean := Rules.strict_usersWithActive _ _ _ hlisting
  have hanswers : w.Answers listing := (World.answers_append.mp hw.2).1
  cases congrArg Prod.fst ((hlisting.run_of_clean hanswers hclean ho).symm.trans hrun)
  exact hmem u

/-- Whatever the store holds and whatever fails, once the users are listed a scan reports: in increasing
order, one result for each of the users that own an active rule on a scheduled trigger, as many as
the settings allow; the result is that of the user's scan, or the one error that it failed with. The report
tells the number of results and the sum over them of the rules that ran, and as long as no count of a
rule is out of reach, this is the number of records of runs that did not fail which the scan kept. -/
theorem reports_all {log : List Entry} {result : Except Failure Report}
    (h : (all e moment).Ends log result) : (∃ f, Unlisted log f ∧ result = .error f)
      ∨ ∃ users scans report, result = .ok report ∧ Listed e moment users scans log
        ∧ users.Pairwise (· < ·)
        ∧ (∀ (w : World) m, Rules.Indexed w.store m → w.outages = [] → w.Answers log → ∀ u,
          u ∈ users ↔ ∃ r, m r.id = some r ∧ r.isActive = true ∧ r.userId = u
            ∧ r.trigger ∈ Trigger.scheduled)
        ∧ report.users = scans.map UserScan.report
        ∧ report.users.map UserReport.userId = users.take e.settings.scanMaxUsers.toNat
        ∧ (∃ f, report.value = .obj f
          ∧ Fields.get? f "users_processed" = some (.int scans.length)
          ∧ Fields.get? f "automations_executed" =
            some (.int (total (scans.map fun x => x.report.executed))))
        ∧ (Unhindered log → report.executed = Entry.earned log) := by
  rcases listed_of_ends h with hunlisted | ⟨users, scans, hlisted, rfl⟩
  · exact .inl hunlisted
  refine .inr ⟨users, scans, _, rfl, hlisted, ?_, ?_, rfl, ?_, ?_, ?_⟩
  · obtain ⟨listing, -, hlisting⟩ := hlisted.log
    exact Rules.sorted_usersWithActive _ listing users hlisting
  · exact fun w m hindexed ho hw => hlisted.mem_users hindexed ho hw
  · rw [← hlisted.scanned, List.map_map]
    exact List.map_congr_left fun x hx => UserScan.userId_report (hlisted.runs x hx)
  · refine ⟨_, rfl, ?_, ?_⟩
    · show some (Value.int ((scans.map UserScan.report).length : Nat)) = _
      rw [List.length_map]
    · show some (Value.int (total ((scans.map UserScan.report).map UserReport.executed) : Nat)) = _
      rw [List.map_map]
      rfl
  · exact fun hfree => (earns_all log _ h hfree).symm

/-- A world where one rule was created, on overdue tasks. -/
def sampleWorld : World :=
  ((Rules.create Engine.overdueRule).run { clock := .ofInstant 0 }).2

theorem sampleWorld_indexed : Rules.Indexed sampleWorld.store
    (Function.update (fun _ => none) "rule_1" (some (Rules.stored Engine.overdueRule))) := by
  refine Rules.create_indexed (w := { clock := .ofInstant 0 }) (Rules.indexed_of_empty rfl) rfl
    ?_ rfl rfl
  exact ⟨by decide, by simp [Engine.overdueRule], by decide, nofun, Rules.shown_start, Rules.shown_start⟩

/-- A scan where one user owns an active rule on overdue tasks reports of this user. -/
theorem reports_all_one : ∃ report, ((all {} (.ofInstant 0)).run sampleWorld).1 = .ok report
    ∧ report.users.map UserReport.userId = ["user_1"]
    ∧ report.executed = Entry.earned ((all {} (.ofInstant 0)).trace sampleWorld) := by
  let p := all {} (.ofInstant 0)
  have ho : sampleWorld.outages = [] := run_outages _ _
  have hw := World.answers_trace p sampleWorld
  have hclean := clean_trace p ho
  rcases reports_all (p.ends_trace sampleWorld) with ⟨f, hunlisted, -⟩ | ⟨users, scans, report, hresult,
    -, hsorted, hmem, -, husers, -, hearned⟩
  · exact absurd hunlisted (not_unlisted sampleWorld_indexed ho hw hclean)
  refine ⟨report, hresult, ?_, hearned hclean.unhindered⟩
  have howner : ∀ u, u ∈ users ↔ u = "user_1" := by
    intro u
    rw [hmem sampleWorld _ sampleWorld_indexed ho hw u]
    constructor
    · rintro ⟨r, hr, -, rfl, -⟩
      rw [Function.update_apply] at hr
      split at hr
      · cases hr
        rfl
      · cases hr
    · rintro rfl
      exact ⟨Rules.stored Engine.overdueRule, rfl, rfl, rfl, by decide⟩
  have hone : users = ["user_1"] := by
    refine List.Perm.eq_singleton (a := "user_1") ?_
    refine (List.perm_ext_iff_of_nodup (hsorted.imp ne_of_lt) (List.nodup_singleton _)).mpr fun u => ?_
    rw [howner, List.mem_singleton]
  rw [husers, hone]
  rfl

end Scan

end TaskAutomation
