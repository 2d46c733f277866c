import Mathlib.Logic.Function.Basic
import TaskAutomation.Proofs.Engine.Careful
import TaskAutomation.Proofs.Program.Run
import TaskAutomation.Proofs.Program.Session

/-!
# The days of scans

* `DayRun` : a rule, a task, a trigger and a day; `DayRun.key` : its text in the store;
* `Session.ran`, `Session.pending` : the days for which the actions of rules were entered, and those
  for which they are entered next;
* `World.days` : what is kept about each day, dead or alive;
* `Orderly e f` : the program under way is careful, or has just taken a day; `Turn e m s s'` : all
  that a call of an orderly scan may do to the days (`turn_of_call`);
* `Scan.step_cases` : all that a step of a session of scans may do.
-/

namespace TaskAutomation

open Check Program

/-- A rule, a task, a trigger and a day. -/
structure DayRun where
  ruleId : String
  taskId : String
  event : Trigger
  date : Date
  deriving DecidableEq, Repr

namespace DayRun

/-- The text that stands for the day in the store. -/
def key (d : DayRun) : String :=
  d.ruleId ++ ":" ++ d.taskId ++ ":" ++ d.event.name ++ ":" ++ Moment.dateText d.date

end DayRun

/-- The day of a rule for a trigger. -/
def Occurrence.dayRun (x : Occurrence) (rule : Rule) : DayRun :=
  ⟨rule.id, x.task.id, x.event, x.occurredAt.date⟩

/-- The day for which the actions of a rule are entered with a call. -/
def Call.dayRun? : Call → Option DayRun
  | .enter o _ (.run rule x) =>
    if o = Engine.operation "_run_actions" then some (x.dayRun rule) else none
  | _ => none

/-- The day for which the actions of a rule were entered. -/
def Entry.dayRun? : Entry → Option DayRun
  | ⟨.enter o argument subject, none⟩ => (Call.enter o argument subject).dayRun?
  | _ => none

/-- The day for which a program enters the actions of a rule next. -/
def Flight.pending? {ι : Type} (f : Flight ι) : Option DayRun :=
  match f.rest with
  | .ask c _ => c.dayRun?
  | _ => none

namespace Session

variable {ι : Type}

/-- The days for which the actions of rules were entered, in order. -/
def ran (s : Session ι) : List DayRun := s.journal.filterMap Entry.dayRun?

/-- The days for which the actions of rules are entered next. -/
def pending (s : Session ι) : List DayRun := s.flights.filterMap Flight.pending?

end Session

theorem Call.dayRun?_of_quiet {c : Call} (h : c.Quiet) : c.dayRun? = none := by
  unfold Call.dayRun?
  split
  · next o _ rule x => exact if_neg h
  · rfl

theorem Entry.dayRun?_of_call {n : Entry} (h : n.call.dayRun? = none) : n.dayRun? = none := by
  unfold Entry.dayRun?
  split
  · exact h
  · rfl

/-! ## Days in the store -/

/-- What is kept about a day, dead or alive. -/
def World.days (w : World) (key : String) : Option Slot := w.store.slots.lookup (.executionDedup key)

theorem World.days_answer_quiet (w : World) {c : Call} (h : c.Quiet) :
    (w.answer c).2.days = w.days := by
  funext key
  cases c with
  | store c => exact Command.lookup_run _ c w.store (h key)
  | _ => rfl

/-- A program of quiet calls leaves what is kept about days as it is. -/
theorem Program.Within.days_run {α : Type} {p : Program α} (h : p.Within Call.Quiet) (w : World) :
    (p.run w).2.days = w.days := by
  induction h generalizing w with
  | done a => rfl
  | fail f => rfl
  | ask hc h ih => exact (ih _ _).trans (w.days_answer_quiet hc)

theorem World.answer_claim_taken {w : World} {e : Engine} {rule : Rule} {x : Occurrence}
    (h : (w.store.find? w.clock.instant (.executionDedup (x.dayKey rule))).isSome = true) :
    w.answer (Engine.claimOf e rule x) = (false, w) := by
  simp only [World.answer, Command.run]
  rw [if_pos h]

theorem World.answer_claim_free {w : World} {e : Engine} {rule : Rule} {x : Occurrence}
    (h : (w.store.find? w.clock.instant (.executionDedup (x.dayKey rule))).isSome = false) :
    (w.answer (Engine.claimOf e rule x)).1 = true
      ∧ (w.answer (Engine.claimOf e rule x)).2.days = Function.update w.days (x.dayKey rule)
        (some ⟨.cell (.text "1"), some (Command.later w.clock.instant e.settings.scanDedupTtl)⟩) := by
  simp only [World.answer, Command.run]
  rw [if_neg (by rw [h]; exact Bool.false_ne_true)]
  refine ⟨rfl, ?_⟩
  funext key
  refine (Store.lookup_put w.store _ (.executionDedup key) _).trans ?_
  by_cases hkey : key = x.dayKey rule
  · rw [if_pos (congrArg Key.executionDedup hkey), hkey, Function.update_self]
  · rw [if_neg (fun heq => hkey (Key.executionDedup.inj heq)), Function.update_of_ne hkey]
    rfl

/-! ## Turns -/

/-- The program is careful, or it has just taken a day and enters the actions next. -/
def Orderly (e : Engine) (f : Flight Moment) : Prop :=
  Careful e f.about.inUtc f.rest ∨ ∃ rule x acts, f.rest = .ask (Engine.entry rule x) acts
    ∧ x.occurredAt = f.about.inUtc ∧ ∀ r, Careful e f.about.inUtc (acts r)

theorem Careful.pending?_eq_none {e : Engine} {m m' : Moment} {p : Program Unit}
    (h : Careful e m' p) : Flight.pending? ⟨m, p⟩ = none := by
  cases h with
  | done a => rfl
  | fail f => rfl
  | ask hc h => exact Call.dayRun?_of_quiet hc
  | claim hx htaken hfree hacts => rfl

/-- What the call of a scan at a moment does to the days: nothing, or it takes one, or the actions
of a rule are entered for one that was taken, or they are out of reach. -/
inductive Turn (e : Engine) (m : Moment) (s s' : Session Moment) : Prop where
  | quiet (hdays : s'.world.days = s.world.days) (hran : s'.ran = s.ran)
    (hpending : s'.pending = s.pending)
  | takes (d : DayRun) (hdate : d.date = m.inUtc.date)
    (hfree : (s.world.store.find? s.world.clock.instant (.executionDedup d.key)).isSome = false)
    (hdays : s'.world.days = Function.update s.world.days d.key (some ⟨.cell (.text "1"),
      some (Command.later s.world.clock.instant e.settings.scanDedupTtl)⟩))
    (hran : s'.ran = s.ran) (hpending : s'.pending.Perm (d :: s.pending))
  | enters (d : DayRun) (hdays : s'.world.days = s.world.days) (hran : s'.ran = s.ran ++ [d])
    (hpending : s.pending.Perm (d :: s'.pending))
  | refused (d : DayRun) (houtages : s.world.outages ≠ []) (hdays : s'.world.days = s.world.days)
    (hran : s'.ran = s.ran) (hpending : s.pending.Perm (d :: s'.pending))

theorem ran_append {n : Entry} (journal : List Entry) :
    (journal ++ [n]).filterMap Entry.dayRun? = journal.filterMap Entry.dayRun? ++ n.dayRun?.toList := by
  rw [List.filterMap_append]
  cases h : n.dayRun? <;> simp [h]

theorem ran_append_of_none {n : Entry} (journal : List Entry) (h : n.dayRun? = none) :
    (journal ++ [n]).filterMap Entry.dayRun? = journal.filterMap Entry.dayRun? := by
  rw [ran_append, h]
  exact List.append_nil _

theorem pending_split {f : Flight Moment} (before after : List (Flight Moment)) :
    (before ++ f :: after).filterMap Flight.pending? =
      before.filterMap Flight.pending? ++ (f.pending?.toList ++ after.filterMap Flight.pending?) := by
  rw [List.filterMap_append]
  cases h : f.pending? <;> simp [h]

/-- The call of an orderly scan is one of these turns, and the scan stays orderly. -/
theorem turn_of_call {e : Engine} {s : Session Moment} {before after : List (Flight Moment)}
    {m : Moment} {c : Call} {next : c.Reply → Program Unit}
    (hflights : s.flights = before ++ ⟨m, .ask c next⟩ :: after)
    (horderly : Orderly e ⟨m, .ask c next⟩) :
    Orderly e ⟨m, next (s.world.answer c).1⟩ ∧
      Turn e m s ⟨(s.world.answer c).2, before ++ ⟨m, next (s.world.answer c).1⟩ :: after,
        s.journal ++ [⟨c, (s.world.answer c).1⟩]⟩ := by
  have hpending := congrArg (List.filterMap Flight.pending?) hflights
  rw [pending_split] at hpending
  rcases horderly with hcareful | ⟨rule, x, acts, hrest, hx, hacts⟩
  -- a careful program has no day pending before its call, and one after it only if it took that day
  · have hidle := hcareful.pending?_eq_none (m := m)
    rw [hidle] at hpending
    cases hcareful with
    | ask hc hnext =>
      have hnew := (hnext (s.world.answer c).1).pending?_eq_none (m := m)
      refine ⟨.inl (hnext _), .quiet (s.world.days_answer_quiet hc) ?_ ?_⟩
      · exact ran_append_of_none _ (Entry.dayRun?_of_call (Call.dayRun?_of_quiet hc))
      · unfold Session.pending
        rw [hpending, pending_split, hnew]
    | @claim rule x _ acts hx htaken hfree hacts =>
      have hran : ∀ r : Bool, Entry.dayRun? ⟨Engine.claimOf e rule x, r⟩ = none :=
        fun r => Entry.dayRun?_of_call rfl
      cases hslot : (s.world.store.find? s.world.clock.instant
        (.executionDedup (x.dayKey rule))).isSome with
      | true =>
        rw [World.answer_claim_taken hslot]
        refine ⟨.inl htaken, .quiet rfl ?_ ?_⟩
        · exact ran_append_of_none _ (hran _)
        · unfold Session.pending
          rw [hpending, pending_split, htaken.pending?_eq_none]
      | false =>
        obtain ⟨hyes, hdays⟩ := World.answer_claim_free (e := e) hslot
        rw [hyes, hfree]
        refine ⟨.inr ⟨rule, x, acts, rfl, hx, hacts⟩, .takes (x.dayRun rule) ?_ hslot hdays ?_ ?_⟩
        · exact congrArg Moment.date hx
        · exact ran_append_of_none _ (hran _)
        · unfold Session.pending
          rw [hpending, pending_split]
          exact List.perm_middle
  -- the day that is pending is used with this call, or lost if the actions are out of reach
  · cases hrest
    have hdays : (s.world.answer (Engine.entry rule x)).2.days = s.world.days := rfl
    have hnew := (hacts (s.world.answer (Engine.entry rule x)).1).pending?_eq_none (m := m)
    have hgone : s.pending.Perm (x.dayRun rule ::
        (before ++ ⟨m, acts (s.world.answer (Engine.entry rule x)).1⟩ :: after).filterMap
          Flight.pending?) := by
      unfold Session.pending
      rw [hpending, pending_split, hnew]
      exact List.perm_middle
    refine ⟨.inl (hacts _), ?_⟩
    cases hanswer : (s.world.answer (Engine.entry rule x)).1 with
    | none =>
      rw [hanswer] at hgone
      refine .enters (x.dayRun rule) hdays ?_ hgone
      unfold Session.ran
      rw [ran_append]
      rfl
    | some message =>
      rw [hanswer] at hgone
      refine .refused (x.dayRun rule) ?_ hdays ?_ hgone
      · intro hnone
        unfold World.answer at hanswer
        rw [hnone] at hanswer
        cases hanswer
      · exact ran_append_of_none _ rfl

/-! ## Sessions of scans -/

namespace Scan

/-- A scan of a user or of all users, at its moment. -/
def IsScan (e : Engine) (f : Flight Moment) : Prop :=
  (∃ userId, f.rest = do let _ ← user e userId f.about) ∨ f.rest = do let _ ← all e f.about

/-- A scan is careful as it starts. -/
theorem IsScan.careful {e : Engine} {f : Flight Moment} (h : IsScan e f)
    (hdedup : e.settings.scanDedup = true) : Careful e f.about.inUtc f.rest := by
  rcases h with ⟨userId, h⟩ | h
  · rw [h]
    exact .bind (careful_user hdedup userId) fun _ => .done _
  · rw [h]
    exact .bind (careful_all hdedup) fun _ => .done _

/-- A step of a session of careful programs: a turn of one of them, or a step that uses no day, in
which one starts or others change the world. All of them stay orderly. -/
theorem step_cases {e : Engine} {d : Discipline Moment} {s s' : Session Moment}
    (hstarts : ∀ w f, d.starts w f → Careful e f.about.inUtc f.rest)
    (horderly : ∀ f ∈ s.flights, Orderly e f) (hstep : Session.Step d s s') :
    (∀ f ∈ s'.flights, Orderly e f) ∧
      ((∃ m, d.moves s.world m ∧ Turn e m s s' ∧ s'.world.clock = s.world.clock
          ∧ s'.world.outages = s.world.outages)
        ∨ (s'.ran = s.ran ∧ s'.pending = s.pending
          ∧ (s'.world = s.world ∨ d.others s.world s'.world))) := by
  cases hstep with
  | @start f hf =>
    have hcareful := hstarts _ f hf
    refine ⟨fun g hg => ?_, .inr ⟨rfl, ?_, .inl rfl⟩⟩
    · rcases List.mem_append.mp hg with hold | hnew
      · exact horderly g hold
      · rw [List.mem_singleton.mp hnew]
        exact .inl hcareful
    · show (s.flights ++ [f]).filterMap Flight.pending? = _
      rw [pending_split s.flights [], hcareful.pending?_eq_none]
      exact List.append_nil _
  | @call before after m c next hflights hm =>
    have hmem : ⟨m, .ask c next⟩ ∈ s.flights := by
      rw [hflights]
      exact List.mem_append_right before List.mem_cons_self
    obtain ⟨hnew, hturn⟩ := turn_of_call hflights (horderly _ hmem)
    refine ⟨fun g hg => ?_, .inl ⟨m, hm, hturn, World.answer_clock _ c, World.answer_outages _ c⟩⟩
    rcases List.mem_append.mp hg with hbefore | hrest
    · exact horderly g (hflights ▸ List.mem_append_left _ hbefore)
    · rcases List.mem_cons.mp hrest with rfl | hafter
      · exact hnew
      · exact horderly g (hflights ▸ List.mem_append_right _ (List.mem_cons_of_mem _ hafter))
  | others hw => exact ⟨horderly, .inr ⟨rfl, rfl, .inr hw⟩⟩

end Scan

end TaskAutomation
