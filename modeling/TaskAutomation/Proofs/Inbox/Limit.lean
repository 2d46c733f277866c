import TaskAutomation.Proofs.Inbox.Minute
import TaskAutomation.Proofs.Program.Frame
import TaskAutomation.Proofs.Program.Log

/-!
# The limit of notifications over runs

* `Inbox.Post` : a call that notifies a user; `Inbox.deliver` : what it does within the limit;
* `Inbox.Counted s k finish n` : a count of calls under a key, kept to an instant at least;
  `Inbox.run_allows` : one more call in its minute, and no other count has changed;
* `Inbox.Turn` : a call with its time and what came of it; `Inbox.Course s turns w` : calls one after
  another at times that do not go back, with anything but their counts changing in between;
* `Inbox.Sound` : in the current minute and all later ones each user's calls are counted;
  `Inbox.Sound.notify` : so after one more call, which is answered by its count;
* `Inbox.limit_exact` : a call is answered by the earlier calls for its user in its minute, and of
  these the first ones arrive, up to the limit.
-/

namespace TaskAutomation

/-- The inbox that a call puts something into. -/
def Call.arrival? : Call → Option String
  | .store (.push (.inbox userId) _) => some userId
  | _ => none

namespace Inbox

open Check Program

/-! ## A call -/

/-- A call that notifies a user. -/
structure Post where
  userId : String
  title : String
  message : String
  taskId : Option String := none
  url : Option String := none

/-- The call as a program. -/
def Post.program (s : Settings) (p : Post) : Program Bool :=
  notify s (.str p.userId) (.str p.title) (.str p.message) p.taskId (.ofText? p.url)

/-- The fields that a call puts into the inbox. -/
def Post.fields (p : Post) (id : String) : Fields :=
  notificationFields id (.str p.userId) (.str p.title) (.str p.message) p.taskId (.ofText? p.url)

/-- What a call within the limit does. -/
def deliver (s : Settings) (p : Post) : Program Bool := do
  let id := "notify_" ++ Moment.digits 12 (← fresh .notification)
  let n ← ofChecked "Notification" (Notification.check (← setting) (.obj (p.fields id)))
  store (.push (.inbox p.userId) (.ofDocument n.fields))
  store (.trim (.inbox p.userId) (s.inboxSize - 1))
  count (.notification true)
  return true

/-- What a call over the limit does. -/
def refuse : Program Bool := do
  count (.notification false)
  return false

theorem program_eq (s : Settings) (p : Post) :
    p.program s = (operation "notify").guard (some (.str p.userId)) (do
      let allowed ← allows p.userId s.notificationsPerMinute
      if allowed then deliver s p else refuse) := rfl

/-- The notification of a call, under an id and at a moment. -/
def Post.note (p : Post) (id : String) (now : Moment) : Notification where
  id := id
  userId := p.userId
  title := p.title
  message := p.message
  type := "automation"
  relatedTaskId := p.taskId
  actionUrl := p.url
  read := false
  createdAt := now

/-- The notification of a call passes its check. -/
theorem check_fields (s : Setting) (p : Post) (id : String) :
    Notification.check s (.obj (p.fields id)) = .ok (p.note id s.now) := by
  obtain ⟨userId, title, message, taskId, url⟩ := p
  cases taskId <;> cases url <;> rfl

/-! ## What arrives -/

/-- The users whose inboxes something was put into, in order. -/
def arrivals (log : List Entry) : List String := log.filterMap fun n => n.call.arrival?

theorem arrivals_append (log more : List Entry) :
    arrivals (log ++ more) = arrivals log ++ arrivals more := List.filterMap_append

theorem arrivals_of_allows {userId : String} {limit : Int} {log : List Entry}
    {result : Except Failure Bool} (h : (allows userId limit).Ends log result) :
    arrivals log = [] := by
  have hwithin : (allows userId limit).Within fun c => c.arrival? = none := by
    refine .bind (.call rfl) fun now => .bind (.store rfl) fun n => ?_
    dsimp only
    split
    · exact .bind (.store rfl) fun _ => .done _
    · exact .done _
  exact List.filterMap_eq_nil_iff.mpr (h.within hwithin)

theorem arrivals_of_deliver {s : Settings} {p : Post} {log : List Entry}
    {result : Except Failure Bool} (h : (deliver s p).Ends log result) :
    arrivals log = [p.userId] ∧ result = .ok true := by
  obtain ⟨n, rest, rfl, h⟩ := h
  obtain ⟨now, rest, rfl, h⟩ := h
  change (ofChecked "Notification" (Notification.check { now } (.obj (p.fields _))) >>= _).Ends rest result at h
  rw [check_fields] at h
  obtain ⟨_, rest, rfl, _, rest, rfl, _, rest, rfl, rfl, rfl⟩ := h
  exact ⟨rfl, rfl⟩

theorem arrivals_of_refuse {log : List Entry} {result : Except Failure Bool}
    (h : refuse.Ends log result) : arrivals log = [] ∧ result = .ok false := by
  obtain ⟨_, rest, rfl, rfl, rfl⟩ := h
  exact ⟨rfl, rfl⟩

/-- A call puts something into the inbox of its user, once, if it is answered so. -/
theorem arrivals_of_program {s : Settings} {p : Post} {log : List Entry} {b : Bool}
    (h : (p.program s).Ends log (.ok b)) : arrivals log = if b then [p.userId] else [] := by
  rw [program_eq] at h
  rcases Ends.of_guarded h with ⟨message, -, hfail⟩ | ⟨rest, rfl, hbody⟩
  · cases hfail
  · rcases Ends.of_bind hbody with ⟨f, -, hf⟩ | ⟨before, after, allowed, rfl, hallows, hrest⟩
    · cases hf
    · show arrivals (before ++ after) = _
      rw [arrivals_append, arrivals_of_allows hallows, List.nil_append]
      cases allowed with
      | true =>
        obtain ⟨harrivals, hb⟩ := arrivals_of_deliver hrest
        cases hb
        exact harrivals
      | false =>
        obtain ⟨harrivals, hb⟩ := arrivals_of_refuse hrest
        cases hb
        exact harrivals

/-! ## Counts -/

/-- A count under a key, which is kept to an instant at least; nothing has been counted where there
is nothing. -/
def Counted (s : Store) (k : Key) (finish : Int) : Nat → Prop
  | 0 => s.slots.lookup k = none
  | n + 1 => ∃ ends, s.slots.lookup k = some ⟨.cell (.count (n + 1)), some ends⟩ ∧ finish ≤ ends

theorem Counted.of_lookup_eq {s s' : Store} {k : Key} {finish : Int} {n : Nat}
    (h : Counted s k finish n) (heq : s'.slots.lookup k = s.slots.lookup k) :
    Counted s' k finish n := by
  cases n with
  | zero => exact heq.trans h
  | succ n =>
    obtain ⟨ends, hlookup, hfinish⟩ := h
    exact ⟨ends, heq.trans hlookup, hfinish⟩

/-- The key under which the calls for a user are counted in the minute of a moment. -/
abbrev rateKey (userId : String) (m : Moment) : Key := .notifyRate userId (minute m)

variable {w : World} {userId : String} {finish : Int} {n : Nat}

/-- What a count becomes by one more call, as long as it is kept. -/
theorem Counted.increment {s : Store} {k : Key} {now : Int} (h : Counted s k finish n)
    (hnow : now ≤ finish) : ((Command.increment k).run now s).1 = (n : Int) + 1 ∧
      ((Command.increment k).run now s).2.slots.lookup k =
        some ⟨.cell (.count (n + 1)), (s.slots.lookup k).bind Slot.ends⟩ := by
  have hslot : s.slot? now k = s.slots.lookup k := by
    unfold Store.slot?
    cases n with
    | zero => rw [show s.slots.lookup k = none from h, Option.filter_none]
    | succ n =>
      obtain ⟨ends, hlookup, hfinish⟩ := h
      exact hlookup ▸ if_pos (decide_eq_true (hnow.trans hfinish))
  have hcount : Command.countOf (s.cell? now k) = n := by
    unfold Store.cell? Store.find?
    rw [hslot]
    cases n with
    | zero =>
      rw [show s.slots.lookup k = none from h]
      rfl
    | succ n =>
      obtain ⟨ends, hlookup, -⟩ := h
      rw [hlookup]
      rfl
  refine ⟨congrArg (· + 1) hcount, ?_⟩
  show (s.keep now k (.cell (.count (Command.countOf (s.cell? now k) + 1)))).slots.lookup k = _
  rw [Store.lookup_keep, if_pos rfl, hslot, hcount]
  rfl

/-- A call is counted in its minute, and is within the limit if its number is. -/
theorem run_allows (limit : Int) (h : Counted w.store (rateKey userId w.clock) finish n)
    (hstart : w.clock.instant ≤ finish)
    (hfinish : finish ≤ Command.later w.clock.instant 120) :
    ∃ w', (allows userId limit).run w = (.ok (decide ((n : Int) + 1 ≤ limit)), w')
      ∧ Counted w'.store (rateKey userId w.clock) finish (n + 1)
      ∧ ∀ k, k ≠ rateKey userId w.clock → w'.store.slots.lookup k = w.store.slots.lookup k := by
  obtain ⟨hcount, hlookup⟩ := h.increment hstart
  let w₁ := w.after (.increment (rateKey userId w.clock))
  have hbeside : ∀ k, k ≠ rateKey userId w.clock →
      w₁.store.slots.lookup k = w.store.slots.lookup k := fun k hk =>
    w.lookup_after (c := .increment _) fun heq => hk (Option.some.inj heq).symm
  have hincrement : (store (.increment (rateKey userId w.clock))).run w =
      (.ok ((n : Int) + 1), w₁) := by
    rw [run_store, hcount]
  unfold allows
  rw [run_bind_ok (run_now w)]
  dsimp only
  rw [run_bind_ok hincrement]
  cases n with
  | zero =>
    -- the first call of a minute starts the time for which its count is kept
    have hslot : w₁.store.find? w.clock.instant (rateKey userId w.clock) =
        some (.cell (.count 1)) := by
      unfold Store.find? Store.slot?
      rw [show w₁.store.slots.lookup (rateKey userId w.clock) = _ from hlookup,
        show w.store.slots.lookup (rateKey userId w.clock) = none from h]
      rfl
    let w₂ := w₁.after (.expire (rateKey userId w.clock) 120)
    have hexpire : w₂.store = w₁.store.put (rateKey userId w.clock)
        ⟨.cell (.count 1), some (Command.later w.clock.instant 120)⟩ := by
      show ((Command.expire (rateKey userId w.clock) 120).run w.clock.instant w₁.store).2 = _
      simp only [Command.run, hslot]
    refine ⟨w₂, rfl, ⟨_, ?_, hfinish⟩, fun k hk => ?_⟩
    · rw [hexpire, Store.lookup_put, if_pos rfl]
      rfl
    · rw [hexpire, Store.lookup_put, if_neg hk, hbeside k hk]
  | succ n =>
    obtain ⟨ends, hends, hlast⟩ := h
    refine ⟨w₁, ?_, ⟨ends, ?_, hlast⟩, hbeside⟩
    · rw [if_neg (by omega)]
      rfl
    · rw [hends] at hlookup
      exact hlookup

/-- The instant at which the minute of a moment ends. -/
def endOfMinute (m : Moment) : Int := (m.minutes + 1) * (60 * Moment.second)

/-- A call is answered by its number in its minute, and counted. -/
theorem run_program {s : Settings} (p : Post) (ho : w.outages = [])
    (h : Counted w.store (rateKey p.userId w.clock) finish n) (hstart : w.clock.instant ≤ finish)
    (hfinish : finish ≤ Command.later w.clock.instant 120) :
    ∃ w', (p.program s).run w = (.ok (decide ((n : Int) + 1 ≤ s.notificationsPerMinute)), w')
      ∧ Counted w'.store (rateKey p.userId w.clock) finish (n + 1)
      ∧ ∀ userId m, rateKey userId m ≠ rateKey p.userId w.clock →
        w'.store.slots.lookup (rateKey userId m) = w.store.slots.lookup (rateKey userId m) := by
  obtain ⟨w₁, hallows, hcounted, hbeside⟩ := run_allows s.notificationsPerMinute h hstart hfinish
  -- what follows the count writes to the inbox only
  have hrest : ∀ b : Bool, ∃ w', (if b then deliver s p else refuse).run w₁ = (.ok b, w')
      ∧ ∀ userId m, w'.store.slots.lookup (rateKey userId m) =
        w₁.store.slots.lookup (rateKey userId m) := by
    intro b
    have hwithin : (if b then deliver s p else refuse).Within
        (Call.Touches fun k => k = .inbox p.userId) := by
      cases b with
      | true =>
        refine .bind (.call trivial) fun _ => .bind (.setting trivial) fun _ => .bind (.ofChecked _ _) fun _ => ?_
        refine .bind (.store ?_) fun _ => .bind (.store ?_) fun _ => .bind (.call trivial) fun _ => .done _
        · rintro k ⟨⟩
          rfl
        · rintro k ⟨⟩
          rfl
      | false => exact .bind (.call trivial) fun _ => .done _
    have hanswer : ((if b then deliver s p else refuse).run w₁).1 = .ok b := by
      cases b with
      | true => exact (arrivals_of_deliver ((deliver s p).ends_trace w₁)).2
      | false => rfl
    refine ⟨_, Prod.ext hanswer rfl, fun userId m => hwithin.lookup_run ?_ w₁⟩
    rintro ⟨⟩
  obtain ⟨w', hrun, hrates⟩ := hrest (decide ((n : Int) + 1 ≤ s.notificationsPerMinute))
  refine ⟨w', ?_, hcounted.of_lookup_eq (hrates _ _), fun userId m hne => ?_⟩
  · rw [program_eq, Operation.run_guard ho, run_bind_ok hallows, hrun]
  · rw [hrates, hbeside _ hne]

/-! ## Courses of calls -/

/-- A call with its time, its answer, and what it did. -/
structure Turn where
  post : Post
  time : Moment
  answer : Except Failure Bool
  log : List Entry

/-- The call as it goes in a world. -/
def Post.turn (s : Settings) (p : Post) (w : World) : Turn :=
  ⟨p, w.clock, ((p.program s).run w).1, (p.program s).trace w⟩

@[simp] theorem turn_post (s : Settings) (p : Post) (w : World) : (p.turn s w).post = p := rfl

@[simp] theorem turn_time (s : Settings) (p : Post) (w : World) : (p.turn s w).time = w.clock := rfl

/-- Nothing is out of reach, and the clock is that of UTC. -/
structure Serving (w : World) : Prop where
  reach : w.outages = []
  utc : w.clock.offset = some 0
  shown : w.clock.Shown

/-- Calls one after another, in a world where nothing was counted at first. In between anything may
change but the counts, and the clock is never set back. -/
inductive Course (s : Settings) : List Turn → World → Prop where
  | start {w : World} (hw : Serving w)
      (hrates : ∀ userId minute, w.store.slots.lookup (.notifyRate userId minute) = none) :
      Course s [] w
  | notify {turns : List Turn} {w : World} (h : Course s turns w) (p : Post) :
      Course s (turns ++ [p.turn s w]) ((p.program s).run w).2
  | others {turns : List Turn} {w w' : World} (h : Course s turns w) (hw : Serving w')
      (hrates : ∀ userId minute, w'.store.slots.lookup (.notifyRate userId minute) =
        w.store.slots.lookup (.notifyRate userId minute))
      (hclock : w.clock.instant ≤ w'.clock.instant) : Course s turns w'

/-- The calls for a user. -/
def own (userId : String) (turns : List Turn) : List Turn := turns.filter (·.post.userId = userId)

/-- The minutes of some calls. -/
def minutesOf (turns : List Turn) : List Int := turns.map (·.time.minutes)

/-- How many calls for a user there were in a minute. -/
def calls (turns : List Turn) (userId : String) (q : Int) : Nat := (minutesOf (own userId turns)).count q

theorem own_snoc (turns : List Turn) (t : Turn) (userId : String) :
    own userId (turns ++ [t]) = own userId turns ++ if t.post.userId = userId then [t] else [] := by
  unfold own
  rw [List.filter_append, List.filter_singleton]
  simp

theorem calls_snoc (turns : List Turn) (t : Turn) (userId : String) (q : Int) :
    calls (turns ++ [t]) userId q = calls turns userId q +
      if t.post.userId = userId ∧ t.time.minutes = q then 1 else 0 := by
  unfold calls minutesOf
  rw [own_snoc, List.map_append, List.count_append]
  by_cases huser : t.post.userId = userId
  · simp [huser, List.count_singleton]
  · simp [huser]

/-- In the current minute and all later ones the calls for every user are counted. -/
structure Sound (turns : List Turn) (w : World) : Prop where
  serving : Serving w
  counted : ∀ userId (m : Moment), m.Shown → w.clock.minutes ≤ m.minutes →
    Counted w.store (rateKey userId m) (endOfMinute m) (calls turns userId m.minutes)

theorem Serving.instant_eq (h : Serving w) : w.clock.instant = w.clock.wall := by
  unfold Moment.instant
  rw [h.utc, Option.getD_some]
  omega

theorem Serving.stamped (h : Serving w) : w.clock.Stamped := by
  refine ⟨h.shown, fun o ho => ?_⟩
  cases h.utc.symm.trans ho
  rfl

/-- A run changes neither the clock nor what is out of reach. -/
theorem Serving.run {α : Type} (h : Serving w) (p : Program α) : Serving (p.run w).2 where
  reach := (run_outages p w).trans h.reach
  utc := (run_clock p w).symm ▸ h.utc
  shown := (run_clock p w).symm ▸ h.shown

/-- The counts are right again after one more call, which is answered by the count before it. -/
theorem Sound.notify {s : Settings} {turns : List Turn} (h : Sound turns w) (p : Post) :
    (p.turn s w).answer =
        .ok (decide (calls turns p.userId w.clock.minutes < s.notificationsPerMinute.toNat))
      ∧ Sound (turns ++ [p.turn s w]) ((p.program s).run w).2 := by
  have hinstant := h.serving.instant_eq
  have hstart : w.clock.instant ≤ endOfMinute w.clock := by
    unfold endOfMinute Moment.minutes Moment.second
    omega
  have hfinish : endOfMinute w.clock ≤ Command.later w.clock.instant 120 := by
    unfold endOfMinute Command.later Moment.minutes Moment.second
    omega
  have hclock := run_clock (p.program s) w
  have hserving := h.serving.run (p.program s)
  obtain ⟨w', hrun, hcounted, hbeside⟩ := run_program p h.serving.reach
    (h.counted p.userId w.clock h.serving.shown (Int.le_refl _)) hstart hfinish (s := s)
  constructor
  · show ((p.program s).run w).1 = _
    rw [hrun]
    exact congrArg Except.ok (decide_eq_decide.mpr (by omega))
  · rw [hrun] at hclock hserving ⊢
    dsimp only at hclock ⊢
    refine ⟨hserving, fun userId m hm hle => ?_⟩
    rw [hclock] at hle
    rw [calls_snoc, turn_post, turn_time]
    have hminute := minute_eq_iff h.serving.shown hm
    by_cases hkey : p.userId = userId ∧ w.clock.minutes = m.minutes
    · obtain ⟨rfl, hq⟩ := hkey
      rw [if_pos ⟨rfl, hq⟩, ← hq]
      unfold endOfMinute at hcounted ⊢
      rw [rateKey, ← hminute.mpr hq, ← hq]
      exact hcounted
    · rw [if_neg hkey]
      refine (h.counted userId m hm hle).of_lookup_eq (hbeside userId m fun heq => hkey ?_)
      obtain ⟨huser, htext⟩ := Key.notifyRate.inj heq
      exact ⟨huser.symm, hminute.mp htext.symm⟩

theorem Course.sound {s : Settings} {turns : List Turn} (h : Course s turns w) : Sound turns w := by
  induction h with
  | start hw hrates => exact ⟨hw, fun userId m _ _ => hrates userId (minute m)⟩
  | notify h p ih => exact (ih.notify p).2
  | @others turns w w' h hw hrates hclock ih =>
    refine ⟨hw, fun userId m hm hle => ?_⟩
    have hlater : w.clock.minutes ≤ w'.clock.minutes := by
      rw [ih.serving.instant_eq, hw.instant_eq] at hclock
      unfold Moment.minutes Moment.second
      omega
    exact (ih.counted userId m hm (hlater.trans hle)).of_lookup_eq (hrates userId (minute m))

/-- What one more call puts into an inbox. -/
theorem Sound.arrivals {s : Settings} {turns : List Turn} (h : Sound turns w) (p : Post) :
    arrivals (p.turn s w).log =
      if calls turns p.userId w.clock.minutes < s.notificationsPerMinute.toNat then [p.userId]
      else [] := by
  have hends := (p.program s).ends_trace w
  rw [show ((p.program s).run w).1 = _ from (h.notify p).1] at hends
  exact (arrivals_of_program hends).trans (by simp only [decide_eq_true_eq])

/-! ## The limit -/

/-- Which calls at some minutes are among the first ones of their minute, given earlier ones. -/
def verdicts (most : Nat) (earlier : List Int) : List Int → List Bool
  | [] => []
  | q :: rest => decide (earlier.count q < most) :: verdicts most (earlier ++ [q]) rest

theorem verdicts_snoc (most : Nat) (earlier qs : List Int) (q : Int) :
    verdicts most earlier (qs ++ [q]) =
      verdicts most earlier qs ++ [decide ((earlier ++ qs).count q < most)] := by
  induction qs generalizing earlier with
  | nil => simp [verdicts]
  | cons q' rest ih =>
    rw [List.cons_append, verdicts, ih, verdicts, List.cons_append, List.append_assoc]
    rfl

/-- How many notifications were put into the inbox of a user in a minute. -/
def arrived (turns : List Turn) (userId : String) (q : Int) : Nat :=
  (turns.flatMap fun t => if t.time.minutes = q then arrivals t.log else []).count userId

/-- A call is answered as one of the first of its minute or not. -/
theorem answers_eq {s : Settings} {turns : List Turn} (h : Course s turns w) (userId : String) :
    (own userId turns).map Turn.answer =
      (verdicts s.notificationsPerMinute.toNat [] (minutesOf (own userId turns))).map .ok := by
  induction h with
  | start hw hrates => rfl
  | others h hw hrates hclock ih => exact ih
  | @notify turns w h p ih =>
    rw [own_snoc, turn_post]
    by_cases huser : p.userId = userId
    · subst huser
      have hminutes : minutesOf (own p.userId turns ++ [p.turn s w]) =
          minutesOf (own p.userId turns) ++ [w.clock.minutes] := List.map_append
      rw [if_pos rfl, hminutes, verdicts_snoc, List.map_append, List.map_append, ih,
        List.map_singleton, List.map_singleton, (h.sound.notify p).1]
      rfl
    · rw [if_neg huser, List.append_nil]
      exact ih

/-- A call that is answered so, and no other, puts something into the inbox of its user. -/
theorem arrivals_of_course {s : Settings} {turns : List Turn} (h : Course s turns w) {t : Turn}
    (ht : t ∈ turns) : ∃ b, t.answer = .ok b ∧ arrivals t.log = if b then [t.post.userId] else [] := by
  induction h with
  | start hw hrates => cases ht
  | others h hw hrates hclock ih => exact ih ht
  | @notify turns w h p ih =>
    rcases List.mem_append.mp ht with ht | ht
    · exact ih ht
    · cases List.mem_singleton.mp ht
      refine ⟨_, (h.sound.notify p).1, (h.sound.arrivals p).trans ?_⟩
      simp only [decide_eq_true_eq, turn_post]

/-- In each minute as many notifications arrive as there are calls, up to the limit. -/
theorem arrived_eq {s : Settings} {turns : List Turn} (h : Course s turns w) (userId : String)
    (q : Int) : arrived turns userId q =
      min s.notificationsPerMinute.toNat (calls turns userId q) := by
  induction h with
  | start hw hrates => exact (Nat.min_zero _).symm
  | others h hw hrates hclock ih => exact ih
  | @notify turns w h p ih =>
    have hsnoc : arrived (turns ++ [p.turn s w]) userId q = arrived turns userId q +
        (if w.clock.minutes = q then arrivals (p.turn s w).log else []).count userId := by
      unfold arrived
      rw [List.flatMap_append, List.count_append, List.flatMap_singleton, turn_time]
    rw [hsnoc, calls_snoc, ih, turn_post, turn_time]
    by_cases hq : w.clock.minutes = q
    · subst hq
      by_cases huser : p.userId = userId
      · subst huser
        rw [if_pos rfl, if_pos ⟨rfl, rfl⟩, h.sound.arrivals p]
        split
        · rw [List.count_singleton_self]
          omega
        · rw [List.count_nil]
          omega
      · rw [if_pos rfl, if_neg fun hboth => huser hboth.1, h.sound.arrivals p]
        split
        · rw [List.count_singleton, beq_false_of_ne huser]
          rfl
        · rfl
    · rw [if_neg hq, if_neg fun hboth => hq hboth.2]
      rfl

/-- In each minute the first calls for a user arrive, up to the limit, and no others; the calls for other
users make no difference. -/
theorem limit_exact {s : Settings} {turns : List Turn} (h : Course s turns w) (userId : String) :
    (own userId turns).map Turn.answer =
        (verdicts s.notificationsPerMinute.toNat [] (minutesOf (own userId turns))).map .ok
      ∧ (∀ t ∈ turns, ∃ b, t.answer = .ok b
        ∧ arrivals t.log = if b then [t.post.userId] else [])
      ∧ (∀ q, arrived turns userId q =
        min s.notificationsPerMinute.toNat (calls turns userId q))
      ∧ ∀ turns' w', Course s turns' w' →
        minutesOf (own userId turns') = minutesOf (own userId turns) →
          (own userId turns').map Turn.answer = (own userId turns).map Turn.answer
            ∧ ∀ q, arrived turns' userId q = arrived turns userId q := by
  refine ⟨answers_eq h userId, fun t ht => arrivals_of_course h ht, arrived_eq h userId,
    fun turns' w' h' hminutes => ⟨?_, fun q => ?_⟩⟩
  · rw [answers_eq h' userId, answers_eq h userId, hminutes]
  · rw [arrived_eq h' userId q, arrived_eq h userId q]
    unfold calls
    rw [hminutes]

/-- With a limit of one the second call of a minute is answered with no, whatever arrives elsewhere in
between. -/
theorem limit_exact_one : ∃ turns w, Course { notificationsPerMinute := 1 } turns w
    ∧ turns.map (fun t => t.post.userId) = ["user_1", "user_2", "user_1"]
    ∧ (own "user_1" turns).map Turn.answer = [.ok true, .ok false] := by
  let s : Settings := { notificationsPerMinute := 1 }
  let w : World := { clock := .ofInstant 0 }
  have hw : Serving w := ⟨rfl, rfl, by decide, by rintro o ⟨⟩; decide⟩
  have hcourse := (((Course.start (s := s) hw fun _ _ => rfl).notify ⟨"user_1", "", "", none, none⟩).notify
    ⟨"user_2", "", "", none, none⟩).notify ⟨"user_1", "", "", none, none⟩
  refine ⟨_, _, hcourse, rfl, ?_⟩
  rw [(limit_exact hcourse "user_1").1]
  simp [minutesOf, own, run_clock, verdicts, s]

end Inbox
end TaskAutomation
