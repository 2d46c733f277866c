import TaskAutomation.Action.Telling
import TaskAutomation.Proofs.Inbox.Limit
import TaskAutomation.Proofs.Notice
import TaskAutomation.Proofs.Store.Lists

/-!
# What a notification changes

A notification is put in front of the inbox of its user if the user is within the limit of the minute, and
is counted there; all else in the store stays as it is.

* `Inbox.admits s w user` : one more notification is within the limit of the minute;
* `Inbox.Gained s user taskId w w'` : there is a new notification about a task in front of an inbox;
* `Inbox.Delivered s users taskId w w'` : the inboxes of some users, as far as they are within the limit,
  have each gained one, and nothing else has changed but counts; `Inbox.delivered_notify`,
  `Inbox.delivered_tell` : so it is with one notification, and with one to each of some users.
-/

namespace TaskAutomation.Inbox

open Check Program

variable {s : Settings} {user : String} {taskId : Option String} {w w' : World}

/-- One more notification for the user is within the limit of the minute. -/
def admits (s : Settings) (w : World) (user : String) : Bool :=
  decide (Command.countOf (w.store.cell? w.clock.instant (rateKey user w.clock)) + 1
    ≤ s.notificationsPerMinute)

/-- There is a new notification about the task in front of the inbox, which is cut. -/
def Gained (s : Settings) (user : String) (taskId : Option String) (w w' : World) : Prop :=
  ∃ n : Notification, n.userId = user ∧ n.relatedTaskId = taskId ∧
    w'.store.list w.clock.instant (.inbox user) =
      (Cell.ofDocument n.fields :: w.store.list w.clock.instant (.inbox user)).take s.inboxSize.toNat

/-- A key under which there is the same as before. -/
def Same (w w' : World) (k : Key) : Prop := w'.store.slots.lookup k = w.store.slots.lookup k

/-- The users within the limit have each got one notification about the task, and nothing else has changed
but the counts of all of them. -/
structure Delivered (s : Settings) (users : List String) (taskId : Option String) (w w' : World) : Prop where
  gained : ∀ user ∈ users, admits s w user = true → Gained s user taskId w w'
  kept : ∀ user ∈ users, admits s w user = false → Same w w' (.inbox user)
  others : ∀ k, (∀ user ∈ users, k ≠ .inbox user ∧ k ≠ rateKey user w.clock) → Same w w' k

/-! ## One notification -/

/-- A call is counted and answered, and nothing else happens. -/
theorem run_allows_eq (user : String) (limit : Int) (w : World) : ∃ w',
    (allows user limit).run w = (.ok (decide (Command.countOf
      (w.store.cell? w.clock.instant (rateKey user w.clock)) + 1 ≤ limit)), w') ∧
    w'.counters = w.counters ∧ ∀ k, k ≠ rateKey user w.clock → Same w w' k := by
  let w₁ := w.after (.increment (rateKey user w.clock))
  have hincrement : (store (.increment (rateKey user w.clock))).run w =
      (.ok (Command.countOf (w.store.cell? w.clock.instant (rateKey user w.clock)) + 1), w₁) := rfl
  have hkept : ∀ k, k ≠ rateKey user w.clock → Same w w₁ k := fun k hk =>
    w.lookup_after (c := .increment _) fun heq => hk (Option.some.inj heq).symm
  unfold allows
  rw [run_bind_ok (run_now w)]
  dsimp only
  rw [run_bind_ok hincrement]
  split
  · let w₂ := w₁.after (.expire (rateKey user w.clock) 120)
    refine ⟨w₂, rfl, rfl, fun k hk => ?_⟩
    exact (w₁.lookup_after (c := .expire _ _) fun heq => hk (Option.some.inj heq).symm).trans (hkept k hk)
  · exact ⟨w₁, rfl, rfl, hkept⟩

theorem text_str (user : String) : (Value.str user).text = user := rfl

/-- What is left to do within the limit puts a notification in front of the inbox. -/
theorem gained_of_run {title message url : Value} (hsize : 0 < s.inboxSize) {b : Bool}
    (h : (do
      let id := "notify_" ++ Moment.digits 12 (← fresh .notification)
      let n ← ofChecked "Notification" (Notification.check (← setting)
        (.obj (notificationFields id (.str user) title message taskId url)))
      store (.push (.inbox user) (.ofDocument n.fields))
      store (.trim (.inbox user) (s.inboxSize - 1))
      count (.notification true)
      return true : Program Bool).run w = (.ok b, w')) :
    b = true ∧ Gained s user taskId w w' ∧ ∀ k, k ≠ .inbox user → Same w w' k := by
  obtain ⟨n, w₁, hfresh, h⟩ := parts_of_bind h
  cases hfresh
  obtain ⟨setting, w₂, hsetting, h⟩ := parts_of_bind h
  cases hsetting
  obtain ⟨note, w₃, hchecked, h⟩ := parts_of_bind h
  obtain ⟨hcheck, hw₃⟩ := ok_of_ofChecked hchecked
  have hstore : w₃.store = w.store := by rw [hw₃]
  have hclock : w₃.clock = w.clock := by rw [hw₃]
  obtain ⟨huser, htask, -⟩ := Notification.parts_of_check hcheck
  change (Rules.pushBounded (.inbox user) (.ofDocument note.fields) s.inboxSize >>= fun _ => do
    count (.notification true)
    return true : Program Bool).run w₃ = _ at h
  obtain ⟨_, w₄, hpush, h⟩ := parts_of_bind h
  cases h
  have hlist := Rules.list_pushBounded (k := .inbox user) (c := .ofDocument note.fields) (w := w₃) hsize
  have hkept : ∀ k, k ≠ .inbox user → Same w₃ w₄ k := by
    intro k hk
    have := Rules.lookup_pushBounded (c := .ofDocument note.fields) (n := s.inboxSize) (w := w₃) hk
    rwa [hpush] at this
  rw [hpush, hstore, hclock] at hlist
  refine ⟨rfl, ⟨note, ?_, ?_, hlist⟩, fun k hk => (hkept k hk).trans (by rw [hstore])⟩
  · exact (Checked.ok.inj ((required_of_get? rfl rfl).symm.trans huser)).symm
  · exact (Checked.ok.inj ((Task.optional?_text rfl).symm.trans htask)).symm

theorem Gained.of_same {w₁ : World} (h : Gained s user taskId w₁ w') (hclock : w₁.clock = w.clock)
    (hsame : Same w w₁ (.inbox user)) : Gained s user taskId w w' := by
  obtain ⟨n, huser, htask, hlist⟩ := h
  rw [hclock, Store.list_congr hsame] at hlist
  exact ⟨n, huser, htask, hlist⟩

theorem Gained.then_same {w₁ : World} (h : Gained s user taskId w w₁) (hsame : Same w₁ w' (.inbox user)) :
    Gained s user taskId w w' := by
  obtain ⟨n, huser, htask, hlist⟩ := h
  exact ⟨n, huser, htask, (Store.list_congr hsame).trans hlist⟩

/-- A notification that is answered is delivered or not, as the limit of the minute has it. -/
theorem delivered_notify {title message url : Value} (hreach : w.outages = []) (hsize : 0 < s.inboxSize)
    {b : Bool} (h : (notify s (.str user) title message taskId url).run w = (.ok b, w')) :
    b = admits s w user ∧ Delivered s [user] taskId w w' := by
  unfold notify at h
  rw [Operation.run_guard hreach, text_str] at h
  obtain ⟨w₁, hallows, -, hcounted⟩ := run_allows_eq user s.notificationsPerMinute w
  have hclock : w₁.clock = w.clock := clock_of_run hallows
  have hinbox : Same w w₁ (.inbox user) := hcounted _ nofun
  rw [run_bind_ok hallows] at h
  change (if admits s w user = true then _ else _ : Program Bool).run w₁ = _ at h
  cases hadmits : admits s w user with
  | true =>
    rw [hadmits, if_pos rfl] at h
    obtain ⟨rfl, hgained, hkept⟩ := gained_of_run hsize h
    refine ⟨rfl, ?_, ?_, ?_⟩
    · intro u hu _
      cases List.mem_singleton.mp hu
      exact hgained.of_same hclock hinbox
    · intro u hu hover
      cases List.mem_singleton.mp hu
      cases hadmits.symm.trans hover
    · intro k hk
      obtain ⟨hkinbox, hkrate⟩ := hk user List.mem_cons_self
      exact (hkept k hkinbox).trans (hcounted k hkrate)
  | false =>
    rw [hadmits, if_neg Bool.false_ne_true] at h
    cases h
    refine ⟨rfl, ?_, ?_, ?_⟩
    · intro u hu hwithin
      cases List.mem_singleton.mp hu
      cases hadmits.symm.trans hwithin
    · intro u hu _
      cases List.mem_singleton.mp hu
      exact hinbox
    · intro k hk
      exact hcounted k (hk user List.mem_cons_self).2

/-! ## One notification to each of some users -/

/-- One user after another, each once. -/
theorem Delivered.cons {users : List String} {w₁ : World} (hfirst : Delivered s [user] taskId w w₁)
    (hrest : Delivered s users taskId w₁ w') (hclock : w₁.clock = w.clock) (hnew : user ∉ users) :
    (∀ u ∈ users, admits s w₁ u = admits s w u) ∧ Delivered s (user :: users) taskId w w' := by
  have hother : ∀ u ∈ users, u ≠ user := fun u hu heq => hnew (heq ▸ hu)
  have hrate : ∀ u ∈ users, Same w w₁ (rateKey u w.clock) := by
    intro u hu
    refine hfirst.others _ fun v hv => ?_
    cases List.mem_singleton.mp hv
    exact ⟨nofun, fun heq => hother u hu (Key.notifyRate.inj heq).1⟩
  have hinbox : ∀ u ∈ users, Same w w₁ (.inbox u) := by
    intro u hu
    refine hfirst.others _ fun v hv => ?_
    cases List.mem_singleton.mp hv
    exact ⟨fun heq => hother u hu (Key.inbox.inj heq), nofun⟩
  have hlast : Same w₁ w' (.inbox user) :=
    hrest.others _ fun v hv => ⟨fun heq => hother v hv (Key.inbox.inj heq).symm, nofun⟩
  have hadmits : ∀ u ∈ users, admits s w₁ u = admits s w u := by
    intro u hu
    unfold admits
    rw [hclock, Store.cell?_congr (hrate u hu)]
  refine ⟨hadmits, ?_, ?_, ?_⟩
  · intro u hu hwithin
    rcases List.mem_cons.mp hu with rfl | hu
    · exact (hfirst.gained u List.mem_cons_self hwithin).then_same hlast
    · rw [← hadmits u hu] at hwithin
      exact (hrest.gained u hu hwithin).of_same hclock (hinbox u hu)
  · intro u hu hover
    rcases List.mem_cons.mp hu with rfl | hu
    · exact hlast.trans (hfirst.kept u List.mem_cons_self hover)
    · rw [← hadmits u hu] at hover
      exact (hrest.kept u hu hover).trans (hinbox u hu)
  · intro k hk
    have hrest' := hrest.others k fun v hv => hclock ▸ hk v (List.mem_cons_of_mem user hv)
    refine hrest'.trans (hfirst.others k fun v hv => ?_)
    cases List.mem_singleton.mp hv
    exact hk _ List.mem_cons_self

/-- A program for each user that delivers a notification delivers one to each, if no user is named twice. -/
theorem delivered_each {f : Value → Program (Value × Bool)} {users : List String} {sent : List (Value × Bool)}
    (hf : ∀ user w w' p, w.outages = [] → (f (.str user)).run w = (.ok p, w') →
      p = (.str user, admits s w user) ∧ Delivered s [user] taskId w w')
    (hreach : w.outages = []) (hnodup : users.Nodup)
    (h : (each f (users.map .str)).run w = (.ok sent, w')) :
    sent = users.map (fun user => (.str user, admits s w user)) ∧ Delivered s users taskId w w' := by
  induction users generalizing w sent with
  | nil =>
    cases h
    exact ⟨rfl, nofun, nofun, fun _ _ => rfl⟩
  | cons user users ih =>
    obtain ⟨hnew, hnodup⟩ := List.nodup_cons.mp hnodup
    rw [List.map_cons, each] at h
    obtain ⟨p, w₁, hfirst, h⟩ := parts_of_bind h
    obtain ⟨rest, w₂, hrest, h⟩ := parts_of_bind h
    cases h
    obtain ⟨rfl, hone⟩ := hf user w w₁ p hreach hfirst
    obtain ⟨rfl, hothers⟩ := ih ((outages_of_run hfirst).trans hreach) hnodup hrest
    obtain ⟨hadmits, hall⟩ := hone.cons hothers (clock_of_run hfirst) hnew
    refine ⟨?_, hall⟩
    rw [List.map_cons]
    refine congrArg _ (List.map_congr_left fun u hu => ?_)
    rw [hadmits u hu]

/-- A message to each of some users reaches those within the limit of the minute. -/
theorem delivered_tell {users : List String} {title message url : Value} {t : Task} {o : Occasion}
    {reached : List Value} (hreach : w.outages = []) (hsize : 0 < o.settings.inboxSize)
    (hnodup : users.Nodup)
    (h : (Telling.tell (users.map .str) title message url t o).run w = (.ok reached, w')) :
    reached = (users.filter (admits o.settings w)).map .str ∧
      Delivered o.settings users (some t.id) w w' := by
  have hone : ∀ {user : String} {w w' : World} {p : Value × Bool} (url : Value), w.outages = [] →
      (do return (Value.str user, ← notify o.settings (.str user) title message (some t.id) url) :
        Program _).run w = (.ok p, w') →
      p = (.str user, admits o.settings w user) ∧ Delivered o.settings [user] (some t.id) w w' := by
    intro user w w' p url hreach h
    obtain ⟨b, w₁, hnotify, h⟩ := parts_of_bind h
    cases h
    obtain ⟨rfl, hdelivered⟩ := delivered_notify hreach hsize hnotify
    exact ⟨rfl, hdelivered⟩
  unfold Telling.tell at h
  obtain ⟨sent, w₁, heach, h⟩ := parts_of_bind h
  cases h
  have heachUser : ∀ user w w' p, w.outages = [] →
      ((do
        let url ← if url.truthy then pure url else o.link t.id
        return (Value.str user, ← notify o.settings (.str user) title message (some t.id) url) :
        Program _).run w = (.ok p, w')) →
      p = (.str user, admits o.settings w user) ∧ Delivered o.settings [user] (some t.id) w w' := by
    intro user w w' p hreach h
    split at h <;> dsimp only at h
    · exact hone url hreach h
    · obtain ⟨link, w₁, hlink, hnotify⟩ := parts_of_bind h
      obtain ⟨-, rfl⟩ := ok_of_ofExcept hlink
      exact hone link hreach hnotify
  obtain ⟨rfl, hall⟩ := delivered_each heachUser hreach hnodup heach
  refine ⟨?_, hall⟩
  rw [List.filter_map, List.map_map]
  rfl

end TaskAutomation.Inbox
