import TaskAutomation.Proofs.History.Newest
import TaskAutomation.Proofs.Tasks.Handover

/-!
# Listings with a limit

A listing with a limit asks the store for what lies from the front up to an index: the limit less one. For a
limit of zero this is the last index of all, and the listing gives everything.

* `Program.Shows p w a` : a program comes to a result, and changes nothing;
* `Limited listing w all` : the answers for each limit are cut from one list, but for zero they are all of it;
  `Limited.of_through` : so they are where an index is asked for;
* `Program.shows_range`, `Tasks.limited_recent` : listings of cells and of tasks, where all of them can be read;
* `Tasks.newest_of_scores` : a user's recent tasks stand by the time of their creation, where they are indexed
  by it;
* `History.limited_exact` : inboxes, timelines and recent tasks are all limited in this way.
-/

namespace TaskAutomation

open Check Program

variable {α β : Type} {w : World}

/-! ## Answers for each limit -/

/-- The program comes to a result, and changes nothing. -/
def Program.Shows (p : Program α) (w : World) (a : α) : Prop := p.run w = (.ok a, w)

/-- A listing gives the first items of a list, as many as it is asked for; asked for none it gives all. -/
structure Limited (listing : Int → Program (List α)) (w : World) (all : List α) : Prop where
  first : ∀ n, 0 < n → Shows (listing n) w (all.take n.toNat)
  zero : Shows (listing 0) w all
  front : ∀ m n few more, 0 < m → m ≤ n → Shows (listing m) w few → Shows (listing n) w more → few <+: more

theorem Limited.of_through {listing : Int → Program (List α)} {all : List α}
    (h : ∀ n, Shows (listing n) w (Content.through (n - 1) all)) : Limited listing w all := by
  have hfirst : ∀ n, 0 < n → Shows (listing n) w (all.take n.toNat) := by
    intro n hn
    rw [← Content.through_pred hn]
    exact h n
  refine ⟨hfirst, ?_, fun m n few more hm hmn hfew hmore => ?_⟩
  · have hall := h 0
    rwa [Int.zero_sub, Content.through_all] at hall
  · have hfew' := (hfirst m hm).symm.trans hfew
    have hmore' := (hfirst n (by omega)).symm.trans hmore
    cases hfew'
    cases hmore'
    have hle : m.toNat ≤ n.toNat := by omega
    exact (List.prefix_take_iff.mpr ⟨List.take_prefix _ _, (List.length_take_le _ _).trans hle⟩)

/-! ## Reading the items -/

/-- What can be found for each item can be found for all. -/
theorem exists_forall₂ {R : α → β → Prop} {items : List α} (h : ∀ a ∈ items, ∃ b, R a b) :
    ∃ all, List.Forall₂ R items all := by
  induction items with
  | nil => exact ⟨[], .nil⟩
  | cons a rest ih =>
    obtain ⟨⟨b, hb⟩, hrest⟩ := List.forall_mem_cons.mp h
    obtain ⟨all, hall⟩ := ih hrest
    exact ⟨b :: all, .cons hb hall⟩

theorem forall₂_through {R : α → β → Prop} {items : List α} {all : List β} (h : List.Forall₂ R items all)
    (last : Int) : List.Forall₂ R (Content.through last items) (Content.through last all) := by
  unfold Content.through
  rw [h.length_eq]
  split <;> exact List.forall₂_take _ h

theorem Program.shows_each {p : α → Program β} {items : List α} {all : List β}
    (h : List.Forall₂ (fun a b => (p a).Shows w b) items all) : (each p items).Shows w all := by
  unfold Shows
  induction h with
  | nil => rfl
  | cons hb _ ih =>
    rw [each, run_bind_ok hb, run_bind_ok ih]
    rfl

/-- A list whose cells can be read is read up to an index. -/
theorem Program.shows_range {k : Key} {p : Cell → Program β} {all : List β}
    (h : List.Forall₂ (fun c b => (p c).Shows w b) (w.store.list w.clock.instant k) all) (last : Int) :
    Program.Shows (do
      let cells : List Cell ← store (.range k last)
      each p cells) w (Content.through last all) := by
  unfold Shows
  rw [run_bind_ok (run_read rfl w)]
  exact shows_each (forall₂_through h last)

/-! ## Listings -/

theorem Inbox.limited_list {userId : String} {all : List Notification} (ho : w.outages = [])
    (h : List.Forall₂ (fun c n => (notificationOf c).Shows w n)
      (w.store.list w.clock.instant (.inbox userId)) all) : Limited (list userId) w all :=
  .of_through fun n => (Operation.run_guard ho).trans (shows_range h (n - 1))

theorem Timeline.limited_list {taskId : String} {all : List Activity} (ho : w.outages = [])
    (h : List.Forall₂ (fun c a => (entryOf c).Shows w a)
      (w.store.list w.clock.instant (.activity taskId)) all) : Limited (list taskId) w all :=
  .of_through fun n => (Operation.run_guard ho).trans (shows_range h (n - 1))

namespace Tasks

/-- The index of a user's tasks by creation, the newest first. -/
def byCreation (w : World) (userId : String) : List Scored :=
  (w.store.ordered w.clock.instant (.taskUser userId)).reverse

theorem shows_getMany {items : List Scored} {all : List Task} (ho : w.outages = [])
    (h : List.Forall₂ (fun a t => (get a.member).Shows w (some t)) items all) :
    (getMany (items.map Scored.member)).Shows w all := by
  have heach : (each get (items.map Scored.member)).Shows w (all.map some) := by
    refine shows_each ?_
    rw [List.forall₂_map_left_iff, List.forall₂_map_right_iff]
    exact h
  unfold Shows getMany
  rw [Operation.run_guard ho, run_bind_ok heach, run_pure, List.filterMap_map]
  exact congrArg (fun ts => (Except.ok ts, w)) List.filterMap_some

theorem limited_recent {userId : String} {all : List Task} (ho : w.outages = [])
    (h : List.Forall₂ (fun a t => (get a.member).Shows w (some t)) (byCreation w userId) all) :
    Limited (recent userId) w all := by
  refine .of_through fun n => (Operation.run_guard ho).trans ?_
  rw [run_bind_ok (run_read rfl w)]
  simp only [Command.run, Content.through_map]
  exact shows_getMany ho (forall₂_through h (n - 1))

/-- One task was created after another, or at the same instant with a higher id. -/
def Newer (a b : Task) : Prop :=
  b.createdAt.instant < a.createdAt.instant ∨ b.createdAt.instant = a.createdAt.instant ∧ b.id < a.id

/-- Tasks that are indexed by the time of their creation are listed by it, the newest first. -/
theorem newest_of_scores {userId : String} {all : List Task}
    (h : List.Forall₂ (fun a t => a = ⟨t.id, t.createdAt.timestamp⟩) (byCreation w userId) all)
    (horder : Scored.InOrder (w.store.ordered w.clock.instant (.taskUser userId))) :
    all.Pairwise (fun a b => CreatedBefore b a)
      ∧ (ScoresExact (fun x => ∃ t ∈ all, t.createdAt = x) → all.Pairwise Newer) := by
  have hmap : byCreation w userId = all.map fun t => ⟨t.id, t.createdAt.timestamp⟩ := by
    rw [← List.forall₂_eq_eq_eq, List.forall₂_map_right_iff]
    exact h
  have hsorted : all.Pairwise fun a b => CreatedBefore b a := by
    have hreverse : (byCreation w userId).Pairwise fun a b => b.place < a.place :=
      List.pairwise_reverse.mpr horder.sorted
    rw [hmap] at hreverse
    exact List.pairwise_map.mp hreverse
  refine ⟨hsorted, fun hscores => hsorted.imp_of_mem fun ha hb hbefore => ?_⟩
  exact (place_lt_iff hscores ⟨_, hb, rfl⟩ ⟨_, ha, rfl⟩ _ _).mp hbefore

/-- After any edits the tasks that an index of creation names are stored. -/
theorem Tended.found_byCreation (h : Tended w) (userId : String) :
    Scored.InOrder (w.store.ordered w.clock.instant (.taskUser userId))
      ∧ ∀ a ∈ byCreation w userId, ∃ t, (get a.member).Shows w (some t) := by
  obtain ⟨⟨m, hm⟩, -, -, ho⟩ := h.tracked
  obtain ⟨members, hkeeps, hranks⟩ := hm.created userId
  unfold byCreation
  rw [hkeeps.ordered]
  refine ⟨hranks.order, fun a ha => ?_⟩
  obtain ⟨t, ht⟩ := hranks.stored a (List.mem_reverse.mp ha)
  exact ⟨t, ht ▸ hm.documents.run_get ho a.member⟩

/-- And those of them that are the user's own are indexed by the time of their creation. -/
theorem Tended.score_byCreation (h : Tended w) {userId : String} {a : Scored} {t : Task}
    (ha : a ∈ byCreation w userId) (ht : (get a.member).Shows w (some t)) (hown : t.userId = userId) :
    a = ⟨t.id, t.createdAt.timestamp⟩ := by
  obtain ⟨⟨m, hm⟩, -, -, ho⟩ := h.tracked
  obtain ⟨members, hkeeps, hranks⟩ := hm.created userId
  have hfound : m a.member = some t := by
    have hget := (hm.documents.run_get ho a.member).symm.trans ht
    cases hresult : m a.member <;> rw [hresult] at hget <;> cases hget
    rfl
  unfold byCreation at ha
  rw [hkeeps.ordered] at ha
  obtain ⟨x, hx, hscore⟩ := (hranks.own a t hfound hown).mp (List.mem_reverse.mp ha)
  cases hx
  rw [hm.documents.id_eq hfound, ← hscore]

end Tasks

namespace History

variable {s : Settings} {h : History}

/-- All that was written to an inbox can be read. -/
theorem Sound.shows_inbox (hsound : Sound s h w) (userId : String) :
    ∀ c ∈ w.store.list w.clock.instant (.inbox userId), ∃ n, (Inbox.notificationOf c).Shows w n := by
  rw [(hsound.keeps (k := .inbox userId) trivial rfl).list]
  intro c hc
  obtain ⟨n, hn, rfl⟩ := List.mem_map.mp hc
  have hstamped := hsound.storable.notes n (List.mem_of_mem_filter (List.mem_of_mem_take hn))
  exact ⟨n, run_checked (Notification.check_document hstamped) w⟩

/-- All that was written to a timeline can be read. -/
theorem Sound.shows_timeline (hsound : Sound s h w) (taskId : String) :
    ∀ c ∈ w.store.list w.clock.instant (.activity taskId), ∃ a, (Timeline.entryOf c).Shows w a := by
  rw [(hsound.keeps (k := .activity taskId) trivial rfl).list]
  intro c hc
  obtain ⟨a, ha, rfl⟩ := List.mem_map.mp hc
  obtain ⟨hstamped, hfinite⟩ :=
    hsound.storable.entries a (List.mem_of_mem_filter (List.mem_of_mem_take ha))
  exact ⟨a, run_checked (Activity.check_document hstamped hfinite) w⟩

/-- Where all entries can be read, a listing for a limit gives that many of the first entries of the whole
list, but all of them for a limit of zero. The lists of inboxes and timelines have their newest entries first;
tasks that are indexed by the time of their creation are listed by it. -/
theorem limited_exact (ho : w.outages = []) :
    (∀ userId, (∀ c ∈ w.store.list w.clock.instant (.inbox userId),
        ∃ n, (Inbox.notificationOf c).Shows w n) →
      ∃ all, List.Forall₂ (fun c n => (Inbox.notificationOf c).Shows w n)
          (w.store.list w.clock.instant (.inbox userId)) all
        ∧ Limited (Inbox.list userId) w all)
    ∧ (∀ taskId, (∀ c ∈ w.store.list w.clock.instant (.activity taskId),
        ∃ a, (Timeline.entryOf c).Shows w a) →
      ∃ all, List.Forall₂ (fun c a => (Timeline.entryOf c).Shows w a)
          (w.store.list w.clock.instant (.activity taskId)) all
        ∧ Limited (Timeline.list taskId) w all)
    ∧ ∀ userId, (∀ a ∈ Tasks.byCreation w userId, ∃ t, (Tasks.get a.member).Shows w (some t)) →
      ∃ all, List.Forall₂ (fun a t => (Tasks.get a.member).Shows w (some t)) (Tasks.byCreation w userId) all
        ∧ Limited (Tasks.recent userId) w all
        ∧ (Scored.InOrder (w.store.ordered w.clock.instant (.taskUser userId)) →
          (∀ a ∈ Tasks.byCreation w userId, ∀ t, (Tasks.get a.member).Shows w (some t) →
            a = ⟨t.id, t.createdAt.timestamp⟩) →
          all.Pairwise (fun a b => Tasks.CreatedBefore b a)
            ∧ (Tasks.ScoresExact (fun x => ∃ t ∈ all, t.createdAt = x) → all.Pairwise Tasks.Newer)) := by
  refine ⟨fun userId h => ?_, fun taskId h => ?_, fun userId h => ?_⟩
  · obtain ⟨all, hall⟩ := exists_forall₂ h
    exact ⟨all, hall, Inbox.limited_list ho hall⟩
  · obtain ⟨all, hall⟩ := exists_forall₂ h
    exact ⟨all, hall, Timeline.limited_list ho hall⟩
  · obtain ⟨all, hall⟩ := exists_forall₂ h
    refine ⟨all, hall, Tasks.limited_recent ho hall, fun horder hscores => ?_⟩
    have hboth := (List.forall₂_and_left _ _).mpr ⟨hscores, hall⟩
    exact Tasks.newest_of_scores (hboth.imp fun a t ⟨hscore, hshows⟩ => hscore t hshows) horder

/-! ### Asked for none -/

/-- A notification for a user, and an entry on a task. -/
def latePost : Inbox.Post := ⟨"user_1", "Late", "A task is late", some "task_1", none⟩

def lateRemark : Timeline.Remark := ⟨"task_1", "user_1", "note", "The task is late", none⟩

/-- The worlds before the two, between them, and after them. -/
def quietWorld : World := { clock := .ofInstant 0 }

def postedWorld : World := ((latePost.program {}).run quietWorld).2

def remarkedWorld : World := (lateRemark.program.run postedWorld).2

theorem course_remarkedWorld : Course {} (({} : History).notify (latePost.noteIn quietWorld) |>.append
    (lateRemark.entry postedWorld)) remarkedWorld := by
  have hw : Inbox.Serving quietWorld := ⟨rfl, rfl, by decide, by rintro o ⟨⟩; decide⟩
  have hdelivered : ((latePost.program {}).run quietWorld).1 = .ok true := by
    obtain ⟨w₁, -, -, hrun⟩ := Inbox.run_post {} latePost hw.reach
    have hadmits : Inbox.admits {} quietWorld latePost.userId = true := rfl
    obtain ⟨w', hdeliver, -⟩ := Inbox.run_deliver {} latePost w₁
    rw [hrun, if_pos hadmits, hdeliver]
  have hstart : Course {} {} quietWorld := .start hw fun _ _ => rfl
  exact (hstart.notify latePost hdelivered).append lateRemark rfl

theorem sound_remarkedWorld : Sound {} (({} : History).notify (latePost.noteIn quietWorld) |>.append
    (lateRemark.entry postedWorld)) remarkedWorld := by
  have hs : Settings.ofFields { now := .ofInstant 0 } [] = .ok {} := rfl
  exact course_remarkedWorld.sound (Settings.roomy_of_check hs)

/-- Asked for no notifications, entries or tasks, the listings give those that there are. -/
theorem all_of_none :
    (Inbox.list "user_1" 0).Shows remarkedWorld [latePost.noteIn quietWorld]
      ∧ (Timeline.list "task_1" 0).Shows remarkedWorld [lateRemark.entry postedWorld]
      ∧ ∃ tasks, (Tasks.recent "user_1" 0).Shows Tasks.heldWorld tasks
        ∧ Tasks.sampleTask "task_1" 1 ∈ tasks := by
  refine ⟨sound_remarkedWorld.run_inbox "user_1" 0, sound_remarkedWorld.run_timeline "task_1" 0, ?_⟩
  obtain ⟨hheld, htracked⟩ := Tasks.heldWorld_tracked
  have ho := hheld.tracked.2.2.2
  obtain ⟨members, hkeeps, hranks⟩ := htracked.created "user_1"
  have hrecent := hranks.recent htracked.documents ho hkeeps
  refine ⟨_, htracked.documents.run_recent ho hkeeps hranks.stored 0, ?_⟩
  rw [Int.zero_sub, Content.through_all]
  exact hrecent.own _ Tasks.stored_sampleTask rfl

/-- A notification, an entry and a task are all listed, for any limit. -/
theorem limited_exact_of_late :
    Limited (Inbox.list "user_1") remarkedWorld [latePost.noteIn quietWorld]
      ∧ Limited (Timeline.list "task_1") remarkedWorld [lateRemark.entry postedWorld]
      ∧ ∃ tasks, Limited (Tasks.recent "user_1") Tasks.heldWorld tasks
        ∧ tasks.Pairwise fun a b => Tasks.CreatedBefore b a := by
  have hremarked := sound_remarkedWorld
  obtain ⟨hinbox, htimeline, -⟩ := limited_exact hremarked.serving.reach
  obtain ⟨notes, -, hnotes⟩ := hinbox "user_1" (hremarked.shows_inbox "user_1")
  obtain ⟨entries, -, hentries⟩ := htimeline "task_1" (hremarked.shows_timeline "task_1")
  cases hnotes.zero.symm.trans (hremarked.run_inbox "user_1" 0)
  cases hentries.zero.symm.trans (hremarked.run_timeline "task_1" 0)
  refine ⟨hnotes, hentries, ?_⟩
  obtain ⟨hheld, htracked⟩ := Tasks.heldWorld_tracked
  have ho := hheld.tracked.2.2.2
  obtain ⟨-, -, hrecent⟩ := limited_exact ho
  obtain ⟨horder, hfound⟩ := hheld.found_byCreation "user_1"
  obtain ⟨tasks, -, htasks, hsorted⟩ := hrecent "user_1" hfound
  refine ⟨tasks, htasks, (hsorted horder fun a ha t ht => hheld.score_byCreation ha ht ?_).1⟩
  have hget := (htracked.documents.run_get ho a.member).symm.trans ht
  rw [Function.update_apply] at hget
  split at hget <;> cases hget
  rfl

end History

end TaskAutomation
