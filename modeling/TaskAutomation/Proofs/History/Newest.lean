import TaskAutomation.Proofs.History.Written

/-!
# Lists that are cut keep the newest entries

* `History.Storable h` : all that was written can be read again;
* `History.Course s h w` : a world that came from empty lists by records of runs, entries of timelines and
  notifications, with programs in between that keep off these lists, and all that was written on the way;
  `Course.sound` : each list is what it should be, at any point of the way;
* `History.placed n p items` : the newest items of which something holds, with their places among all;
  `History.merge_newest` : the newest of all are among the newest of each kind, merged by their places;
* `History.Faithful s h w` : what all lists of a world are and how they are read; `History.faithful_of_course` :
  they are so in every world that a course leads to.
-/

namespace TaskAutomation

open Check Program

namespace History

/-! ## Courses -/

/-- All that was written can be read again: its numbers are finite, and its moments are in whole minutes from
UTC. -/
structure Storable (h : History) : Prop where
  runs : ∀ e ∈ h.runs, e.Storable
  entries : ∀ a ∈ h.entries, a.createdAt.Stamped ∧ Value.allFiniteFields a.metadata = true
  notes : ∀ n ∈ h.notes, n.createdAt.Stamped

/-- Worlds that come from empty lists, with all that was written to the lists on the way. In between programs may
run that keep off the lists, and time may pass. -/
inductive Course (s : Settings) : History → World → Prop where
  | start {w : World} (hw : Inbox.Serving w)
      (hempty : ∀ k, k.isHistory → w.store.slots.lookup k = none) : Course s {} w
  | record {h : History} {w : World} (hc : Course s h w) (e : Execution) (he : e.Storable) :
      Course s (h.record e) ((Rules.recordRun s e).run w).2
  | append {h : History} {w : World} (hc : Course s h w) (r : Timeline.Remark)
      (hr : Value.allFiniteFields (r.metadata.getD []) = true) :
      Course s (h.append (r.entry w)) (r.program.run w).2
  | notify {h : History} {w : World} (hc : Course s h w) (p : Inbox.Post)
      (hdelivered : ((p.program s).run w).1 = .ok true) :
      Course s (h.notify (p.noteIn w)) ((p.program s).run w).2
  | refuse {h : History} {w : World} (hc : Course s h w) (p : Inbox.Post)
      (hrefused : ((p.program s).run w).1 = .ok false) : Course s h ((p.program s).run w).2
  | other {h : History} {w : World} (hc : Course s h w) {α : Type} (p : Program α)
      (hp : p.Within (Call.Touches fun k => ¬ k.isHistory)) : Course s h (p.run w).2
  | pass {h : History} {w w' : World} (hc : Course s h w) (hstore : w'.store = w.store)
      (hw : Inbox.Serving w') : Course s h w'

/-- Nothing is out of reach, all that was written can be read again, and each list is the newest of it. -/
structure Sound (s : Settings) (h : History) (w : World) : Prop where
  serving : Inbox.Serving w
  storable : h.Storable
  trimmed : Trimmed s h.cells w.store

namespace Storable

variable {h : History}

theorem record (hh : h.Storable) {e : Execution} (he : e.Storable) : (h.record e).Storable :=
  { hh with runs := List.forall_mem_cons.mpr ⟨he, hh.runs⟩ }

theorem append (hh : h.Storable) {a : Activity} (ha : a.createdAt.Stamped)
    (hfinite : Value.allFiniteFields a.metadata = true) : (h.append a).Storable :=
  { hh with entries := List.forall_mem_cons.mpr ⟨⟨ha, hfinite⟩, hh.entries⟩ }

theorem notify (hh : h.Storable) {n : Notification} (hn : n.createdAt.Stamped) : (h.notify n).Storable :=
  { hh with notes := List.forall_mem_cons.mpr ⟨hn, hh.notes⟩ }

end Storable

variable {s : Settings} {h : History} {w : World}

theorem Course.sound (hs : s.Roomy) (hc : Course s h w) : Sound s h w := by
  induction hc with
  | start hw hempty =>
    refine ⟨hw, ⟨nofun, nofun, nofun⟩, fun k hk => ?_⟩
    have hnil : cells {} k = [] := by cases k <;> rfl
    rw [hnil, List.take_nil]
    exact Store.keeps_of_lookup_none (hempty k hk) rfl
  | record hc e he ih =>
    exact ⟨ih.serving.run _, ih.storable.record he, ih.trimmed.record hs ih.serving.reach e⟩
  | append hc r hr ih =>
    exact ⟨ih.serving.run _, ih.storable.append ih.serving.stamped hr, ih.trimmed.append hs ih.serving.reach r⟩
  | notify hc p hdelivered ih =>
    exact ⟨ih.serving.run _, ih.storable.notify ih.serving.stamped,
      ih.trimmed.notify hs ih.serving.reach hdelivered⟩
  | refuse hc p hrefused ih =>
    exact ⟨ih.serving.run _, ih.storable, ih.trimmed.refuse ih.serving.reach hrefused⟩
  | other hc p hp ih => exact ⟨ih.serving.run _, ih.storable, ih.trimmed.other hp⟩
  | pass hc hstore hw ih => exact ⟨hw, ih.storable, hstore ▸ ih.trimmed⟩

/-! ## Reading -/

theorem filter_nonempty {id : String} (hid : id ≠ "") : (some id).filter (fun t => !t.isEmpty) = some id :=
  Option.filter_some_pos (by simpa using hid)

namespace Sound

/-- What is kept under a key, from items whose cells were written there. -/
theorem keeps {α : Type} {k : Key} {make : α → Cell} {items : List α} (hsound : Sound s h w)
    (hk : k.isHistory) (hcells : h.cells k = items.map make) :
    w.store.Keeps k (.list ((items.take (most s k).toNat).map make)) := by
  have hkeeps := hsound.trimmed k hk
  rwa [hcells, ← List.map_take] at hkeeps

theorem run_runs {k : Key} {p : Execution → Bool} (hsound : Sound s h w) (hk : k.isHistory)
    (hcells : h.cells k = (h.runs.filter p).map fun e => .ofDocument e.fields) :
    (do
      let cells : List Cell ← store (.range k (-1))
      each Rules.runOf cells : Program (List Execution)).run w =
        (.ok ((h.runs.filter p).take (most s k).toNat), w) := by
  rw [run_range (hsound.keeps hk hcells) fun e he => ?_, Content.through_all]
  have hstorable := hsound.storable.runs e (List.mem_of_mem_filter (List.mem_of_mem_take he))
  exact run_checked (fun _ => hstorable.check_document) w

theorem run_runs_rule (hsound : Sound s h w) {id : String} (hid : id ≠ "") (other : Option String) :
    (Rules.runs (some id) other).run w =
      (.ok ((h.runs.filter (·.ruleId = id)).take s.historyLimit.toNat), w) := by
  unfold Rules.runs
  rw [Operation.run_guard hsound.serving.reach]
  simp only [filter_nonempty hid]
  rw [run_bind_ok (run_pure _ w)]
  exact hsound.run_runs (k := .executionsRule id) trivial rfl

theorem run_runs_user (hsound : Sound s h w) {id : String} (hid : id ≠ "") :
    (Rules.runs none (some id)).run w =
      (.ok ((h.runs.filter (·.userId = id)).take s.historyLimit.toNat), w) := by
  unfold Rules.runs
  rw [Operation.run_guard hsound.serving.reach]
  simp only [filter_nonempty hid, Option.filter_none]
  rw [run_bind_ok (run_pure _ w)]
  exact hsound.run_runs (k := .executionsUser id) trivial rfl

theorem run_timeline (hsound : Sound s h w) (id : String) (last : Int) :
    (Timeline.list id last).run w =
      (.ok (Content.through (last - 1) ((h.entries.filter (·.taskId = id)).take Timeline.limit.toNat)), w) := by
  unfold Timeline.list
  rw [Operation.run_guard hsound.serving.reach]
  refine run_range (hsound.keeps (k := .activity id) trivial rfl) (fun a ha => ?_) _
  obtain ⟨hstamped, hfinite⟩ :=
    hsound.storable.entries a (List.mem_of_mem_filter (List.mem_of_mem_take ha))
  exact run_checked (Activity.check_document hstamped hfinite) w

theorem run_inbox (hsound : Sound s h w) (id : String) (last : Int) :
    (Inbox.list id last).run w =
      (.ok (Content.through (last - 1) ((h.notes.filter (·.userId = id)).take s.inboxSize.toNat)), w) := by
  unfold Inbox.list
  rw [Operation.run_guard hsound.serving.reach]
  refine run_range (hsound.keeps (k := .inbox id) trivial rfl) (fun n hn => ?_) _
  have hstamped := hsound.storable.notes n (List.mem_of_mem_filter (List.mem_of_mem_take hn))
  exact run_checked (Notification.check_document hstamped) w

end Sound

/-! ## Merging -/

section Merging

variable {α : Type} {n : Nat} {items : List α} {p : α → Bool}

/-- The newest items of which something holds, each with its place among all. -/
def placed (n : Nat) (p : α → Bool) (items : List α) : List (α × Nat) :=
  (items.zipIdx.filter fun a => p a.1).take n

theorem map_placed (n : Nat) (p : α → Bool) (items : List α) :
    (placed n p items).map Prod.fst = (items.filter p).take n := by
  unfold placed
  conv_rhs => rw [← items.zipIdx_map_fst 0, List.filter_map, ← List.map_take]
  rfl

/-- Places are given in order. -/
theorem pairwise_zipIdx (items : List α) : items.zipIdx.Pairwise fun a b => a.2 < b.2 := by
  rw [← List.pairwise_map (f := Prod.snd) (R := (· < ·)), List.zipIdx_map_snd]
  exact List.pairwise_lt_range'

/-- One of the newest is among the newest of its kind. -/
theorem mem_take_filter {a : α} (ha : a ∈ items.take n) (hp : p a = true) : a ∈ (items.filter p).take n := by
  have hlength : ((items.take n).filter p).length ≤ n :=
    (List.length_filter_le p _).trans (List.length_take_le n items)
  rw [← List.take_append_drop n items, List.filter_append, List.take_append, List.take_of_length_le hlength]
  exact List.mem_append_left _ (List.mem_filter.mpr ⟨ha, hp⟩)

/-- The newest are the newest of any part that they are all in. -/
theorem take_filter (h : ∀ a ∈ items.take n, p a = true) : (items.filter p).take n = items.take n := by
  rw [← List.take_append_drop n items, List.filter_append, List.filter_eq_self.mpr h]
  rcases Nat.le_total n items.length with hle | hle
  · have hlength := List.length_take_of_le hle
    rw [List.take_left' hlength, List.take_left' hlength]
  · rw [List.drop_of_length_le hle]
    rfl

/-- A part of some items that has all of the newest has the newest of each kind and no others. -/
theorem exists_merged {β : Type} [DecidableEq β] {kind : α → β} {kinds : List β} (n : Nat)
    (hitems : items.Nodup) (hkinds : kinds.Nodup) (hall : ∀ a ∈ items, kind a ∈ kinds) :
    ∃ merged : List α, merged.Sublist items ∧ merged.take n = items.take n ∧
      merged.Perm (kinds.flatMap fun b => (items.filter (kind · = b)).take n) := by
  classical
  let newest (b : β) : List α := (items.filter (kind · = b)).take n
  have hkind : ∀ {a b}, a ∈ newest b → a ∈ items ∧ kind a = b := by
    intro a b ha
    simpa using List.mem_filter.mp (List.mem_of_mem_take ha)
  have hnodup : (kinds.flatMap newest).Nodup := by
    refine List.nodup_flatMap.mpr ⟨fun b _ => (hitems.filter _).sublist (List.take_sublist n _), ?_⟩
    refine hkinds.imp fun hne a hb hc => hne ?_
    exact (hkind hb).2.symm.trans (hkind hc).2
  refine ⟨items.filter fun a => a ∈ newest (kind a), List.filter_sublist, take_filter fun a ha => ?_, ?_⟩
  · exact decide_eq_true (mem_take_filter ha (decide_eq_true rfl))
  · refine (List.perm_ext_iff_of_nodup (hitems.filter _) hnodup).mpr fun a => ?_
    rw [List.mem_filter, List.mem_flatMap, decide_eq_true_eq]
    constructor
    · rintro ⟨ha, hnewest⟩
      exact ⟨kind a, hall a ha, hnewest⟩
    · rintro ⟨b, -, ha⟩
      obtain ⟨hmem, rfl⟩ := hkind ha
      exact ⟨hmem, ha⟩

/-- The newest of all are those of the newest of each kind, merged by their places. -/
theorem merge_newest {β : Type} [DecidableEq β] {kind : α → β} {kinds : List β} (n : Nat) (p : α → Bool)
    (hkinds : kinds.Nodup) (hall : ∀ a ∈ items, p a = true → kind a ∈ kinds) :
    ∃ merged : List (α × Nat),
      merged.Perm (kinds.flatMap fun b => placed n (fun a => kind a = b && p a) items) ∧
        merged.Pairwise (fun a b => a.2 < b.2) ∧
        (items.filter p).take n = (merged.take n).map Prod.fst := by
  let own := items.zipIdx.filter fun a => p a.1
  have hown : own.Pairwise fun a b => a.2 < b.2 := (pairwise_zipIdx items).filter _
  have hkind : ∀ a ∈ own, kind a.1 ∈ kinds := by
    intro a ha
    obtain ⟨hmem, hp⟩ := List.mem_filter.mp ha
    exact hall a.1 (List.fst_mem_of_mem_zipIdx hmem) hp
  have hplaced : ∀ b, placed n (fun a => kind a = b && p a) items = (own.filter (kind ·.1 = b)).take n := by
    intro b
    unfold placed
    rw [List.filter_filter]
  obtain ⟨merged, hsublist, htake, hperm⟩ :=
    exists_merged n (hown.imp fun hlt heq => (heq ▸ hlt).false) hkinds hkind
  refine ⟨merged, ?_, hown.sublist hsublist, ?_⟩
  · simpa only [hplaced] using hperm
  · rw [htake, ← map_placed]
    rfl

end Merging

/-! ## All lists -/

/-- The newest records of a rule for a user, each with its place among all records. -/
def share (s : Settings) (h : History) (user id : String) : List (Execution × Nat) :=
  placed s.historyLimit.toNat (fun e => e.ruleId = id && e.userId = user) h.runs

/-- Each list is the newest of what was written to it, and is read as that. The list of a user is put together
from the shares of all rules that ran for the user, and the share of a rule that runs for no one else is its
own list. -/
structure Faithful (s : Settings) (h : History) (w : World) : Prop where
  stored : ∀ k, k.isHistory → ∀ now, w.store.list now k = (h.cells k).take (most s k).toNat
  rules : ∀ id other, id ≠ "" → (Rules.runs (some id) other).run w =
    (.ok ((h.runs.filter (·.ruleId = id)).take s.historyLimit.toNat), w)
  users : ∀ id, id ≠ "" → (Rules.runs none (some id)).run w =
    (.ok ((h.runs.filter (·.userId = id)).take s.historyLimit.toNat), w)
  timelines : ∀ id last, (Timeline.list id last).run w =
    (.ok (Content.through (last - 1) ((h.entries.filter (·.taskId = id)).take 500)), w)
  inboxes : ∀ id last, (Inbox.list id last).run w =
    (.ok (Content.through (last - 1) ((h.notes.filter (·.userId = id)).take s.inboxSize.toNat)), w)
  merged : ∀ user (ids : List String), ids.Nodup → (∀ e ∈ h.runs, e.userId = user → e.ruleId ∈ ids) →
    ∃ merged : List (Execution × Nat), merged.Perm (ids.flatMap (share s h user)) ∧
      merged.Pairwise (fun a b => a.2 < b.2) ∧
      (h.runs.filter (·.userId = user)).take s.historyLimit.toNat =
        (merged.take s.historyLimit.toNat).map Prod.fst
  shares : ∀ user id, (∀ e ∈ h.runs, e.ruleId = id → e.userId = user) →
    (share s h user id).map Prod.fst = (h.runs.filter (·.ruleId = id)).take s.historyLimit.toNat

theorem Sound.faithful (hsound : Sound s h w) : Faithful s h w where
  stored k hk now := (hsound.trimmed k hk).list now
  rules _ other hid := hsound.run_runs_rule hid other
  users _ hid := hsound.run_runs_user hid
  timelines := hsound.run_timeline
  inboxes := hsound.run_inbox
  merged user ids hids hall := by
    have hkinds : ∀ e ∈ h.runs, decide (e.userId = user) = true → e.ruleId ∈ ids := fun e he huser =>
      hall e he (of_decide_eq_true huser)
    exact merge_newest s.historyLimit.toNat (fun e : Execution => decide (e.userId = user)) hids hkinds
  shares user id howned := by
    unfold share
    rw [map_placed]
    refine congrArg _ (List.filter_congr fun e he => ?_)
    by_cases hid : e.ruleId = id
    · simp [hid, howned e he hid]
    · simp [hid]

/-- After any course each list is the newest of what was written to it, and removing a rule changes none. -/
theorem faithful_of_course (hs : s.Roomy) (hc : Course s h w) :
    Faithful s h w ∧ ∀ id, Faithful s h ((Rules.delete id).run w).2 := by
  refine ⟨(hc.sound hs).faithful, fun id => ?_⟩
  have hdelete : (Rules.delete id).Within (Call.Touches fun k => ¬ k.isHistory) := by
    refine (Rules.discreet_delete id).touches.mono (Call.Touches.mono fun k hk hhistory => ?_)
    cases k <;> first | exact hk | exact hhistory
  exact ((hc.other _ hdelete).sound hs).faithful

/-- Any records may follow one another. -/
theorem Course.records {es : List Execution} (hc : Course s h w) (hes : ∀ e ∈ es, e.Storable) :
    ∃ w', Course s { h with runs := es.reverse ++ h.runs } w' := by
  induction es generalizing h w with
  | nil => exact ⟨w, hc⟩
  | cons e rest ih =>
    obtain ⟨he, hrest⟩ := List.forall_mem_cons.mp hes
    obtain ⟨w', hcourse⟩ := ih (hc.record e he) hrest
    refine ⟨w', ?_⟩
    rw [List.reverse_cons, List.append_assoc]
    exact hcourse

/-- A record of one of two rules of a user, in turn. -/
def alternate (n : Nat) : Execution where
  id := "exec_" ++ toString n
  ruleId := if n % 2 = 0 then "rule_1" else "rule_2"
  userId := "user_1"
  taskId := "task_1"
  trigger := "task_completed"
  actions := []
  status := .failed
  error := none
  executedAt := .ofInstant 0

/-- Of eleven records of two rules the list of their user keeps ten, and those of the rules keep all, also when
one of the rules is gone; what was in the inbox and the timeline before them is still there. -/
theorem faithful_of_alternate : ∃ h w, Course { historyLimit := 10 } h w ∧ h.runs.length = 11
    ∧ (∃ runs, (Rules.runs none (some "user_1")).run w = (.ok runs, w)
      ∧ runs = [10, 9, 8, 7, 6, 5, 4, 3, 2, 1].map alternate)
    ∧ (∃ runs w', ((Rules.delete "rule_2").run w).2 = w'
      ∧ (Rules.runs (some "rule_2") none).run w' = (.ok runs, w') ∧ runs = [9, 7, 5, 3, 1].map alternate)
    ∧ (∃ notes, (Inbox.list "user_1" 50).run w = (.ok notes, w) ∧ notes.map (·.title) = ["Late"])
    ∧ ∃ entries, (Timeline.list "task_1" 50).run w = (.ok entries, w)
      ∧ entries.map (·.metadata) = [[("hours", .int 2)]] := by
  let s : Settings := { historyLimit := 10 }
  let w : World := { clock := .ofInstant 0 }
  let p : Inbox.Post := ⟨"user_1", "Late", "A task is late", some "task_1", none⟩
  let r : Timeline.Remark := ⟨"task_1", "user_1", "note", "", some [("hours", .int 2)]⟩
  have hw : Inbox.Serving w := ⟨rfl, rfl, by decide, by rintro o ⟨⟩; decide⟩
  have hdelivered : ((p.program s).run w).1 = .ok true := by
    obtain ⟨w₁, -, -, hrun⟩ := Inbox.run_post s p hw.reach
    have hadmits : Inbox.admits s w p.userId = true := rfl
    obtain ⟨w', hdeliver, -⟩ := Inbox.run_deliver s p w₁
    rw [hrun, if_pos hadmits, hdeliver]
  have hstorable : ∀ e ∈ (List.range 11).map alternate, e.Storable := by
    intro e he
    obtain ⟨n, -, rfl⟩ := List.mem_map.mp he
    exact ⟨nofun, hw.stamped⟩
  have hstart : Course s {} w := .start hw fun _ _ => rfl
  obtain ⟨w', hc⟩ := ((hstart.notify p hdelivered).append r rfl).records hstorable
  have hs : Settings.ofFields { now := w.clock } [("execution_history_limit", .int 10)] = .ok s := rfl
  obtain ⟨hbefore, hafter⟩ := faithful_of_course (Settings.roomy_of_check hs) hc
  refine ⟨_, w', hc, rfl, ⟨_, hbefore.users "user_1" (by decide), ?_⟩,
    ⟨_, _, rfl, (hafter "rule_2").rules "rule_2" none (by decide), ?_⟩,
    ⟨_, hbefore.inboxes "user_1" 50, rfl⟩, ⟨_, hbefore.timelines "task_1" 50, rfl⟩⟩
  · simp [alternate, List.range_succ, s, append, notify]
  · simp [alternate, List.range_succ, s, append, notify]

end History

end TaskAutomation
