import Mathlib.Data.List.Nodup
import Mathlib.Data.String.Basic
import TaskAutomation.Proofs.Rules.Reading

/-!
# Reading the rule store

In a store that is `Indexed` by a map `m` from ids to rules, with nothing out of reach:

* `run_get` : a rule is read as `m` has it;
* `Lists m p rs` : the rules of `m` with a property, each once, the oldest first; `run_load` : rules
  of given ids are listed so;
* `run_all`, `run_ofUser`, `run_active` : what each listing lists; `run_usersWithActive` : the users
  in strictly increasing order.
-/

namespace TaskAutomation.Rules

open Check Program

variable {w : World} {m : String → Option Rule}

/-- A stored rule is read back, and reading changes nothing. -/
theorem run_get (h : Indexed w.store m) (ho : w.outages = []) (id : String) :
    (get id).run w = (.ok (m id), w) := by
  obtain ⟨rows, hholds, hrows⟩ := h
  have hkeeps := hholds.row id
  have hrow := hrows id
  cases hm : m id with
  | none =>
    rw [hm] at hrow
    have hcells : ((Command.tableAll (.ruleDetail id)).run w.clock.instant w.store).1 = [] :=
      (hkeeps.table w.clock.instant).trans hrow
    unfold get
    rw [Operation.run_guard ho, run_bind_ok (run_read rfl w), hcells]
    rfl
  | some r =>
    rw [hm] at hrow
    obtain ⟨-, -, -, v, base, hcheck, htable, hbase⟩ := hrow
    rw [htable] at hkeeps
    have hconfig : ((tableOf v r).lookup "config").bind Cell.document? = some v := rfl
    rw [run_get_of_keeps ho hkeeps hconfig (hcheck _), assemble_tableOf, ← hbase]

/-! ## Loading -/

theorem noLater_iff (a b : Moment) : noLater a b = true ↔ a.instant ≤ b.instant := decide_eq_true_iff

/-- The rules of a map, each once, the oldest first, just those that have a property. -/
structure Lists (m : String → Option Rule) (p : Rule → Prop) (rs : List Rule) : Prop where
  once : (rs.map Rule.id).Nodup
  oldestFirst : rs.Pairwise fun a b => a.createdAt.instant ≤ b.createdAt.instant
  mem : ∀ r, r ∈ rs ↔ m r.id = some r ∧ p r

theorem Indexed.id_eq (h : Indexed w.store m) {id : String} {r : Rule} (hm : m id = some r) :
    r.id = id := by
  obtain ⟨rows, -, hrows⟩ := h
  have hrow := hrows id
  rw [hm] at hrow
  exact hrow.1

theorem Indexed.aware (h : Indexed w.store m) {id : String} {r : Rule} (hm : m id = some r) :
    r.createdAt.isNaive = false := by
  obtain ⟨rows, -, hrows⟩ := h
  have hrow := hrows id
  rw [hm] at hrow
  exact hrow.2.2.1

theorem Indexed.wellFormed (h : Indexed w.store m) {id : String} {r : Rule} (hm : m id = some r) :
    r.WellFormed := by
  obtain ⟨rows, -, hrows⟩ := h
  have hrow := hrows id
  rw [hm] at hrow
  exact hrow.2.1

theorem oldestFirst_ok {rs : List Rule} (h : ∀ r ∈ rs, r.createdAt.isNaive = false) :
    oldestFirst rs = .ok (rs.mergeSort fun a b => noLater a.createdAt b.createdAt) := by
  have hall : ((rs.map Rule.createdAt).all fun m => !m.isNaive) = true := by
    rw [List.all_eq_true]
    intro m hm
    obtain ⟨r, hr, rfl⟩ := List.mem_map.mp hm
    rw [h r hr]
    rfl
  unfold oldestFirst comparable
  rw [hall, Bool.or_true, if_pos rfl]

theorem pairwise_mergeSort_createdAt (rs : List Rule) :
    (rs.mergeSort fun a b => noLater a.createdAt b.createdAt).Pairwise
      fun a b => a.createdAt.instant ≤ b.createdAt.instant := by
  refine (List.pairwise_mergeSort ?_ ?_ rs).imp fun h => (noLater_iff _ _).mp h
  · intro a b c hab hbc
    rw [noLater_iff] at hab hbc ⊢
    exact le_trans hab hbc
  · intro a b
    rw [Bool.or_eq_true, noLater_iff, noLater_iff]
    exact le_total _ _

theorem Indexed.ids_sublist (h : Indexed w.store m) (ids : List String) :
    (((ids.map m).filterMap id).map Rule.id).Sublist ids := by
  induction ids with
  | nil => exact List.Sublist.slnil
  | cons i rest ih =>
    -- an id gives at most one rule, and that rule has this id
    cases hm : m i with
    | none => simpa [hm] using ih.cons i
    | some r => simpa [hm, h.id_eq hm] using ih.cons_cons i

/-- What is loaded are the stored rules of the ids. -/
theorem run_load (h : Indexed w.store m) (ho : w.outages = []) {ids : List String}
    (hids : ids.Nodup) :
    ∃ rs, (load ids).run w = (.ok rs, w) ∧ Lists m (fun r => r.id ∈ ids) rs := by
  have heach : (each get ids).run w = (.ok (ids.map m), w) := run_each fun id _ => run_get h ho id
  have hmem : ∀ r, r ∈ (ids.map m).filterMap id ↔ m r.id = some r ∧ r.id ∈ ids := by
    intro r
    rw [List.mem_filterMap]
    constructor
    · rintro ⟨r?, hr?, hr⟩
      obtain ⟨i, hi, rfl⟩ := List.mem_map.mp hr?
      have hm : m i = some r := hr
      rw [h.id_eq hm]
      exact ⟨hm, hi⟩
    · rintro ⟨hm, hi⟩
      exact ⟨some r, List.mem_map.mpr ⟨r.id, hi, hm⟩, rfl⟩
  have hsort := oldestFirst_ok fun r hr => h.aware ((hmem r).mp hr).1
  refine ⟨_, ?_, ?_, pairwise_mergeSort_createdAt ((ids.map m).filterMap id), ?_⟩
  · unfold load
    rw [Operation.run_guard ho, run_bind_ok heach]
    simp only [hsort, run_ofExcept]
  · have hperm := (List.mergeSort_perm ((ids.map m).filterMap id)
      fun a b => noLater a.createdAt b.createdAt).map Rule.id
    rw [hperm.nodup_iff]
    exact hids.sublist (h.ids_sublist ids)
  · intro r
    rw [List.mem_mergeSort]
    exact hmem r

/-! ## Indexes -/

/-- The members of an index are the ids of the rules that belong to it, each once. -/
theorem Indexed.members (h : Indexed w.store m) {k : Key} (hk : isIndex k = true) (now : Int) :
    (w.store.members now k).Nodup ∧
      ∀ r, m r.id = some r → (r.id ∈ w.store.members now k ↔ k ∈ indexKeys r) := by
  obtain ⟨rows, hholds, -⟩ := h
  obtain ⟨ids, hkeeps, hnodup, hmem⟩ := hholds.index k hk
  rw [hkeeps.members now]
  refine ⟨hnodup, fun r hr => ?_⟩
  rw [hmem]
  constructor
  · rintro ⟨r', hr', hkey⟩
    rw [hr] at hr'
    cases hr'
    exact hkey
  · intro hkey
    exact ⟨r, hr, hkey⟩

theorem mem_indexKeys_trigger (r : Rule) (t : Trigger) :
    .ruleTrigger t.name ∈ indexKeys r ↔ r.trigger = t := by
  simp only [indexKeys, List.mem_cons, Key.ruleTrigger.injEq, reduceCtorEq, List.not_mem_nil,
    or_false]
  constructor
  · intro h
    exact (Trigger.name_injective h).symm
  · rintro rfl
    rfl

theorem mem_indexKeys_user (r : Rule) (u : String) : .ruleUser u ∈ indexKeys r ↔ r.userId = u := by
  simp [indexKeys, eq_comm]

theorem mem_indexKeys_all (r : Rule) : .ruleAll ∈ indexKeys r := by simp [indexKeys]

/-! ## Listings -/

namespace Lists

variable {p q : Rule → Prop} {rs : List Rule}

theorem congr (h : Lists m p rs) (hpq : ∀ r, m r.id = some r → (p r ↔ q r)) : Lists m q rs where
  once := h.once
  oldestFirst := h.oldestFirst
  mem r := by
    rw [h.mem r]
    constructor
    · rintro ⟨hm, hp⟩
      exact ⟨hm, (hpq r hm).mp hp⟩
    · rintro ⟨hm, hq⟩
      exact ⟨hm, (hpq r hm).mpr hq⟩

theorem filter (h : Lists m p rs) (f : Rule → Bool) :
    Lists m (fun r => p r ∧ f r = true) (rs.filter f) where
  once := h.once.sublist (List.filter_sublist.map Rule.id)
  oldestFirst := h.oldestFirst.filter f
  mem r := by
    rw [List.mem_filter, h.mem r, and_assoc]

end Lists

theorem run_all (h : Indexed w.store m) (ho : w.outages = []) :
    ∃ rs, all.run w = (.ok rs, w) ∧ Lists m (fun _ => True) rs := by
  obtain ⟨hnodup, hmem⟩ := h.members (k := .ruleAll) rfl w.clock.instant
  obtain ⟨rs, hload, hlists⟩ := run_load h ho hnodup
  refine ⟨rs, ?_, hlists.congr fun r hr => ?_⟩
  · unfold all
    rw [Operation.run_guard ho, run_bind_ok (run_read rfl w)]
    exact hload
  · exact ⟨fun _ => trivial, fun _ => (hmem r hr).mpr (mem_indexKeys_all r)⟩

theorem run_ofUser (h : Indexed w.store m) (ho : w.outages = []) (u : String) :
    ∃ rs, (ofUser u).run w = (.ok rs, w) ∧ Lists m (fun r => r.userId = u) rs := by
  obtain ⟨hnodup, hmem⟩ := h.members (k := .ruleUser u) rfl w.clock.instant
  obtain ⟨rs, hload, hlists⟩ := run_load h ho hnodup
  refine ⟨rs, ?_, hlists.congr fun r hr => ?_⟩
  · unfold ofUser
    rw [Operation.run_guard ho, run_bind_ok (run_read rfl w)]
    exact hload
  · exact (hmem r hr).trans (mem_indexKeys_user r u)

theorem run_active (h : Indexed w.store m) (ho : w.outages = []) (u : String) (t : Trigger) :
    ∃ rs, (active u t).run w = (.ok rs, w)
      ∧ Lists m (fun r => (r.userId = u ∧ r.trigger = t) ∧ r.isActive = true) rs := by
  obtain ⟨hnodup, huser⟩ := h.members (k := .ruleUser u) rfl w.clock.instant
  obtain ⟨-, htrigger⟩ := h.members (k := .ruleTrigger t.name) rfl w.clock.instant
  obtain ⟨rs, hload, hlists⟩ := run_load h ho
    (hnodup.filter (w.store.members w.clock.instant (.ruleTrigger t.name)).contains)
  refine ⟨rs.filter Rule.isActive, ?_, (hlists.congr fun r hr => ?_).filter Rule.isActive⟩
  · unfold active
    rw [Operation.run_guard ho, run_bind_ok (run_read rfl w)]
    exact run_bind_ok hload
  · rw [List.mem_filter, List.contains_iff_mem, huser r hr, htrigger r hr, mem_indexKeys_user,
      mem_indexKeys_trigger]

theorem nodup_eraseDups (us : List String) : us.eraseDups.Nodup := by
  match us with
  | [] => exact List.nodup_nil
  | u :: rest =>
    rw [List.eraseDups_cons, List.nodup_cons]
    refine ⟨?_, nodup_eraseDups (rest.filter fun b => !b == u)⟩
    intro hu
    have hmem := List.mem_filter.mp (List.mem_eraseDups.mp hu)
    simp at hmem
termination_by us.length
decreasing_by exact Nat.lt_succ_of_le (List.length_filter_le _ _)

theorem eraseDups_sublist (us : List String) : us.eraseDups.Sublist us := by
  match us with
  | [] => exact List.Sublist.slnil
  | u :: rest =>
    rw [List.eraseDups_cons]
    exact ((eraseDups_sublist (rest.filter fun b => !b == u)).trans List.filter_sublist).cons_cons u
termination_by us.length
decreasing_by exact Nat.lt_succ_of_le (List.length_filter_le _ _)

/-- Users in order, each once, are in strictly increasing order. -/
theorem pairwise_lt_sorted (us : List String) :
    (us.mergeSort fun a b => decide (a ≤ b)).eraseDups.Pairwise (· < ·) := by
  have hsorted : (us.mergeSort fun a b => decide (a ≤ b)).Pairwise (· ≤ ·) := by
    refine (List.pairwise_mergeSort ?_ ?_ us).imp fun h => of_decide_eq_true h
    · intro a b c hab hbc
      rw [decide_eq_true_iff] at hab hbc ⊢
      exact le_trans hab hbc
    · intro a b
      rw [Bool.or_eq_true, decide_eq_true_iff, decide_eq_true_iff]
      exact le_total a b
  refine ((hsorted.sublist (eraseDups_sublist _)).and (nodup_eraseDups _)).imp ?_
  rintro a b ⟨hle, hne⟩
  exact lt_of_le_of_ne hle hne

theorem run_usersWithActive (h : Indexed w.store m) (ho : w.outages = []) (ts : List Trigger) :
    ∃ us, (usersWithActive ts).run w = (.ok us, w) ∧ us.Pairwise (· < ·)
      ∧ ∀ u, u ∈ us ↔ ∃ r, m r.id = some r ∧ r.isActive = true ∧ r.userId = u ∧ r.trigger ∈ ts := by
  cases ts with
  | nil =>
    refine ⟨[], ?_, List.Pairwise.nil, ?_⟩
    · unfold usersWithActive
      exact Operation.run_guard ho
    · intro u
      simp
  | cons t ts =>
    let ks := (t :: ts).map fun t => Key.ruleTrigger t.name
    have hids : ∀ r, m r.id = some r → (r.id ∈
        (ks.flatMap (w.store.members w.clock.instant)).eraseDups ↔ r.trigger ∈ t :: ts) := by
      intro r hr
      rw [List.mem_eraseDups, List.mem_flatMap]
      constructor
      · rintro ⟨k, hk, hid⟩
        obtain ⟨t', ht', rfl⟩ := List.mem_map.mp hk
        obtain ⟨-, hmem⟩ := h.members (k := .ruleTrigger t'.name) rfl w.clock.instant
        rw [hmem r hr, mem_indexKeys_trigger] at hid
        rwa [hid]
      · intro ht
        obtain ⟨-, hmem⟩ := h.members (k := .ruleTrigger r.trigger.name) rfl w.clock.instant
        refine ⟨_, List.mem_map.mpr ⟨r.trigger, ht, rfl⟩, ?_⟩
        rw [hmem r hr, mem_indexKeys_trigger]
    obtain ⟨rs, hload, hlists⟩ := run_load h ho
      (nodup_eraseDups (ks.flatMap (w.store.members w.clock.instant)))
    refine ⟨_, ?_, pairwise_lt_sorted ((rs.filter Rule.isActive).map Rule.userId), ?_⟩
    · unfold usersWithActive
      rw [Operation.run_guard ho]
      simp only
      rw [run_bind_ok (run_read rfl w)]
      exact run_bind_ok hload
    · intro u
      rw [List.mem_eraseDups, List.mem_mergeSort, List.mem_map]
      constructor
      · rintro ⟨r, hr, rfl⟩
        obtain ⟨hm, hid, hactive⟩ := ((hlists.filter Rule.isActive).mem r).mp hr
        exact ⟨r, hm, hactive, rfl, (hids r hm).mp hid⟩
      · rintro ⟨r, hm, hactive, rfl, ht⟩
        have hr := ((hlists.filter Rule.isActive).mem r).mpr ⟨hm, (hids r hm).mpr ht, hactive⟩
        exact ⟨r, hr, rfl⟩

end TaskAutomation.Rules
