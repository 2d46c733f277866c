import TaskAutomation.Proofs.Program.Run
import TaskAutomation.Proofs.Program.Within
import TaskAutomation.Proofs.Store.Members

/-!
# What runs leave in the store

* `Program.Within.lookup_run` : a program that keeps to an area of the store leaves the slots of all
  other keys as they are;
* `Program.setsOnce_run` : no run makes a set that repeats a member.
-/

namespace TaskAutomation.Program

variable {α : Type}

/-- A program leaves the slots outside its area as they are. -/
theorem Within.lookup_run {area : Key → Prop} {p : Program α} (h : p.Within (Call.Touches area))
    {k : Key} (hk : ¬ area k) (w : World) :
    (p.run w).2.store.slots.lookup k = w.store.slots.lookup k := by
  induction h generalizing w with
  | done a => rfl
  | fail f => rfl
  | @ask c next hc _ ih =>
    refine (ih _ _).trans ?_
    cases c with
    | store c => exact Command.lookup_run _ c w.store fun heq => hk (hc k heq)
    | _ => rfl

/-- No run makes a set that repeats a member. -/
theorem setsOnce_run (p : Program α) {w : World} (h : w.store.SetsOnce) :
    (p.run w).2.store.SetsOnce := by
  induction p generalizing w with
  | done a => exact h
  | fail f => exact h
  | ask c next ih =>
    refine ih _ ?_
    cases c with
    | store c => exact h.run _ c
    | _ => exact h

end TaskAutomation.Program
