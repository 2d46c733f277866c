import TaskAutomation.Proofs.Store.Kept
import TaskAutomation.Program

/-!
# The calls of a program

* `Program.Within ok p` : every call that the program may make, whatever it is answered, is one of
  `ok`; closed under what programs are put together with (`Within.bind`, `Within.attempt`,
  `Within.each`, `Within.guard`, `Within.guardFor`);
* `Call.Touches area c` : the call writes no key outside an area of the store, enters an operation
  for a record only where the history of its rule is in the area, and none for a rule on a trigger;
* `Call.Discreet area c` : it writes no key outside the area, enters operations for nothing only, and
  counts notifications at most;
* `Inert p` : the program writes nothing, whatever it enters and counts.
-/

namespace TaskAutomation

namespace Program

variable {α β : Type} {ok ok' : Call → Prop}

/-- Every call that a program may make is one of some calls. -/
inductive Within (ok : Call → Prop) : Program α → Prop where
  | done (a : α) : Within ok (.done a)
  | fail (f : Failure) : Within ok (.fail f)
  | ask {c : Call} {next : c.Reply → Program α} (hc : ok c) (h : ∀ r, Within ok (next r)) :
    Within ok (.ask c next)

namespace Within

theorem mono {p : Program α} (h : p.Within ok) (himp : ∀ c, ok c → ok' c) : p.Within ok' := by
  induction h with
  | done a => exact .done a
  | fail f => exact .fail f
  | ask hc h ih => exact .ask (himp _ hc) ih

theorem pure (a : α) : (Pure.pure a : Program α).Within ok := .done a

theorem bind {p : Program α} {g : α → Program β} (hp : p.Within ok) (hg : ∀ a, (g a).Within ok) :
    (p >>= g).Within ok := by
  show (Program.bind p g).Within ok
  induction hp with
  | done a => exact hg a
  | fail f => exact .fail f
  | ask hc h ih => exact .ask hc ih

theorem attempt {p : Program α} (h : p.Within ok) : p.attempt.Within ok := by
  induction h with
  | done a => exact .done _
  | fail f => exact .done _
  | ask hc h ih => exact .ask hc ih

theorem each {f : α → Program β} {items : List α} (h : ∀ a ∈ items, (f a).Within ok) :
    (Program.each f items).Within ok := by
  induction items with
  | nil => exact .done _
  | cons a rest ih =>
    refine .bind (h a List.mem_cons_self) fun b => ?_
    refine .bind (ih fun c hc => h c (List.mem_cons_of_mem a hc)) fun bs => ?_
    exact .done _

theorem ofExcept (r : Except Failure α) : (Program.ofExcept r).Within ok := by
  cases r with
  | ok a => exact .done a
  | error f => exact .fail f

theorem ofChecked (name : String) (c : Check.Checked α) : (Program.ofChecked name c).Within ok :=
  .ofExcept _

theorem call {c : Call} (hc : ok c) : (Program.call c).Within ok := .ask hc fun r => .done r

theorem store {c : Command} (hc : ok (.store c)) : (Program.store c).Within ok :=
  .ask hc fun r => .done r

theorem guarded {o : Operation} {argument : Option Value} {subject : Subject} {body : Program α}
    (ho : ok (.enter o argument subject)) (h : body.Within ok) :
    (o.guarded argument subject body).Within ok := by
  refine .bind (.call ho) fun message? => ?_
  cases message? with
  | some message => exact .fail _
  | none => exact h

theorem guard {o : Operation} {argument : Option Value} {body : Program α}
    (ho : ok (.enter o argument .nothing)) (h : body.Within ok) : (o.guard argument body).Within ok :=
  .guarded ho h

theorem guardFor {o : Operation} {subject : Subject} {body : Program α}
    (ho : ok (.enter o none subject)) (h : body.Within ok) : (o.guardFor subject body).Within ok :=
  .guarded ho h

end Within

end Program

namespace Call

/-- The call keeps to an area of the store, and enters no operation for a rule. -/
def Touches (area : Key → Prop) : Call → Prop
  | .store c => ∀ k ∈ c.written, area k
  | .enter _ _ (.run _ _) => False
  | .enter _ _ (.record r) => area (.executionsRule r.ruleId)
  | _ => True

theorem Touches.mono {area area' : Key → Prop} (himp : ∀ k, area k → area' k) (c : Call)
    (h : c.Touches area) : c.Touches area' := by
  unfold Touches at h ⊢
  split at h
  · exact fun k hk => himp k (h k hk)
  · exact h
  · exact himp _ h
  · trivial

/-- The call keeps to an area of the store, enters operations for nothing, and counts nothing that is
counted about rules. -/
def Discreet (area : Key → Prop) : Call → Prop
  | .store c => ∀ k ∈ c.written, area k
  | .enter _ _ .nothing => True
  | .enter .. => False
  | .count (.notification _) => True
  | .count _ => False
  | _ => True

namespace Discreet

variable {area : Key → Prop}

theorem touches (c : Call) (h : c.Discreet area) : c.Touches area := by
  cases c with
  | store c => exact h
  | enter o argument subject => cases subject with
    | nothing => trivial
    | _ => exact h.elim
  | _ => trivial

theorem mono {area' : Key → Prop} (himp : ∀ k, area k → area' k) (c : Call) (h : c.Discreet area) :
    c.Discreet area' := by
  unfold Discreet at h ⊢
  split at h
  · exact fun k hk => himp k (h k hk)
  all_goals exact h

/-- A command that writes nothing. -/
theorem read {c : Command} (h : c.written = none) : (Call.store c).Discreet area := by
  intro k hk
  rw [h] at hk
  cases hk

/-- A command that writes a key of the area. -/
theorem write {c : Command} {k : Key} (h : c.written = some k) (hk : area k) :
    (Call.store c).Discreet area := by
  intro l hl
  rw [h] at hl
  cases hl
  exact hk

end Discreet

/-- The call writes nothing. -/
def Inert : Call → Prop
  | .store c => c.written = none
  | _ => True

/-- A call that keeps to an area without keys writes nothing. -/
theorem inert_of_touches (c : Call) (h : c.Touches fun _ => False) : c.Inert := by
  cases c with
  | store c =>
    show c.written = none
    cases hk : c.written with
    | none => rfl
    | some k => exact (h k hk).elim
  | _ => trivial

end Call

/-- The program writes nothing. -/
abbrev Inert {α : Type} (p : Program α) : Prop := p.Within Call.Inert

namespace Program.Within

variable {area : Key → Prop}

theorem read {c : Command} (h : c.written = none) :
    (Program.store c).Within (Call.Discreet area) := .store (.read h)

theorem write {c : Command} {k : Key} (h : c.written = some k) (hk : area k) :
    (Program.store c).Within (Call.Discreet area) := .store (.write h hk)

theorem setting {ok : Call → Prop} (hnow : ok .now) : Program.setting.Within ok :=
  .bind (.call hnow) fun _ => .done _

/-- A discreet program touches its area at most. -/
theorem touches {α : Type} {p : Program α} (h : p.Within (Call.Discreet area)) :
    p.Within (Call.Touches area) := h.mono Call.Discreet.touches

/-- A program that touches nothing writes nothing. -/
theorem inert {α : Type} {p : Program α} (h : p.Within (Call.Touches fun _ => False)) : Inert p :=
  h.mono Call.inert_of_touches

end Program.Within

/-! ## Areas of the store -/

namespace Key

/-- What actions work on: tasks and their relations, inboxes, and timelines. -/
def isWork : Key → Prop
  | .taskDetail _ | .taskUser _ | .taskDue _ | .taskClient _ | .taskParent _ | .taskDependents _
  | .dependency _ | .assignment _ | .inbox _ | .notifyRate _ _ | .activity _ => True
  | _ => False

/-- Rules and the history of their runs. -/
def isRules : Key → Prop
  | .ruleDetail _ | .ruleAll | .ruleUser _ | .ruleTrigger _ | .executionsRule _
  | .executionsUser _ => True
  | _ => False

end Key

end TaskAutomation
