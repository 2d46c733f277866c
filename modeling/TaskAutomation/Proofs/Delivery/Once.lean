import TaskAutomation.Proofs.Delivery.Fate
import TaskAutomation.Proofs.Engine.Accounting
import TaskAutomation.Proofs.Program.Traffic

/-!
# Events are handled once

* `Delivery.regime` : deliveries start at any time on any way; in between others may do anything but
  touch the marks of events, put something out of reach, or set the clock back;
* `Traffic.tries s id` : the tries to mark an event, the first one first, and whether they did;
* `Delivery.Lasts` : each try that made a mark made it for a span of time; `Lasts.call` : the calls of
  deliveries keep it so, and `Kept.step` : so does a step;
* `Fate.of_try`, `Fate.idle`, `Fate.glances`, `Fate.tries` : what a delivery has done so far tells its
  fate;
* `Delivery.handled_once` : within this span of the first try to mark an event the delivery that made
  it runs the rules, and no other changes anything.
-/

namespace TaskAutomation

open Program

/-- A try to mark an event: who made it, when, and whether the event was not marked before. -/
structure Try where
  maker : Nat
  time : Int
  isFirst : Bool
  deriving DecidableEq, Repr

/-- The try to mark an event that a deed is. -/
def Deed.attempt? (id : String) (x : Deed) : Option Try :=
  match x.entry with
  | ⟨.store (.setIfFree (.processed k) _), isFirst⟩ =>
    if k = id then some ⟨x.maker, x.time, isFirst⟩ else none
  | _ => none

/-- The tries to mark an event, the oldest first. -/
def Traffic.tries {ι α : Type} (s : Traffic ι α) (id : String) : List Try :=
  s.deeds.filterMap (Deed.attempt? id)

/-- The slot of an event's mark. -/
def World.mark? (w : World) (id : String) : Option Slot := w.store.slots.lookup (.processed id)

namespace Delivery

variable {e : Engine}

/-- Deliveries start at any time; others leave the marks of events and the course of time alone. -/
def regime : Regime Way where
  starts := Way.isOpen
  others w w' := w'.outages = [] ∧ w.clock.instant ≤ w'.clock.instant ∧ ∀ id, w'.mark? id = w.mark? id

/-! ## Calls about marks -/

/-- The call writes a mark only as deliveries do. -/
def Marks (e : Engine) : Call → Prop
  | .store c => ∀ id, c.written = some (.processed id) →
      c = .setIfFree (.processed id) (.text "1") ∨ c = .expire (.processed id) e.settings.eventTtl
  | _ => True

theorem marks_of_spares (c : Call) (h : c.Spares) : Marks e c := by
  cases c with
  | store c => exact fun id hid => absurd hid (h id)
  | _ => trivial

theorem marks_handle (x : Event) : (handle e x).Within (Marks e) := by
  have hmark : (Claims.mark e.settings x.id).Within (Marks e) := by
    refine .guard trivial (.bind (.store ?_) fun isNew => ?_)
    · rintro id ⟨⟩
      exact .inl rfl
    · cases isNew with
      | false => exact .done _
      | true =>
        refine .bind (.store ?_) fun _ => .done _
        rintro id ⟨⟩
        exact .inr rfl
  refine .bind hmark fun isNew => ?_
  cases isNew with
  | false => exact .done _
  | true => exact .bind ((Scan.spares_handle e _).mono marks_of_spares) fun _ => .done _

theorem marks_deliver {way : Way} (hopen : way.isOpen) : (way.deliver e).Within (Marks e) := by
  have hglance : ∀ {log : List Entry}, Glances log → ∀ n ∈ log, Marks e n.call := by
    intro log h n hn
    rw [h n hn]
    trivial
  refine Ends.within_of_ends fun log result h => ?_
  rcases Way.ends_deliver hopen h with ⟨-, hlog⟩ | ⟨x, before, rest, outcome, -, rfl, hbefore, hhandle, -⟩
  · exact hglance hlog
  · intro n hn
    rcases List.mem_append.mp hn with hn | hn
    · exact hglance hbefore n hn
    · exact hhandle.within (marks_handle x) n hn

/-! ## A mark over time -/

/-- Each try that made a mark made it for a span of time, and there is no other mark in that time: a
mark that was made is there until its end, and no try is in the future. If the event was not marked
at the start, then the first try is one that made a mark. -/
structure Lasts (isNew : Prop) (span now : Int) (slot? : Option Slot) (tries : List Try) : Prop where
  past : ∀ a ∈ tries, a.time ≤ now
  apart : tries.Pairwise fun a b => a.isFirst = true → b.time ≤ a.time + span → b.isFirst = false
  lasting : ∀ a ∈ tries, a.isFirst = true →
    ∃ slot, slot? = some slot ∧ ∀ t ∈ slot.ends, a.time + span ≤ t
  free : isNew → tries = [] → slot? = none
  first : isNew → ∀ a ∈ tries.head?, a.isFirst = true

namespace Lasts

variable {isNew : Prop} {span now : Int} {slot? : Option Slot} {tries : List Try}

theorem start (hnew : isNew → slot? = none) : Lasts isNew span now slot? [] where
  past _ h := absurd h List.not_mem_nil
  apart := .nil
  lasting _ h := absurd h List.not_mem_nil
  free h _ := hnew h
  first _ _ h := nomatch h

theorem later (h : Lasts isNew span now slot? tries) {now' : Int} (hnow : now ≤ now') :
    Lasts isNew span now' slot? tries :=
  { h with past := fun a ha => Int.le_trans (h.past a ha) hnow }

/-- A try while there is a mark. -/
theorem refused {slot : Slot} (h : Lasts isNew span now (some slot) tries) (maker : Nat) :
    Lasts isNew span now (some slot) (tries ++ [⟨maker, now, false⟩]) where
  past a ha := by
    rcases List.mem_append.mp ha with ha | ha
    · exact h.past a ha
    · exact List.mem_singleton.mp ha ▸ Int.le_refl now
  apart := by
    refine List.pairwise_append.mpr ⟨h.apart, List.pairwise_singleton _ _, fun a _ b hb _ _ => ?_⟩
    exact List.mem_singleton.mp hb ▸ rfl
  lasting a ha hfirst := by
    rcases List.mem_append.mp ha with ha | ha
    · exact h.lasting a ha hfirst
    · cases List.mem_singleton.mp ha
      cases hfirst
  free _ hnil := absurd hnil (List.append_ne_nil_of_right_ne_nil _ (List.cons_ne_nil _ _))
  first hisNew a ha := by
    cases tries with
    | nil => cases h.free hisNew rfl
    | cons b rest => exact h.first hisNew a ha

/-- A try while there is no mark: it comes after the end of each mark before. -/
theorem marked (h : Lasts isNew span now slot? tries) (hdead : slot?.filter (Slot.isAlive now) = none)
    (maker : Nat) (c : Content) :
    Lasts isNew span now (some ⟨c, none⟩) (tries ++ [⟨maker, now, true⟩]) where
  past a ha := by
    rcases List.mem_append.mp ha with ha | ha
    · exact h.past a ha
    · exact List.mem_singleton.mp ha ▸ Int.le_refl now
  apart := by
    refine List.pairwise_append.mpr ⟨h.apart, List.pairwise_singleton _ _, fun a ha b hb hfirst hb' => ?_⟩
    cases List.mem_singleton.mp hb
    -- the earlier mark is still in the slot, and would be alive if the new try were within its span
    obtain ⟨slot, rfl, hends⟩ := h.lasting a ha hfirst
    refine absurd (Option.filter_eq_none_iff.mp hdead slot rfl) (not_not_intro ?_)
    unfold Slot.isAlive
    cases ht : slot.ends with
    | none => rfl
    | some t => exact decide_eq_true (Int.le_trans hb' (hends t ht))
  lasting _ _ _ := ⟨_, rfl, fun _ ht => nomatch ht⟩
  free _ hnil := absurd hnil (List.append_ne_nil_of_right_ne_nil _ (List.cons_ne_nil _ _))
  first hisNew a ha := by
    cases tries with
    | nil => cases ha; rfl
    | cons b rest => exact h.first hisNew a ha

/-- A mark gets its end. -/
theorem ended {slot : Slot} (h : Lasts isNew span now (some slot) tries) (c : Content) :
    Lasts isNew span now (some ⟨c, some (now + span)⟩) tries where
  past := h.past
  apart := h.apart
  lasting a ha _ := by
    refine ⟨_, rfl, fun t ht => ?_⟩
    cases ht
    exact Int.add_le_add_right (h.past a ha) span
  free hisNew hnil := nomatch h.free hisNew hnil
  first := h.first

end Lasts

/-! ## The invariant -/

/-- The time for which an event is marked. -/
def span (e : Engine) : Int := e.settings.eventTtl * Moment.second

theorem tries_append (w : World) (flights : List (Way × Program Answer)) (deeds : List Deed) (x : Deed)
    (id : String) : Traffic.tries ⟨w, flights, deeds ++ [x]⟩ id =
      Traffic.tries ⟨w, flights, deeds⟩ id ++ (x.attempt? id).toList := by
  unfold Traffic.tries
  rw [List.filterMap_append]
  cases hx : x.attempt? id with
  | none => simp [hx]
  | some a => simp [hx]

/-- The call does not write the mark of an event. -/
def Passes (id : String) (c : Call) : Prop := ∀ k, c = .store k → k.written ≠ some (.processed id)

theorem Passes.attempt?_eq_none {id : String} {c : Call} (h : Passes id c) (maker : Nat) (time : Int) (r : c.Reply) :
    Deed.attempt? id ⟨maker, time, ⟨c, r⟩⟩ = none := by
  unfold Deed.attempt?
  dsimp only
  split
  · next k cell isFirst heq =>
    cases heq
    refine if_neg ?_
    rintro rfl
    exact h _ rfl rfl
  · rfl

theorem Passes.mark? {id : String} {c : Call} (h : Passes id c) (w : World) :
    (w.answer c).2.mark? id = w.mark? id := by
  cases c with
  | store k => exact Command.lookup_run _ k _ (h k rfl)
  | now => rfl
  | fresh c => rfl
  | enter o argument subject => rfl
  | count m => rfl

section Answers

variable {w : World} {id : String} {slot : Slot}

theorem mark?_markOf (h : w.store.slot? w.clock.instant (.processed id) = none) :
    (w.answer (markOf id)).1 = true ∧
      (w.answer (markOf id)).2.mark? id = some ⟨.cell (.text "1"), none⟩ := by
  have hfind : w.store.find? w.clock.instant (.processed id) = none := by rw [Store.find?, h]; rfl
  simp only [World.answer, Command.run, hfind, Option.isSome_none, Bool.false_eq_true, if_false]
  exact ⟨trivial, (Store.lookup_put _ _ _ _).trans (if_pos rfl)⟩

theorem markOf_refused (h : w.store.slot? w.clock.instant (.processed id) = some slot) :
    w.answer (markOf id) = (false, w) := by
  have hfind : w.store.find? w.clock.instant (.processed id) = some slot.content := by
    rw [Store.find?, h]; rfl
  simp only [World.answer, Command.run, hfind, Option.isSome_some, if_true]

theorem mark?_endOf (h : w.store.slot? w.clock.instant (.processed id) = some slot) :
    (w.answer (endOf e id)).2.mark? id = some ⟨slot.content, some (w.clock.instant + span e)⟩ := by
  have hfind : w.store.find? w.clock.instant (.processed id) = some slot.content := by
    rw [Store.find?, h]; rfl
  simp only [World.answer, Command.run, hfind]
  exact (Store.lookup_put _ _ _ _).trans (if_pos rfl)

theorem endOf_idle (h : w.store.slot? w.clock.instant (.processed id) = none) :
    (w.answer (endOf e id)).2 = w := by
  have hfind : w.store.find? w.clock.instant (.processed id) = none := by rw [Store.find?, h]; rfl
  simp only [World.answer, Command.run, hfind]

end Answers

/-- A call of a delivery keeps the marks, with the try that it may be. -/
theorem Lasts.call {id : String} {isNew : Prop} {w : World} {tries : List Try} {c : Call}
    (h : Lasts isNew (span e) w.clock.instant (w.mark? id) tries) (hc : Marks e c) (maker : Nat) :
    Lasts isNew (span e) w.clock.instant ((w.answer c).2.mark? id) (tries ++
      (Deed.attempt? id ⟨maker, w.clock.instant, ⟨c, (w.answer c).1⟩⟩).toList) := by
  -- a delivery writes the mark with two commands only; all other calls pass it by
  by_cases hpass : Passes id c
  · rw [hpass.attempt?_eq_none, hpass.mark?, Option.toList_none, List.append_nil]
    exact h
  unfold Passes at hpass
  push Not at hpass
  obtain ⟨k, rfl, hk⟩ := hpass
  rcases hc id hk with rfl | rfl
  · -- the mark is set if there is none
    have htry : ∀ isFirst, Deed.attempt? id ⟨maker, w.clock.instant, ⟨markOf id, isFirst⟩⟩ =
        some ⟨maker, w.clock.instant, isFirst⟩ := fun _ => if_pos rfl
    rw [htry, Option.toList_some]
    cases hslot : w.store.slot? w.clock.instant (.processed id) with
    | none =>
      obtain ⟨hfirst, hmark⟩ := mark?_markOf hslot
      rw [hfirst, hmark]
      exact h.marked hslot maker _
    | some slot =>
      obtain ⟨hmark, -⟩ := Option.filter_eq_some_iff.mp hslot
      replace hmark : w.mark? id = some slot := hmark
      rw [markOf_refused hslot, hmark]
      exact (hmark ▸ h).refused maker
  · -- the mark gets its end if it is there
    have htry : ∀ r, Deed.attempt? id ⟨maker, w.clock.instant, ⟨endOf e id, r⟩⟩ = none := fun _ => rfl
    rw [htry, Option.toList_none, List.append_nil]
    cases hslot : w.store.slot? w.clock.instant (.processed id) with
    | none =>
      rw [endOf_idle hslot]
      exact h
    | some slot =>
      obtain ⟨hmark, -⟩ := Option.filter_eq_some_iff.mp hslot
      replace hmark : w.mark? id = some slot := hmark
      rw [mark?_endOf hslot]
      exact (hmark ▸ h).ended slot.content

variable {id : String} {isNew : Prop} {s s' : Traffic Way Answer}

/-- The marks of an event last for their time. -/
def Kept (e : Engine) (id : String) (isNew : Prop) (s : Traffic Way Answer) : Prop :=
  Lasts isNew (span e) s.world.clock.instant (s.world.mark? id) (s.tries id)

theorem Kept.step (h : Kept e id isNew s) (hsound : Traffic.Sound (Way.deliver e) regime s)
    (hstep : Traffic.Step (Way.deliver e) regime s s') : Kept e id isNew s' := by
  cases hstep with
  | start hi => exact h
  | others hw =>
    obtain ⟨-, hclock, hmark⟩ := hw
    show Lasts isNew (span e) _ (World.mark? _ id) (s.tries id)
    rw [hmark id]
    exact h.later hclock
  | @call before after way c next hflights =>
    have hget : s.flights[before.length]? = some (way, .ask c next) := by
      rw [hflights, List.getElem?_append_right (Nat.le_refl _), Nat.sub_self]
      rfl
    have hwithin : (Program.ask c next).Within (Marks e) :=
      (hsound.after _ _ hget).within (marks_deliver (hsound.started _ (List.mem_of_getElem? hget)))
    have hc : Marks e c := by
      cases hwithin with
      | ask hc => exact hc
    unfold Kept
    rw [tries_append, show (s.world.answer c).2.clock = s.world.clock from World.answer_clock _ _]
    exact h.call hc _

/-! ## What the tries come to -/

section Fates

variable {way : Way} {log : List Entry} {result : Except Failure Answer}

theorem Glances.not_mem {n : Entry} (h : Glances log) (hn : n.call ≠ .now) : n ∉ log :=
  fun hmem => hn (h n hmem)

theorem eq_nil_of_append_eq_concat {α : Type} {a b : α} {log more before : List α}
    (h : log ++ more = before ++ [b]) (hmem : a ∈ log) (hbefore : a ∉ before) : more = [] := by
  rcases more.eq_nil_or_concat with rfl | ⟨init, last, rfl⟩
  · rfl
  · rw [List.concat_eq_append, ← List.append_assoc] at h
    obtain ⟨hinit, -⟩ := List.append_inj' h rfl
    exact absurd (hinit ▸ List.mem_append_left init hmem) hbefore

/-- A delivery that tries to mark an event is one of it; if it does so then the rules are run,
and otherwise the try is its last call. -/
theorem Fate.of_try {more : List Entry} (h : Fate e way (log ++ more) result) {id : String} {c : Cell}
    {isFirst : Bool} (hmem : ⟨.store (.setIfFree (.processed id) c), isFirst⟩ ∈ log) :
    ∃ x, way.read? log = some x ∧ x.id = id ∧
      if isFirst then Ran e way x (log ++ more) result
      else more = [] ∧ result = way.answer e x (.ok none) := by
  have hnow : (Entry.mk (.store (.setIfFree (.processed id) c)) isFirst).call ≠ .now := nofun
  have hall := List.mem_append_left more hmem
  have hread : way.read? log = way.read? (log ++ more) :=
    (way.read?_append (List.ne_nil_of_mem hmem) more).symm
  cases h with
  | unread hnone hlog => exact absurd hall (hlog.not_mem hnow)
  | @refused x before hx hbefore hlog hresult =>
    rw [show before ++ [entered x.id, ⟨markOf x.id, false⟩] =
      (before ++ [entered x.id]) ++ [⟨markOf x.id, false⟩] by simp] at hlog
    have hnot : ⟨.store (.setIfFree (.processed id) c), isFirst⟩ ∉ before ++ [entered x.id] := by
      intro h
      rcases List.mem_append.mp h with h | h
      · exact hbefore.not_mem hnow h
      · cases List.mem_singleton.mp h
    have heq := (List.mem_append.mp (hlog ▸ hall)).resolve_left hnot
    cases List.mem_singleton.mp heq
    exact ⟨x, hread.trans hx, rfl, eq_nil_of_append_eq_concat hlog hmem hnot, hresult⟩
  | @ran x hx h =>
    have hran := h
    obtain ⟨before, scan, outcome, hbefore, hlog, hscan, hresult⟩ := hran
    have hspares : ⟨.store (.setIfFree (.processed id) c), isFirst⟩ ∉ scan := fun h =>
      hscan.within (Scan.spares_handle e x.occurrence) _ h id rfl
    rw [hlog] at hall
    rcases List.mem_append.mp hall with hall | hall
    · exact absurd hall (hbefore.not_mem hnow)
    rcases List.mem_cons.mp hall with heq | hall
    · cases heq
    rcases List.mem_cons.mp hall with heq | hall
    · cases heq
      exact ⟨x, hread.trans hx, rfl, h⟩
    rcases List.mem_cons.mp hall with heq | hall
    · cases heq
    · exact absurd hall hspares

/-- A delivery that has marked no event has changed nothing. -/
theorem Fate.idle {more : List Entry} (h : Fate e way (log ++ more) result)
    (hnone : ∀ id, ⟨markOf id, true⟩ ∉ log) : ∀ n ∈ log, n.Idle := by
  have hglance : ∀ {before : List Entry}, Glances before → ∀ n ∈ before, n.Idle :=
    fun hbefore n hn => Entry.idle_now (hbefore n hn)
  cases h with
  | unread _ hlog => exact fun n hn => hglance hlog n (List.mem_append_left more hn)
  | @refused x before hx hbefore hlog hresult =>
    intro n hn
    have hall := hlog ▸ List.mem_append_left more hn
    rcases List.mem_append.mp hall with hall | hall
    · exact hglance hbefore n hall
    rcases List.mem_cons.mp hall with rfl | hall
    · exact Entry.idle_enter
    · cases List.mem_singleton.mp hall
      exact Entry.idle_refused
  | @ran x hx h =>
    obtain ⟨before, scan, outcome, hbefore, hlog, hscan, hresult⟩ := h
    -- the log ends before the mark
    have hfront : ∃ rest, before ++ [entered x.id] = log ++ rest := by
      rw [show before ++ entered x.id :: ⟨markOf x.id, true⟩ :: ⟨endOf e x.id, ()⟩ :: scan =
        (before ++ [entered x.id]) ++ ⟨markOf x.id, true⟩ :: ⟨endOf e x.id, ()⟩ :: scan by simp] at hlog
      rcases List.append_eq_append_iff.mp hlog with ⟨rest, hfront, -⟩ | ⟨rest, hfront, htail⟩
      · exact ⟨rest, hfront⟩
      · cases rest with
        | nil => exact ⟨[], by rw [hfront]; simp⟩
        | cons n rest =>
          obtain ⟨rfl, -⟩ := List.cons_eq_cons.mp htail
          exact absurd (hfront ▸ List.mem_append_right _ List.mem_cons_self) (hnone x.id)
    obtain ⟨rest, hfront⟩ := hfront
    intro n hn
    rcases List.mem_append.mp (hfront ▸ List.mem_append_left rest hn) with hall | hall
    · exact hglance hbefore n hall
    · cases List.mem_singleton.mp hall
      exact Entry.idle_enter

/-- A delivery from which no event can be read looks at the clock at most. -/
theorem Fate.glances {more : List Entry} (h : Fate e way (log ++ more) result)
    (hnone : way.read? log = none) : Glances log := by
  cases log with
  | nil => exact glances_nil
  | cons n rest =>
    have hread := way.read?_append (List.cons_ne_nil n rest) more
    rw [hnone] at hread
    cases h with
    | unread _ hlog => exact fun n hn => hlog n (List.mem_append_left more hn)
    | refused hx => cases hread.symm.trans hx
    | ran hx => cases hread.symm.trans hx

/-- A delivery from which an event is read tries to mark it before it ends. -/
theorem Fate.tries (h : Fate e way log result) {x : Event} (hx : way.read? log = some x) :
    ∃ isFirst, ⟨markOf x.id, isFirst⟩ ∈ log := by
  cases h with
  | unread hnone => cases hnone.symm.trans hx
  | refused hx' hbefore hlog =>
    cases hx'.symm.trans hx
    exact ⟨false, hlog ▸ List.mem_append_right _ (List.mem_cons_of_mem _ List.mem_cons_self)⟩
  | ran hx' h =>
    cases hx'.symm.trans hx
    obtain ⟨before, scan, outcome, -, rfl, -⟩ := h
    exact ⟨true, List.mem_append_right _ (List.mem_cons_of_mem _ List.mem_cons_self)⟩

end Fates

/-! ## The main result -/

theorem mem_log_of_mem_tries {a : Try} (ha : a ∈ s.tries id) :
    ∃ c, ⟨.store (.setIfFree (.processed id) c), a.isFirst⟩ ∈ s.log a.maker ∧
      ∃ x ∈ s.deeds, x.maker = a.maker := by
  obtain ⟨x, hx, hsome⟩ := List.mem_filterMap.mp ha
  unfold Deed.attempt? at hsome
  split at hsome
  · next k c isFirst heq =>
    split at hsome
    · next hk =>
      cases hsome
      subst hk
      exact ⟨c, List.mem_map.mpr ⟨x, List.mem_filter.mpr ⟨hx, beq_self_eq_true _⟩, heq⟩, x, hx, rfl⟩
    · cases hsome
  · cases hsome

theorem mem_tries_of_mem_log {i : Nat} {isFirst : Bool} (h : ⟨markOf id, isFirst⟩ ∈ s.log i) :
    ∃ a ∈ s.tries id, a.maker = i := by
  obtain ⟨⟨maker, time, entry⟩, hx, heq⟩ := List.mem_map.mp h
  obtain ⟨hx, hmaker⟩ := List.mem_filter.mp hx
  cases heq
  exact ⟨⟨maker, time, isFirst⟩, List.mem_filterMap.mpr ⟨_, hx, if_pos rfl⟩, eq_of_beq hmaker⟩

/-- Whatever the calls of deliveries are interleaved with, with nothing out of reach:

* an event that was not marked at the start is marked by the first delivery that tries to;
* within the time of a mark from the try that made it no other try makes one;
* the delivery that a try is made for is one of the event; if the try made the mark, then it runs the
  rules on the event; otherwise it is at its end, and its answer is that of a repetition;
* a delivery that has made no mark has changed nothing, one from which no event can be read makes none,
  and any other has tried to mark its event when it ends. -/
theorem handled_once (id : String) (hflights : s.flights = []) (hdeeds : s.deeds = [])
    (hreach : s.world.outages = []) (h : Traffic.Leads (Way.deliver e) regime s s') :
    (s.world.mark? id = none → ∀ a ∈ (s'.tries id).head?, a.isFirst = true) ∧
      ((s'.tries id).Pairwise fun a b =>
        a.isFirst = true → b.time ≤ a.time + span e → b.isFirst = false) ∧
      (∀ a ∈ s'.tries id, ∃ way left x, s'.flights[a.maker]? = some (way, left) ∧
        way.read? (s'.log a.maker) = some x ∧ x.id = id ∧
        if a.isFirst then
          ∀ more result, Clean more → left.Ends more result →
            Ran e way x (s'.log a.maker ++ more) result
        else left.Ends [] (way.answer e x (.ok none))) ∧
      ∀ i way left, s'.flights[i]? = some (way, left) →
        ((∀ id, ⟨markOf id, true⟩ ∉ s'.log i) → ∀ n ∈ s'.log i, n.Idle) ∧
        (way.read? (s'.log i) = none → Glances (s'.log i)) ∧
        (left.isOver = true → ∀ x, way.read? (s'.log i) = some x → ∃ a ∈ s'.tries x.id, a.maker = i) := by
  have hsound : Traffic.Sound (Way.deliver e) regime s' := Traffic.sound hflights hdeeds h
  have hothers : ∀ w w', regime.others w w' → w'.outages = [] := fun _ _ hw => hw.1
  have hclear : s'.Clear := Traffic.clear hothers hdeeds hreach h
  have hstart : Kept e id (s.world.mark? id = none) s := by
    unfold Kept
    rw [show s.tries id = [] by rw [Traffic.tries, hdeeds, List.filterMap_nil]]
    exact .start fun hnone => hnone
  have hkept : Kept e id (s.world.mark? id = none) s' := by
    refine (h.induct (p := fun s => Traffic.Sound (Way.deliver e) regime s ∧ Kept e id _ s)
      ⟨Traffic.sound hflights hdeeds .refl, hstart⟩ fun a b hab hstep => ?_).2
    exact ⟨hab.1.step hstep, hab.2.step hab.1 hstep⟩
  have hfate : ∀ i way left more result, s'.flights[i]? = some (way, left) → Clean more →
      left.Ends more result → Fate e way (s'.log i ++ more) result :=
    fun i way left more result hget hmore hends =>
      Way.fate (hsound.started _ (List.mem_of_getElem? hget)) (hsound.ends hget hends)
        ((hclear.log i).append hmore)
  refine ⟨hkept.first, hkept.apart, fun a ha => ?_, fun i way left hget => ?_⟩
  · obtain ⟨c, hmem, x, hx, hmaker⟩ := mem_log_of_mem_tries ha
    obtain ⟨⟨way, left⟩, hget⟩ : ∃ f, s'.flights[a.maker]? = some f :=
      ⟨_, List.getElem?_eq_getElem (hmaker ▸ hsound.makers x hx)⟩
    have hended := fun more result hmore hends =>
      (hfate a.maker way left more result hget hmore hends).of_try hmem
    -- what is left ends in some way, for which the event is read
    obtain ⟨y, hread, hid, hlast⟩ :=
      hended _ _ (clean_trace left hclear.reach) (left.ends_trace s'.world)
    refine ⟨way, left, y, hget, hread, hid, ?_⟩
    cases hfirst : a.isFirst with
    | false =>
      rw [hfirst, if_neg Bool.false_ne_true] at hlast
      have hleft := left.ends_trace s'.world
      rw [hlast.1, hlast.2] at hleft
      exact hleft
    | true =>
      intro more result hmore hends
      obtain ⟨y', hread', -, hlast'⟩ := hended more result hmore hends
      cases hread.symm.trans hread'
      rw [hfirst, if_pos rfl] at hlast'
      exact hlast'
  · have hended := hfate i way left _ _ hget (clean_trace left hclear.reach) (left.ends_trace s'.world)
    refine ⟨hended.idle, hended.glances, fun hover x hx => ?_⟩
    obtain ⟨result, hend⟩ := ends_of_isOver hover
    have hended := hfate i way left [] result hget .nil hend
    rw [List.append_nil] at hended
    obtain ⟨isFirst, hmem⟩ := hended.tries hx
    exact mem_tries_of_mem_log hmem

/-- A task was completed. -/
def completion : Event where
  id := "e-1"
  type := .taskCompleted
  task := Engine.overdueTask.task
  oldStatus := none
  previousTask := none
  timeEntry := none
  metadata := []
  timestamp := Moment.ofInstant 0

/-- The event of a completed task came in twice, and both deliveries tried to mark it in turns. -/
def twice : Traffic Way Answer :=
  .play [0, 1, 1, 0, 1] ⟨{ clock := Moment.ofInstant 0 }, [(.event completion, Way.deliver {} (.event completion)),
    (.event completion, Way.deliver {} (.event completion))], []⟩

/-- Of two deliveries of an event the one that is first to mark it runs the rules, the other ends. -/
theorem handled_once_of_twice :
    twice.tries "e-1" = [⟨1, 0, true⟩, ⟨0, 0, false⟩] ∧
      (∀ more result, Clean more → (∃ left, twice.flights[1]? = some (.event completion, left) ∧
        left.Ends more result) → Ran {} (.event completion) completion (twice.log 1 ++ more) result) ∧
      ∃ left, twice.flights[0]? = some (.event completion, left) ∧
        left.Ends [] (.ok (.event none)) := by
  have hstart : ∀ flights : List (Way × Program Answer), Traffic.Step (Way.deliver {}) regime
      ⟨{ clock := Moment.ofInstant 0 }, flights, []⟩ ⟨{ clock := Moment.ofInstant 0 }, flights ++
        [(.event completion, Way.deliver {} (.event completion))], []⟩ :=
    fun _ => .start (show regime.starts (Way.event completion) from trivial)
  have hleads : Traffic.Leads (Way.deliver {}) regime ⟨{ clock := Moment.ofInstant 0 }, [], []⟩ twice :=
    .head (hstart []) (.head (hstart _) (Traffic.leads_play _ _))
  have htries : twice.tries "e-1" = [⟨1, 0, true⟩, ⟨0, 0, false⟩] := by decide +kernel
  obtain ⟨-, -, hfates, -⟩ := handled_once "e-1" rfl rfl rfl hleads
  rw [htries] at hfates
  refine ⟨htries, ?_, ?_⟩
  · obtain ⟨way, left, x, hget, hread, hid, hran⟩ := hfates ⟨1, 0, true⟩ List.mem_cons_self
    have hway : twice.flights[1]?.map Prod.fst = some (Way.event completion) := rfl
    rw [hget] at hway
    cases hway
    cases (Way.read?_event completion _).symm.trans hread
    rintro more result hmore ⟨left', hget', hends⟩
    cases hget.symm.trans hget'
    exact hran more result hmore hends
  · obtain ⟨way, left, x, hget, hread, hid, hends⟩ :=
      hfates ⟨0, 0, false⟩ (List.mem_cons_of_mem _ List.mem_cons_self)
    have hway : twice.flights[0]?.map Prod.fst = some (Way.event completion) := rfl
    rw [hget] at hway
    cases hway
    cases (Way.read?_event completion _).symm.trans hread
    exact ⟨left, hget, hends⟩

end Delivery

end TaskAutomation
