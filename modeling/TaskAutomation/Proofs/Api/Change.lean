import TaskAutomation.Proofs.Api.Agreement
import TaskAutomation.Proofs.Api.Patch

/-!
# Changes of parts of a rule

* `Service.run_changeRule` : a stored rule is changed by way of its object, if the rule that the patch
  makes of it has no errors;
* `Service.Changed e r w old new` : a request makes of a stored rule another, and leaves the rest;
* `Service.changeRule_exact` : a request that is accepted makes just the rule that its body describes,
  and made again it changes the moment alone, as long as the directives of that rule stand for moments;
  `Service.change_not_exact` : at the end of the calendar they do not.
-/

namespace TaskAutomation.Api

open Check Program

namespace Service

variable {e : Engine} {r : Request} {w : World} {f : Fields} {p : RulePatch} {old : Rule} {id : String}

/-- A stored rule is changed by way of its object. -/
theorem run_changeRule (hbody : bodyOf r = .ok (some (.obj f)))
    (hp : RulePatch.check { now := w.clock, readable := true } (.obj f) = .ok p)
    (hget : (Rules.get id).run w = (.ok (some old), w)) (hwell : old.WellFormed) :
    (changeRule id r).run w =
      if (Review.rule w.clock (p.applied old old.updatedAt).fields).isValid then
        Program.run (do
          let changed ← Rules.update id (p.applied old old.updatedAt).reread
          return answerRule id changed) w
      else (.error (.invalidRule (Review.rule w.clock (p.applied old old.updatedAt).fields).errors),
        w) := by
  unfold changeRule
  rw [run_withBody hbody, hp]
  unfold withRule
  dsimp only [Checked.under]
  rw [run_bind_ok hget]
  dsimp only
  rw [RulePatch.merge_changes, run_bind, run_ensureValid]
  by_cases hvalid : (Review.rule w.clock (p.applied old old.updatedAt).fields).isValid = true
  · have hcheck : Rule.check { now := w.clock } (.obj (p.applied old old.updatedAt).fields) =
        .ok (p.applied old old.updatedAt).reread :=
      Rule.ofFields_fields (RulePatch.wellFormed_applied hwell hvalid) _
    rw [if_pos hvalid, if_pos hvalid]
    dsimp only
    rw [run_bind_ok (run_setting w), hcheck]
    rfl
  · rw [if_neg hvalid, if_neg hvalid]

theorem status_of_bodyOf {refusal : Response} (h : bodyOf r = .error refusal) :
    refusal.status ≠ 200 := by
  unfold bodyOf at h
  split at h
  · cases h
  · dsimp only at h
    split at h <;> cases h <;> exact nofun

/-- A request that is answered with status 200 has a body that passes. -/
theorem body_of_status {α : Type} {check : Checker α} {next : α → Program Response}
    {response : Response} (h : ((withBody check r next).run w).1 = .ok response)
    (hstatus : response.status = 200) : ∃ v a, bodyOf r = .ok (some v) ∧
      check { now := w.clock, readable := true } v = .ok a := by
  cases hbody : bodyOf r with
  | error refusal =>
    unfold withBody at h
    rw [hbody] at h
    cases h
    exact absurd hstatus (status_of_bodyOf hbody)
  | ok v? =>
    cases v? with
    | none =>
      unfold withBody at h
      rw [hbody] at h
      exact absurd hstatus (status_of_refuse h)
    | some v =>
      rw [run_withBody hbody] at h
      cases hcheck : check { now := w.clock, readable := true } v with
      | ok a => exact ⟨v, a, rfl, hcheck⟩
      | issues found =>
        rw [hcheck] at h
        exact absurd hstatus (status_of_refuse h)

/-- A stored rule gives way to another under its id. -/
structure Changed (e : Engine) (r : Request) (w : World) (old new : Rule) : Prop where
  response : ((respond e r).run w).1 = .ok (.success new.value)
  readBack : ∀ later, later.store = ((respond e r).run w).2.store → later.outages = [] →
    Rules.Stored later new ∧ ∀ r', Route.find r' = .ok (.getRule new.id) →
      ((respond e r').run later).1 = ((respond e r).run w).1
  indexed : ∀ now trigger, new.id ∈ ((respond e r).run w).2.store.members now (.ruleTrigger trigger) ↔
    trigger = new.trigger.name
  others : ∀ other, other.id ≠ new.id →
    (Rules.Stored ((respond e r).run w).2 other ↔ Rules.Stored w other)
  unmoved : ∀ id, id ≠ new.id → ∀ now trigger,
    (id ∈ ((respond e r).run w).2.store.members now (.ruleTrigger trigger) ↔
      id ∈ w.store.members now (.ruleTrigger trigger))
  frame : ∀ k, k ≠ .ruleDetail new.id → (∀ t, k = .ruleTrigger t → old.trigger = new.trigger) →
    ((respond e r).run w).2.store.slots.lookup k = w.store.slots.lookup k
  used : Rules.Used ((respond e r).run w).2

section
variable (h : Rules.Used w) (hold : Rules.Stored w old)
  (hfind : Route.find r = .ok (.changeRule old.id)) (hbody : bodyOf r = .ok (some (.obj f)))
  (hp : RulePatch.check { now := w.clock, readable := true } (.obj f) = .ok p)
include h hold hfind hbody hp

/-- A patch that makes a rule with errors is refused, and the world stays as it is. -/
theorem run_respond_invalid
    (hinvalid : (Review.rule w.clock (p.applied old w.clock).fields).isValid = false) :
    ∃ response, (respond e r).run w = (.ok response, w) ∧ response.status = 422 := by
  obtain ⟨m, hm, hstored, hget⟩ := h.settled_of_stored hold
  have hrun := run_changeRule hbody hp hget (hm.indexed.wellFormed hstored)
  rw [RulePatch.review_applied p old w.clock w.clock, if_neg (Bool.eq_false_iff.mp hinvalid)] at hrun
  exact ⟨_, run_respond_of_serve hfind hrun, rfl⟩

/-- A patch that makes a rule without errors puts it in the place of the stored one. -/
theorem run_respond_valid
    (hvalid : (Review.rule w.clock (p.applied old w.clock).fields).isValid = true) :
    ∃ m w', (respond e r).run w = (.ok (.success (p.storable.applied old w.clock).value), w') ∧
      Rules.Indexed w.store m ∧
      Rules.Indexed w'.store (Function.update m old.id (some (p.storable.applied old w.clock))) ∧
      (∀ k, k ≠ .ruleDetail old.id →
        (∀ t, k = .ruleTrigger t → old.trigger = (p.storable.applied old w.clock).trigger) →
        w'.store.slots.lookup k = w.store.slots.lookup k) ∧
      Rules.Used w' := by
  obtain ⟨m, hm, hstored, hget⟩ := h.settled_of_stored hold
  obtain ⟨-, hc, ho⟩ := h.settled
  have hwell := hm.indexed.wellFormed hstored
  have hstorable := hm.storable old.id old hstored
  have hvalid' : (Review.rule w.clock (p.applied old old.updatedAt).fields).isValid = true := by
    rwa [RulePatch.review_applied p old w.clock w.clock]
  have hnew : (p.applied old old.updatedAt).reread.WellFormed :=
    (RulePatch.wellFormed_applied hwell hvalid').reread
  obtain ⟨w', hupdate, hindexed, hframe⟩ := Rules.run_update hm.indexed ho hc.toShown hstored hnew
  rw [RulePatch.redefined_reread hstorable] at hupdate hindexed
  rw [(RulePatch.storable_applied hstorable hc).stored_eq] at hindexed
  have hchange := run_changeRule hbody hp hget hwell
  rw [hvalid', if_pos rfl, run_bind_ok hupdate] at hchange
  have hused := h.edit (.update old.id (p.applied old old.updatedAt).reread) hnew
  rw [show (Rules.Edit.update old.id (p.applied old old.updatedAt).reread).program =
    do let _ ← Rules.update old.id (p.applied old old.updatedAt).reread from rfl, run_discard,
    hupdate] at hused
  exact ⟨m, w', run_respond_of_serve hfind hchange, hm.indexed, hindexed, hframe, hused⟩

/-- A patch that makes a rule without errors takes effect. -/
theorem changed_of_valid
    (hvalid : (Review.rule w.clock (p.applied old w.clock).fields).isValid = true) :
    Changed e r w old (p.storable.applied old w.clock) := by
  obtain ⟨m, w', hrun, hbefore, hindexed, hframe, hused⟩ :=
    run_respond_valid (e := e) h hold hfind hbody hp hvalid
  have ho := h.settled.2.2
  have ho' := hused.settled.2.2
  have hafter : w' = ((respond e r).run w).2 := by rw [hrun]
  have hown : Function.update m old.id (some (p.storable.applied old w.clock))
      (p.storable.applied old w.clock).id = some (p.storable.applied old w.clock) :=
    Function.update_self _ _ _
  have hother (i : String) (hi : i ≠ (p.storable.applied old w.clock).id) :
      Function.update m old.id (some (p.storable.applied old w.clock)) i = m i :=
    Function.update_of_ne hi _ _
  constructor
  · exact congrArg Prod.fst hrun
  · intro later hstore hlater
    rw [← hafter] at hstore
    have hget := Rules.run_get (hstore ▸ hindexed) hlater (p.storable.applied old w.clock).id
    rw [hown] at hget
    refine ⟨congrArg Prod.fst hget, fun r' hfind' => ?_⟩
    have hserve : (serve e r' (.getRule (p.storable.applied old w.clock).id)).run later =
        (.ok (.success (p.storable.applied old w.clock).value), later) := by
      show Program.run (do
        let found ← Rules.get (p.storable.applied old w.clock).id
        return answerRule (p.storable.applied old w.clock).id found) later = _
      rw [run_bind_ok hget]
      rfl
    rw [run_respond_of_serve hfind' hserve, hrun]
    rfl
  · intro now trigger
    rw [← hafter]
    exact hindexed.mem_trigger hown now trigger
  · intro other hid
    rw [← hafter, Rules.stored_iff hindexed ho', Rules.stored_iff hbefore ho, hother _ hid]
  · intro id hid now trigger
    rw [← hafter, hindexed.mem_members rfl, hbefore.mem_members rfl, hother _ hid]
  · rw [← hafter]
    exact hframe
  · rwa [← hafter]

/-- Such a request is accepted just when the rule that it makes has no errors. -/
theorem accepted_iff_valid : Accepted e r w ↔
    (Review.rule w.clock (p.applied old w.clock).fields).isValid = true := by
  constructor
  · rintro ⟨response, hresponse, hstatus⟩
    by_contra hinvalid
    obtain ⟨refusal, hrun, hrefused⟩ := run_respond_invalid (e := e) h hold hfind hbody hp
      (Bool.eq_false_iff.mpr hinvalid)
    rw [hrun] at hresponse
    cases hresponse
    rw [hstatus] at hrefused
    cases hrefused
  · intro hvalid
    exact ⟨_, (changed_of_valid h hold hfind hbody hp hvalid).response, rfl⟩

end

/-- What comes of the same request, after it made a rule of another. -/
structure Repeatable (e : Engine) (r : Request) (w : World) (new : Rule) : Prop where
  stands : ∀ a ∈ new.actions, a.Stands w.clock
  accepted_iff : ∀ later, later.store = w.store → later.clock.Stamped → later.outages = [] →
    (Accepted e r later ↔ ∀ a ∈ new.actions, a.Stands later.clock)
  changed : ∀ later, later.store = w.store → later.clock.Stamped → later.outages = [] →
    Accepted e r later → Changed e r later new { new with updatedAt := later.clock }

theorem repeatable_of_valid (h : Rules.Used w) (hold : Rules.Stored w old)
    (hfind : Route.find r = .ok (.changeRule old.id)) (hbody : bodyOf r = .ok (some (.obj f)))
    (hp : RulePatch.check { now := w.clock, readable := true } (.obj f) = .ok p)
    (hvalid : (Review.rule w.clock (p.applied old w.clock).fields).isValid = true) :
    Repeatable e r ((respond e r).run w).2 (p.storable.applied old w.clock) := by
  have hchanged : Changed e r w old (p.storable.applied old w.clock) :=
    changed_of_valid h hold hfind hbody hp hvalid
  have hvalid' : (Review.rule w.clock (p.storable.applied old w.clock).fields).isValid = true := by
    rwa [RulePatch.fields_applied_storable]
  -- a world that follows is as good as this one, and the patch is read the same there
  have haccepted : ∀ later, later.store = ((respond e r).run w).2.store → later.clock.Stamped →
      later.outages = [] → (Accepted e r later ↔
        (Review.rule later.clock (p.storable.applied old w.clock).fields).isValid = true) ∧
      (Accepted e r later → Changed e r later (p.storable.applied old w.clock)
        (p.storable.applied old later.clock)) := by
    intro later hstore hclock hlater
    have hused := hchanged.used.pass hstore hclock hlater
    have hstored := (hchanged.readBack later hstore hlater).1
    rw [RulePatch.check_eq w.clock later.clock] at hp
    have hiff := accepted_iff_valid (e := e) hused hstored hfind hbody hp
    refine ⟨?_, fun haccepted => ?_⟩
    · rw [hiff, ← RulePatch.fields_applied_storable, RulePatch.applied_applied,
        RulePatch.review_applied p.storable old later.clock w.clock]
    · have hagain := changed_of_valid (e := e) hused hstored hfind hbody hp (hiff.mp haccepted)
      rwa [RulePatch.applied_applied] at hagain
  refine ⟨?_, fun later hstore hclock hlater => ?_, fun later hstore hclock hlater => ?_⟩
  · rw [run_clock]
    exact (Review.isValid_later hvalid').mp hvalid'
  · rw [(haccepted later hstore hclock hlater).1, Review.isValid_later hvalid']
  · exact (haccepted later hstore hclock hlater).2

/-- Where a rule is stored, a request to change parts of it that is accepted makes of it the rule with the
values of the body for the fields that it gives, null aside, and the moment of the change, and leaves all
other rules and all else in the store; made again, it is accepted just when the directives in the actions
of that rule stand for moments then, and changes the moment alone. A request for a rule with errors is
refused, and leaves the world as it is. -/
theorem changeRule_exact (h : Rules.Used w) (hold : Rules.Stored w old)
    (hfind : Route.find r = .ok (.changeRule old.id)) :
    (Accepted e r w → ∃ (f : Fields) (p : RulePatch), bodyOf r = .ok (some (.obj f)) ∧
      p.ReadFrom { now := w.clock, readable := true } f ∧ (p.AllFinite → p.storable = p) ∧
      Changed e r w old (p.storable.applied old w.clock) ∧
      Repeatable e r ((respond e r).run w).2 (p.storable.applied old w.clock)) ∧
    ∀ f p, bodyOf r = .ok (some (.obj f)) →
      RulePatch.check { now := w.clock, readable := true } (.obj f) = .ok p →
      (Review.rule w.clock (p.applied old w.clock).fields).isValid = false →
      ∃ response, (respond e r).run w = (.ok response, w) ∧ response.status = 422 := by
  refine ⟨fun haccepted => ?_, fun f p hbody hp => run_respond_invalid h hold hfind hbody hp⟩
  obtain ⟨response, hresponse, hstatus⟩ := (accepted_iff hfind).mp haccepted
  obtain ⟨v, p, hbody, hp⟩ := body_of_status hresponse hstatus
  obtain ⟨f, hf, -⟩ := Checked.andThen_eq_ok.mp hp
  obtain rfl := record_eq_ok hf
  have hvalid := (accepted_iff_valid h hold hfind hbody hp).mp haccepted
  exact ⟨f, p, hbody, RulePatch.readFrom_of_check hp, RulePatch.AllFinite.storable_eq,
    changed_of_valid h hold hfind hbody hp hvalid, repeatable_of_valid h hold hfind hbody hp hvalid⟩

/-- The world in which the rule that logs completed tasks was created, in the last second of a day. -/
def eveWorld : World :=
  { ((Rules.Edit.create Rules.logRule).program.run { clock := Moment.ofInstant 0 }).2 with
    clock := Moment.ofDate ⟨2026, 3, 10⟩ (Moment.day - Moment.second) (some 0) }

theorem stamped_eveWorld : eveWorld.clock.Stamped where
  wall := by decide
  offset := by
    rintro _ ⟨⟩
    decide
  minutes := by
    rintro _ ⟨⟩
    decide

theorem used_eveWorld : Rules.Used eveWorld := by
  have hstart : Rules.Used { clock := Moment.ofInstant 0 } :=
    .start rfl ⟨Rules.shown_start, by rintro _ ⟨⟩; decide⟩ rfl
  exact (hstart.edit (.create Rules.logRule) ⟨Rules.wellFormed_logRule, rfl, rfl⟩).pass rfl
    stamped_eveWorld rfl

theorem stored_eveWorld : Rules.Stored eveWorld (Rules.stored Rules.logRule) := by
  have hindexed := Rules.create_indexed (w := { clock := Moment.ofInstant 0 })
    (Rules.indexed_of_empty rfl) rfl Rules.wellFormed_logRule rfl rfl
  have hstore := congrArg World.store
    (run_discard (Rules.create Rules.logRule) { clock := Moment.ofInstant 0 })
  rw [← hstore] at hindexed
  exact (Rules.stored_iff (w := eveWorld) hindexed rfl _).mpr (Function.update_self _ _ _)

/-- Asks to change parts of that rule. -/
def change (text : String) : Request := ⟨"PATCH", ⟨["api", "v1", "rules", "rule_1"], []⟩, some text⟩

/-- Asks for another name and another trigger, and gives null for the description. -/
def retitling : Request :=
  change "\x7b\"name\":\"Keep\",\"description\":null,\"trigger\":\"task_overdue\"\x7d"

/-- The status of the answer. -/
def statusOf (e : Engine) (r : Request) (w : World) : Option Nat :=
  ((respond e r).run w).1.toOption.map Response.status

theorem accepted_iff_statusOf : Accepted e r w ↔ statusOf e r w = some 200 := by
  unfold Accepted statusOf
  cases ((respond e r).run w).1 with
  | error f => exact iff_of_false nofun nofun
  | ok response =>
    constructor
    · rintro ⟨_, ⟨⟩, hstatus⟩
      exact congrArg some hstatus
    · intro hstatus
      exact ⟨response, rfl, Option.some.inj hstatus⟩

/-- It is accepted, and the rule keeps its description. -/
theorem changeRule_exact_of_retitling : Accepted {} retitling eveWorld ∧
    ∃ p : RulePatch, p.name = some "Keep" ∧ p.description = none ∧
      Changed {} retitling eveWorld (Rules.stored Rules.logRule)
        (p.storable.applied (Rules.stored Rules.logRule) eveWorld.clock) := by
  have haccepted : Accepted {} retitling eveWorld := accepted_iff_statusOf.mpr (by decide +kernel)
  have hbody : bodyOf retitling = .ok (some (.obj [("name", .str "Keep"), ("description", .null),
      ("trigger", .str "task_overdue")])) := by
    decide +kernel
  obtain ⟨f, p, hf, hread, -, hchanged, -⟩ :=
    (changeRule_exact used_eveWorld stored_eveWorld rfl).1 haccepted
  cases hbody.symm.trans hf
  refine ⟨haccepted, p, ?_, ?_, hchanged⟩
  · exact (hread.name "Keep").mpr ⟨_, rfl, nofun, rfl⟩
  · rw [Option.eq_none_iff_forall_ne_some]
    intro t ht
    obtain ⟨v, hv, hne, -⟩ := (hread.description t).mp ht
    exact hne (Option.some.inj hv).symm

/-- Asks for a date that lies as far ahead as one can. -/
def deferral : Request :=
  change ("\x7b\"actions\":[\x7b\"type\":\"reschedule\",\"parameters\":" ++
    "\x7b\"due_date\":\"+2912374 days\"\x7d\x7d]\x7d")

/-- Asks for a condition on a number that is not finite. -/
def unbounded : Request := change "\x7b\"conditions\":\x7b\"task.points\":1e999\x7d\x7d"

/-- A deferral is accepted, but not again one second later; a condition on a number that is not finite is
kept with null. -/
theorem change_not_exact : Rules.Used eveWorld ∧
    Rules.Stored eveWorld (Rules.stored Rules.logRule) ∧
    (Route.find deferral = .ok (.changeRule (Rules.stored Rules.logRule).id) ∧
      Accepted {} deferral eveWorld ∧
      ¬ Accepted {} deferral { ((respond {} deferral).run eveWorld).2 with
        clock := Moment.midnight ⟨2026, 3, 11⟩ }) ∧
    Route.find unbounded = .ok (.changeRule (Rules.stored Rules.logRule).id) ∧
    bodyOf unbounded = .ok (some (.obj [("conditions",
      .obj [("task.points", .float (Decimal.infinity false))])])) ∧
    (((respond {} unbounded).run eveWorld).1.toOption.bind fun response =>
      (response.body.get? "data").bind (·.get? "conditions")) =
        some (.obj [("task.points", .null)]) := by
  refine ⟨used_eveWorld, stored_eveWorld, ⟨rfl, ?_, ?_⟩, rfl, ?_, ?_⟩
  · exact accepted_iff_statusOf.mpr (by decide +kernel)
  · rw [accepted_iff_statusOf]
    decide +kernel
  · decide +kernel
  · decide +kernel

end Service

end TaskAutomation.Api
