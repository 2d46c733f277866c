import TaskAutomation.Api.Service
import TaskAutomation.Proofs.Engine.Careful
import TaskAutomation.Proofs.Program.Log
import TaskAutomation.Proofs.Program.Run

/-!
# What becomes of a delivery

* `Delivery.Way` : the ways on which events come in; `Way.deliver e` : what is done on each,
  `Way.event? now` : the event that comes in, if there is one; `Way.read? log` : the one that is read in
  a log;
* `Call.Spares c` : the call writes no mark of an event; `Scan.spares_handle` : running rules does not;
* `Entry.Idle n` : the call, answered so, leaves the world as it is;
* `Delivery.Fate` : what becomes of a delivery: nothing can be read from it, its event was marked
  before, or it marks the event and runs the rules on it (`Delivery.Ran`); `Way.fate` : with nothing
  out of reach every delivery comes to one of these.
-/

namespace TaskAutomation

open Program Check

/-! ## Marks -/

/-- The call writes no mark of an event. -/
def Call.Spares : Call → Prop
  | .store c => ∀ id, c.written ≠ some (.processed id)
  | _ => True

theorem Call.spares_of_touches {area : Key → Prop} (harea : ∀ id, ¬ area (.processed id)) (c : Call)
    (h : c.Touches area) : c.Spares := by
  cases c with
  | store c => exact fun id hid => harea id (h _ hid)
  | _ => trivial

/-- The program writes no mark of an event. -/
abbrev Spares {α : Type} (p : Program α) : Prop := p.Within Call.Spares

theorem Spares.of_touches {α : Type} {area : Key → Prop} {p : Program α}
    (h : p.Within (Call.Touches area)) (harea : ∀ id, ¬ area (.processed id)) : Spares p :=
  h.mono (Call.spares_of_touches harea)

theorem Spares.of_works {α : Type} {p : Program α} (h : Works p) : Spares p :=
  .of_touches h fun _ => id

theorem Spares.of_files {α : Type} {p : Program α} (h : Files p) : Spares p :=
  .of_touches h fun _ => id

theorem Spares.of_reads {α : Type} {p : Program α} (h : Reads p) : Spares p :=
  .of_touches h fun _ => id

namespace Engine

variable (e : Engine) (rule : Rule) (x : Occurrence) (oncePerDay : Bool)

theorem spares_execute : Spares (e.execute rule x oncePerDay) := by
  refine .guardFor trivial (.bind (.attempt (.guardFor trivial (.ofExcept _))) fun tried => ?_)
  cases tried with
  | error f => exact Spares.of_files (files_recordUntried rule x f)
  | ok matched =>
    refine .bind (.call trivial) fun _ => ?_
    cases matched with
    | false => exact .done _
    | true =>
      have hmay : Spares (e.mayAct rule x oncePerDay) := by
        unfold mayAct
        split
        · exact .guard trivial (.store fun _ => nofun)
        · exact .done _
      refine .bind hmay fun free => ?_
      cases free with
      | false => exact .bind (.call trivial) fun _ => .done _
      | true =>
        refine .bind (.guardFor trivial (Spares.of_works (works_runActionsFrom rule x _ _))) fun outcomes => ?_
        exact .bind (Spares.of_files (files_recordOf rule x _ _ _)) fun record =>
          .bind (Spares.of_files (files_keep record)) fun _ => .done _

theorem spares_process : Spares (e.process x oncePerDay) := by
  refine .guard trivial (.bind (.call trivial) fun _ => ?_)
  refine .bind (.attempt (Spares.of_reads (Rules.reads_active _ _))) fun found => ?_
  cases found with
  | error f => exact .done _
  | ok rules =>
    refine .guard trivial (.bind (.each fun rule _ => ?_) fun _ => .done _)
    refine .bind (.attempt (e.spares_execute rule x oncePerDay)) fun outcome => ?_
    cases outcome <;> exact .done _

end Engine

theorem Scan.spares_handle (e : Engine) (x : Occurrence) : Spares (handle e x) :=
  .guard trivial (e.spares_process x false)

/-! ## Calls that change nothing -/

/-- The call leaves the world as it is wherever it is answered so. -/
def Entry.Idle (n : Entry) : Prop := ∀ w : World, (w.answer n.call).1 = n.reply → (w.answer n.call).2 = w

theorem Entry.idle_now {n : Entry} (h : n.call = .now) : n.Idle := by
  obtain ⟨c, r⟩ := n
  cases h
  exact fun w _ => rfl

theorem Entry.idle_enter {o : Operation} {argument : Option Value} {subject : Subject}
    {message? : Option String} : Entry.Idle ⟨.enter o argument subject, message?⟩ := fun _ _ => rfl

theorem Entry.idle_refused {k : Key} {c : Cell} : Entry.Idle ⟨.store (.setIfFree k c), false⟩ := by
  intro w h
  simp only [World.answer, Command.run] at h ⊢
  split
  · rfl
  · next hfree =>
    rw [if_neg hfree] at h
    cases h

namespace Delivery

/-- The call that marks an event. -/
abbrev markOf (id : String) : Call := .store (.setIfFree (.processed id) (.text "1"))

/-- The call that lets the mark of an event end. -/
abbrev endOf (e : Engine) (id : String) : Call :=
  .store (.expire (.processed id) e.settings.eventTtl)

/-- Leave to mark an event, which was given. -/
abbrev entered (id : String) : Entry :=
  ⟨.enter ⟨"idempotency", "mark_processed"⟩ (some (.str id)) .nothing, none⟩

/-- An event that was marked before is not handled, any other is. -/
theorem ends_handle {e : Engine} {x : Event} {log : List Entry}
    {outcome : Except Failure (Option TriggerOutcome)} (h : (handle e x).Ends log outcome)
    (hclean : Clean log) :
    (log = [entered x.id, ⟨markOf x.id, false⟩] ∧ outcome = .ok none) ∨
      ∃ scan result, log = entered x.id :: ⟨markOf x.id, true⟩ :: ⟨endOf e x.id, ()⟩ :: scan ∧
        (Scan.handle e x.occurrence).Ends scan result ∧ outcome = result.map some := by
  obtain ⟨message?, rest, rfl, h⟩ := h
  cases message? with
  | some message => exact absurd rfl (hclean _ List.mem_cons_self _ _ _ message)
  | none =>
    obtain ⟨isNew, rest, rfl, h⟩ := h
    cases isNew with
    | false =>
      obtain ⟨rfl, rfl⟩ := h
      exact .inl ⟨rfl, rfl⟩
    | true =>
      obtain ⟨⟨⟩, rest, rfl, h⟩ := h
      replace h : ((Scan.handle e x.occurrence).bind fun o => .done (some o)).Ends rest outcome := h
      rcases Ends.of_bind h with ⟨f, hscan, rfl⟩ | ⟨scan, after, o, rfl, hscan, rfl, rfl⟩
      · exact .inr ⟨rest, .error f, rfl, hscan, rfl⟩
      · exact .inr ⟨scan, .ok o, by rw [List.append_nil], hscan, rfl⟩

/-! ## Ways -/

/-- The ways on which events come in. -/
inductive Way where
  | event (x : Event)
  | posted (r : Api.Request)
  | queued (body : ByteArray) (messageId : Option String)

/-- What a delivery is answered. -/
inductive Answer where
  | event (outcome : Option TriggerOutcome)
  | posted (response : Api.Response)
  | queued (receipt : Option Receipt)

namespace Way

/-- The way is one for events: a request goes to their route. -/
def isOpen : Way → Prop
  | .posted r => Api.Route.find r = .ok .submitEvent
  | _ => True

/-- What is done with a delivery. -/
def deliver (e : Engine) : Way → Program Answer
  | .event x => do return .event (← handle e x)
  | .posted r => do return .posted (← Api.Service.respond e r)
  | .queued body messageId => do return .queued (← consume (handle e) body messageId)

/-- The event that comes in, if one can be read at a moment. -/
def event? (now : Moment) : Way → Option Event
  | .event x => some x
  | .posted r =>
    match Api.Service.bodyOf r with
    | .ok body => (Api.Service.checkBody Event.check { now } body).toOption
    | .error _ => none
  | .queued body messageId =>
    match Message.event? now body messageId with
    | .ok found => found
    | .error _ => none

/-- The event that is read, at the moment that the log begins with if it does. -/
def read? (way : Way) : List Entry → Option Event
  | ⟨.now, m⟩ :: _ => way.event? m
  | _ => way.event? (Moment.ofInstant 0)

theorem read?_append (way : Way) {log : List Entry} (h : log ≠ []) (more : List Entry) :
    way.read? (log ++ more) = way.read? log := by
  cases log with
  | nil => exact absurd rfl h
  | cons n rest =>
    obtain ⟨c, r⟩ := n
    cases c <;> rfl

theorem read?_event (x : Event) (log : List Entry) : (Way.event x).read? log = some x := by
  unfold read?
  split <;> rfl

/-- The answer to a request, which a failure has too. -/
def reply (e : Engine) : Except Failure Api.Response → Except Failure Answer
  | .ok response => .ok (.posted response)
  | .error f => .ok (.posted (.ofFailure e.settings.debug f))

/-- The answer to a delivery when its event was handled. -/
def answer (e : Engine) (x : Event) (way : Way) (outcome : Except Failure (Option TriggerOutcome)) :
    Except Failure Answer :=
  match way, outcome with
  | .event _, .ok o => .ok (.event o)
  | .event _, .error f => .error f
  | .posted _, .ok (some o) => .ok (.posted (.success (Api.Service.eventValue x (some o))))
  | .posted _, .ok none =>
    .ok (.posted (.told "Event already processed" (Api.Service.eventValue x none)))
  | .posted _, .error f => .ok (.posted (.ofFailure e.settings.debug f))
  | .queued _ _, outcome => .ok (.queued (some ⟨x.id, outcome⟩))

end Way

/-- Only the clock is looked at. -/
def Glances (log : List Entry) : Prop := ∀ n ∈ log, n.call = .now

theorem glances_nil : Glances [] := fun _ hn => absurd hn List.not_mem_nil

theorem glances_one (m : Moment) : Glances [⟨.now, m⟩] := by
  intro n hn
  cases List.mem_singleton.mp hn
  rfl

theorem ends_consume {handler : Event → Program (Option TriggerOutcome)} {body : ByteArray}
    {messageId : Option String} {log : List Entry} {result : Except Failure (Option Receipt)}
    (h : (consume handler body messageId).Ends log result) :
    ((Way.queued body messageId).read? log = none ∧ Glances log) ∨
      ∃ now x rest outcome, (Way.queued body messageId).read? log = some x ∧
        log = ⟨.now, now⟩ :: rest ∧ (handler x).Ends rest outcome ∧
        result = .ok (some ⟨x.id, outcome⟩) := by
  obtain ⟨now, rest, rfl, h⟩ := h
  replace h : (Program.ofExcept (Message.event? now body messageId) >>= _).Ends rest result := h
  rcases Ends.of_bind h with ⟨f, hfail, rfl⟩ | ⟨before, after, found, rfl, hread, h⟩
  · obtain ⟨rfl, hfound⟩ := Ends.of_ofExcept hfail
    refine .inl ⟨?_, glances_one now⟩
    simp only [Way.read?, Way.event?, ← hfound]
  · obtain ⟨rfl, hfound⟩ := Ends.of_ofExcept hread
    rw [List.nil_append]
    cases found with
    | none =>
      obtain ⟨rfl, rfl⟩ := h
      refine .inl ⟨?_, glances_one now⟩
      simp only [Way.read?, Way.event?, ← hfound]
    | some x =>
      obtain ⟨mid, last, outcome, rfl, hx, rfl, rfl⟩ := Ends.of_bind_attempt h
      refine .inr ⟨now, x, mid, outcome, ?_, by rw [List.append_nil], hx, rfl⟩
      simp only [Way.read?, Way.event?, ← hfound]

theorem ends_refuse {found : List Issue} {log : List Entry} {result : Except Failure Api.Response}
    (h : (Api.Service.refuse found).Ends log result) : log = [] := by
  unfold Api.Service.refuse at h
  split at h
  · exact h.1
  · exact h.1

theorem ends_withBody {α : Type} {check : Checker α} {r : Api.Request}
    {next : α → Program Api.Response} {log : List Entry} {result : Except Failure Api.Response}
    (h : (Api.Service.withBody check r next).Ends log result) :
    ((∃ refusal, Api.Service.bodyOf r = .error refusal) ∧ log = []) ∨
      ∃ body now rest, Api.Service.bodyOf r = .ok body ∧ log = ⟨.now, now⟩ :: rest ∧
        ((∃ found, Api.Service.checkBody check { now } body = .issues found) ∧ rest = [] ∨
          ∃ a, Api.Service.checkBody check { now } body = .ok a ∧ (next a).Ends rest result) := by
  unfold Api.Service.withBody at h
  cases hbody : Api.Service.bodyOf r with
  | error refusal =>
    rw [hbody] at h
    exact .inl ⟨⟨refusal, rfl⟩, h.1⟩
  | ok body =>
    rw [hbody] at h
    obtain ⟨now, rest, rfl, h⟩ := h
    dsimp only [pure, Program.bind] at h
    refine .inr ⟨body, now, rest, rfl, rfl, ?_⟩
    cases hcheck : Api.Service.checkBody check { now } body with
    | issues found =>
      rw [hcheck] at h
      exact .inl ⟨⟨found, rfl⟩, ends_refuse h⟩
    | ok a =>
      rw [hcheck] at h
      exact .inr ⟨a, rfl, h⟩

theorem ends_submitEvent {e : Engine} {r : Api.Request} {log : List Entry}
    {result : Except Failure Api.Response} (h : (Api.Service.submitEvent e r).Ends log result) :
    ((Way.posted r).read? log = none ∧ Glances log) ∨
      ∃ now x rest outcome, (Way.posted r).read? log = some x ∧
        log = ⟨.now, now⟩ :: rest ∧ (handle e x).Ends rest outcome ∧
        result = outcome.map fun o =>
          if o.isSome then .success (Api.Service.eventValue x o)
          else .told "Event already processed" (Api.Service.eventValue x o) := by
  rcases ends_withBody h with ⟨⟨refusal, hbody⟩, rfl⟩ |
    ⟨body, now, rest, hbody, rfl, ⟨⟨found, hcheck⟩, rfl⟩ | ⟨x, hcheck, h⟩⟩
  · refine .inl ⟨?_, glances_nil⟩
    simp only [Way.read?, Way.event?, hbody]
  · refine .inl ⟨?_, glances_one now⟩
    simp only [Way.read?, Way.event?, hbody, hcheck, Checked.toOption]
  · have hevent : (Way.posted r).read? (⟨.now, now⟩ :: rest) = some x := by
      simp only [Way.read?, Way.event?, hbody, hcheck, Checked.toOption]
    rcases Ends.of_bind h with ⟨f, hx, rfl⟩ | ⟨mid, last, o, rfl, hx, rfl, rfl⟩
    · exact .inr ⟨now, x, rest, .error f, hevent, rfl, hx, rfl⟩
    · exact .inr ⟨now, x, mid, .ok o, hevent, by rw [List.append_nil], hx, rfl⟩

/-- A delivery carries no event and looks at the clock at most, or its event is handled. -/
theorem Way.ends_deliver {e : Engine} {way : Way} {log : List Entry} {result : Except Failure Answer}
    (hopen : way.isOpen) (h : (way.deliver e).Ends log result) :
    (way.read? log = none ∧ Glances log) ∨
      ∃ x before rest outcome, way.read? log = some x ∧ log = before ++ rest ∧ Glances before ∧
        (handle e x).Ends rest outcome ∧ result = way.answer e x outcome := by
  cases way with
  | event x =>
    right
    rcases Ends.of_bind h with ⟨f, hx, rfl⟩ | ⟨before, after, o, rfl, hx, rfl, rfl⟩
    · exact ⟨x, [], log, .error f, read?_event x log, rfl, glances_nil, hx, rfl⟩
    · exact ⟨x, [], before, .ok o, read?_event x _, by simp, glances_nil, hx, rfl⟩
  | queued body messageId =>
    rcases Ends.of_bind h with ⟨f, hfail, rfl⟩ | ⟨before, after, receipt, rfl, hbody, rfl, rfl⟩
    · rcases ends_consume hfail with hnone | ⟨now, x, rest, outcome, -, -, -, hresult⟩
      · exact .inl hnone
      · cases hresult
    · rw [List.append_nil]
      rcases ends_consume hbody with hnone | ⟨now, x, rest, outcome, hx, rfl, hhandle, hresult⟩
      · exact .inl hnone
      · cases hresult
        exact .inr ⟨x, [⟨.now, now⟩], rest, outcome, hx, rfl, glances_one now, hhandle, rfl⟩
  | posted r =>
    replace hopen : Api.Route.find r = .ok .submitEvent := hopen
    replace h : (Api.Service.respond e r >>= fun response => pure (Answer.posted response)).Ends
      log result := h
    unfold Api.Service.respond at h
    rw [hopen] at h
    dsimp only at h
    rw [bind_assoc] at h
    obtain ⟨mid, last, outcome, rfl, hserve, h⟩ := Ends.of_bind_attempt h
    have hend : last = [] ∧ result = Way.reply e outcome := by
      cases outcome with
      | ok response => exact h
      | error f => exact h
    obtain ⟨rfl, rfl⟩ := hend
    rw [List.append_nil]
    rcases ends_submitEvent hserve with hnone | ⟨now, x, rest, o, hx, rfl, hhandle, rfl⟩
    · exact .inl hnone
    · refine .inr ⟨x, [⟨.now, now⟩], rest, o, hx, rfl, glances_one now, hhandle, ?_⟩
      rcases o with f | _ | o <;> rfl

/-- The delivery marks its event, goes on to run the rules on it, and answers with the outcome. -/
def Ran (e : Engine) (way : Way) (x : Event) (log : List Entry) (result : Except Failure Answer) :
    Prop :=
  ∃ before scan outcome, Glances before ∧
    log = before ++ entered x.id :: ⟨markOf x.id, true⟩ :: ⟨endOf e x.id, ()⟩ :: scan ∧
    (Scan.handle e x.occurrence).Ends scan outcome ∧ result = way.answer e x (outcome.map some)

/-- What becomes of a delivery. -/
inductive Fate (e : Engine) (way : Way) (log : List Entry) (result : Except Failure Answer) : Prop
  | unread (hnone : way.read? log = none) (hlog : Glances log)
  | refused {x : Event} {before : List Entry} (hx : way.read? log = some x)
    (hbefore : Glances before) (hlog : log = before ++ [entered x.id, ⟨markOf x.id, false⟩])
    (hresult : result = way.answer e x (.ok none))
  | ran {x : Event} (hx : way.read? log = some x) (h : Ran e way x log result)

/-- With nothing out of reach every delivery comes to one of these. -/
theorem Way.fate {e : Engine} {way : Way} {log : List Entry} {result : Except Failure Answer}
    (hopen : way.isOpen) (h : (way.deliver e).Ends log result) (hclean : Clean log) :
    Fate e way log result := by
  rcases ends_deliver hopen h with ⟨hnone, hlog⟩ |
    ⟨x, before, rest, outcome, hx, rfl, hbefore, hhandle, rfl⟩
  · exact .unread hnone hlog
  · rcases ends_handle hhandle hclean.right with ⟨rfl, rfl⟩ | ⟨scan, result, rfl, hscan, rfl⟩
    · exact .refused hx hbefore rfl rfl
    · exact .ran hx ⟨before, scan, result, hbefore, rfl, hscan, rfl⟩

end Delivery

end TaskAutomation
