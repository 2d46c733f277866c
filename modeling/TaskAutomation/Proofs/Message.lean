import TaskAutomation.Engine.Delivery
import TaskAutomation.Proofs.Check.Fields
import TaskAutomation.Proofs.Program.Run
import TaskAutomation.Proofs.Value.Fields
import TaskAutomation.Proofs.Value.Reading

/-!
# What becomes of messages

* `Event.Complete x` : the event tells what its type needs; `Event.parts_of_check` : so does every event
  that passes its check;
* `Message.id_of_withId` : the id of an event is that of its object, or of its message;
* `Message.error_of_event?` : what the text of a message has in it that fails as a whole;
* `Delivery.answer_consume` : a message is consumed with whatever its handler comes to;
* `Delivery.consume_exact` : what becomes of any bytes; `Delivery.fails_as_whole` : bytes that cannot be
  consumed.
-/

namespace TaskAutomation

open Check Program

namespace Event

variable {s : Setting} {v : Value} {x : Event}

/-- The event tells what its type needs: the entry of time that was tracked, and the old one of a status
that changed. -/
structure Complete (x : Event) : Prop where
  timeEntry : x.type = .timeTracked → x.timeEntry.isSome = true
  oldStatus : x.type = .statusChanged →
    x.oldStatus.isSome = true ∨ ∃ p, x.previousTask = some p ∧ p.has "status" = true

theorem complete_of_lack? (h : x.lack? = none) : x.Complete where
  timeEntry htype := by
    unfold lack? at h
    split at h
    · cases h
    · next hless =>
      cases hentry : x.timeEntry with
      | none => exact absurd ⟨htype, by rw [hentry]; rfl⟩ hless
      | some entry => rfl
  oldStatus htype := by
    unfold lack? at h
    split at h
    · cases h
    · split at h
      · cases h
      · next hless =>
        have htells : x.tellsOldStatus = true := by simpa [htype] using hless
        unfold tellsOldStatus at htells
        rcases Bool.or_eq_true_iff.mp htells with hold | hprevious
        · exact .inl hold
        · cases hp : x.previousTask with
          | none =>
            rw [hp] at hprevious
            cases hprevious
          | some p =>
            rw [hp] at hprevious
            exact .inr ⟨p, rfl, hprevious⟩

/-- An event that passes its check has the id of the object, and tells what its type needs. -/
theorem parts_of_check (h : Event.check s v = .ok x) :
    ∃ f : Fields, v = .obj f ∧ f.get? "event_id" = some (.str x.id) ∧ x.Complete := by
  obtain ⟨x', h, hlack⟩ := Checked.andThen_eq_ok.mp h
  obtain ⟨f, hrecord, h⟩ := Checked.andThen_eq_ok.mp h
  obtain ⟨_, timestamp, h₁, -, rfl⟩ := Checked.seq_eq_ok.mp h
  obtain ⟨_, metadata, h₂, -, rfl⟩ := Checked.seq_eq_ok.mp h₁
  obtain ⟨_, entry, h₃, -, rfl⟩ := Checked.seq_eq_ok.mp h₂
  obtain ⟨_, previous, h₄, -, rfl⟩ := Checked.seq_eq_ok.mp h₃
  obtain ⟨_, old, h₅, -, rfl⟩ := Checked.seq_eq_ok.mp h₄
  obtain ⟨_, task, h₆, -, rfl⟩ := Checked.seq_eq_ok.mp h₅
  obtain ⟨_, type, h₇, -, rfl⟩ := Checked.seq_eq_ok.mp h₆
  obtain ⟨id, hid, rfl⟩ := Checked.map_eq_ok.mp h₇
  split at hlack
  · cases hlack
  · next hnone =>
    cases hlack
    obtain ⟨v', hget, htext⟩ := get?_of_required hid
    refine ⟨f, record_eq_ok hrecord, ?_, complete_of_lack? hnone⟩
    rw [hget]
    cases v' with
    | str t =>
      cases htext
      rfl
    | _ => cases htext

end Event

namespace Message

variable {now : Moment} {body : ByteArray} {id : Option String} {f : Fields} {x : Event}

/-- An object has an id of its own, which is not empty. -/
def HasId (f : Fields) : Prop := ∃ v, f.get? "event_id" = some v ∧ v.truthy = true

/-- An event of an object has the object's own id, or that of the message where that is empty. -/
theorem id_of_withId (h : (withId f id).get? "event_id" = some (.str x.id)) :
    (HasId f ∨ id = none → f.get? "event_id" = some (.str x.id))
      ∧ ∀ i, id = some i → ¬ HasId f → x.id = i := by
  have hown : (((f.get? "event_id").map Value.truthy).getD false = true) ↔ HasId f := by
    unfold HasId
    cases f.get? "event_id" with
    | none => simp
    | some v => simp
  unfold withId at h
  cases id with
  | none => exact ⟨fun _ => h, nofun⟩
  | some i =>
    dsimp only at h
    split at h
    · next hkept =>
      refine ⟨fun _ => h, ?_⟩
      rintro _ ⟨⟩ hnot
      have hempty : x.id.isEmpty = true := by
        by_contra hfull
        exact hnot ⟨_, h, by simpa [Value.truthy] using hfull⟩
      have hmessage : i.isEmpty = true :=
        (Bool.or_eq_true_iff.mp hkept).resolve_left fun htrue => hnot (hown.mp htrue)
      rw [String.isEmpty_iff.mp hempty, String.isEmpty_iff.mp hmessage]
    · next hput =>
      rw [Fields.get?_put_self] at h
      cases h
      refine ⟨?_, fun _ hi _ => (Option.some.inj hi)⟩
      rintro (hid | hnone)
      · rw [Bool.or_eq_true_iff, not_or] at hput
        exact absurd (hown.mpr hid) hput.1
      · cases hnone

/-- The event of a message comes from an object in its text, with an id, and is complete. -/
theorem parts_of_event? (h : event? now body id = .ok (some x)) :
    ∃ text f, String.fromUTF8? body = some text ∧ Json.read text = .ok (.obj f)
      ∧ (withId f id).get? "event_id" = some (.str x.id) ∧ x.Complete := by
  unfold event? at h
  split at h
  · next text htext =>
    unfold ofText? at h
    split at h
    · next f hread =>
      replace h : ofFields? now f id = some x := Except.ok.inj h
      unfold ofFields? at h
      split at h
      · cases hcheck : Event.check { now } (.obj (withId f id)) with
        | issues found =>
          rw [hcheck] at h
          cases h
        | ok y =>
          rw [hcheck] at h
          cases h
          obtain ⟨f', heq, hid, hcomplete⟩ := Event.parts_of_check hcheck
          cases heq
          exact ⟨text, f, htext, hread, hid, hcomplete⟩
      · cases h
    · cases h
    · cases h
    · cases h
    · cases h
  · cases h

/-- A message fails as a whole only where its text has an integer of too many digits, or opens more lists
and objects than can be nested. -/
theorem error_of_event? {fault : Failure} (h : event? now body id = .error fault) :
    ∃ text, String.fromUTF8? body = some text ∧
      ((∃ n, fault = .badNumeral n ∧ Json.LongRun n text.toList)
        ∨ fault = .tooDeep ∧ Json.maxDepth < Json.opens text.toList) := by
  unfold event? at h
  split at h
  · next text htext =>
    refine ⟨text, htext, ?_⟩
    unfold ofText? at h
    split at h
    · cases h
    · cases h
    · cases h
    · next n hread =>
      cases h
      rcases Json.read_error hread with ⟨p, heq⟩ | ⟨n', heq, hrun⟩ | ⟨heq, -⟩
      · cases heq
      · cases heq
        exact .inl ⟨n, rfl, hrun⟩
      · cases heq
    · next hread =>
      cases h
      rcases Json.read_error hread with ⟨p, heq⟩ | ⟨n', heq, -⟩ | ⟨-, hopens⟩
      · cases heq
      · cases heq
      · exact .inr ⟨rfl, hopens⟩
  · cases h

end Message

namespace Delivery

/-- What becomes of a message, whatever its handler does: a failure of the handler is part of the receipt. -/
theorem answer_consume (handler : Event → Program (Option TriggerOutcome)) (body : ByteArray)
    (id : Option String) (w : World) :
    ((consume handler body id).run w).1 = (Message.event? w.clock body id).map fun x? =>
      x?.map fun x => ⟨x.id, ((handler x).run w).1⟩ := by
  unfold consume
  rw [run_bind_ok (run_now w), run_bind, run_ofExcept]
  cases Message.event? w.clock body id with
  | error fault => rfl
  | ok x? =>
    cases x? with
    | none => rfl
    | some x =>
      dsimp only
      rw [run_bind_ok (run_attempt (handler x) w)]
      rfl

/-- A message of any bytes is an event, or none, or it fails as a whole: only where its text has an integer
of too many digits or opens more lists and objects than can be nested. An event has the id that the object
in the text has, or the id of the message where that is empty, and tells what its type needs. To consume
the message fails just where it fails as a whole, whatever its handler does. -/
theorem consume_exact (now : Moment) (body : ByteArray) (id : Option String) :
    (∀ fault, Message.event? now body id = .error fault → ∃ text, String.fromUTF8? body = some text ∧
        ((∃ n, fault = .badNumeral n ∧ Json.LongRun n text.toList)
          ∨ fault = .tooDeep ∧ Json.maxDepth < Json.opens text.toList))
      ∧ (∀ x, Message.event? now body id = .ok (some x) → ∃ (text : String) (f : Fields),
        String.fromUTF8? body = some text ∧ Json.read text = .ok (.obj f)
          ∧ (Message.HasId f ∨ id = none → f.get? "event_id" = some (.str x.id))
          ∧ (∀ i, id = some i → ¬ Message.HasId f → x.id = i) ∧ x.Complete)
      ∧ ∀ (handler : Event → Program (Option TriggerOutcome)) (w : World) (fault : Failure),
        w.clock = now → (((consume handler body id).run w).1 = .error fault ↔
          Message.event? now body id = .error fault) := by
  refine ⟨fun fault => Message.error_of_event?, fun x h => ?_, fun handler w fault hclock => ?_⟩
  · obtain ⟨text, f, htext, hread, hid, hcomplete⟩ := Message.parts_of_event? h
    obtain ⟨hown, hmessage⟩ := Message.id_of_withId hid
    exact ⟨text, f, htext, hread, hown, hmessage, hcomplete⟩
  · rw [answer_consume, hclock]
    cases Message.event? now body id with
    | error other =>
      exact ⟨fun h => congrArg _ (Except.error.inj h), fun h => congrArg _ (Except.error.inj h)⟩
    | ok x? => exact ⟨nofun, nofun⟩

section Sample

theorem event?_toUTF8 (now : Moment) (text : String) (id : Option String) :
    Message.event? now text.toUTF8 id = Message.ofText? now text id := by
  have htext : String.fromUTF8? text.toUTF8 = some text := dif_pos text.isValidUTF8
  unfold Message.event?
  rw [htext]

/-- The text of an event without an id. -/
def unnamed : String :=
  "\x7b\"event_type\": \"task_completed\", \"task\": "
    ++ "\x7b\"id\": \"task_1\", \"user_id\": \"user_1\", \"title\": \"Call\"\x7d\x7d"

/-- The event without an id gets that of its message, and is consumed. -/
theorem consume_unnamed : ∃ x,
    Message.event? (Moment.ofInstant 0) unnamed.toUTF8 (some "m-1") = .ok (some x)
      ∧ x.id = "m-1" ∧ x.Complete
      ∧ ∀ (handler : Event → Program (Option TriggerOutcome)) (fault : Failure),
        ((consume handler unnamed.toUTF8 (some "m-1")).run { clock := Moment.ofInstant 0 }).1
          ≠ .error fault := by
  have hid : (Message.event? (Moment.ofInstant 0) unnamed.toUTF8 (some "m-1")).toOption.join.map Event.id
      = some "m-1" := by
    rw [event?_toUTF8]
    decide +kernel
  obtain ⟨-, hparts, hconsume⟩ := consume_exact (Moment.ofInstant 0) unnamed.toUTF8 (some "m-1")
  cases hevent : Message.event? (Moment.ofInstant 0) unnamed.toUTF8 (some "m-1") with
  | error fault =>
    rw [hevent] at hid
    cases hid
  | ok x? =>
    cases x? with
    | none =>
      rw [hevent] at hid
      cases hid
    | some x =>
      obtain ⟨text, f, -, -, -, -, hcomplete⟩ := hparts x hevent
      rw [hevent] at hid
      refine ⟨x, rfl, Option.some.inj hid, hcomplete, fun handler fault hfail => ?_⟩
      cases hevent.symm.trans ((hconsume handler _ fault rfl).mp hfail)

/-- To consume 4301 digits fails, and so does to consume 991 brackets that open lists. -/
theorem fails_as_whole :
    ((consume (handle {}) (String.ofList (List.replicate 4301 '1')).toUTF8 none).run
        { clock := Moment.ofInstant 0 }).1 = .error (.badNumeral 4301)
      ∧ ((consume (handle {}) (String.ofList (List.replicate 991 '[')).toUTF8 none).run
        { clock := Moment.ofInstant 0 }).1 = .error .tooDeep := by
  have hones : ∀ n, Decimal.maxDigits < n + 1 →
      Json.read (String.ofList (List.replicate (n + 1) '1')) = .error (.digits (n + 1)) := by
    intro n hn
    have hlength : ('1' :: List.replicate n '1').length = n + 1 := by
      rw [List.length_cons, List.length_replicate]
    have hdigit : ∀ d ∈ '1' :: List.replicate n '1', d.isDigit = true := by
      intro d hd
      rw [← List.replicate_succ] at hd
      rw [List.eq_of_mem_replicate hd]
      decide
    rw [List.replicate_succ, Json.read_digits hdigit (by decide) (hlength.symm ▸ hn), hlength]
  have hdigits : Json.read (String.ofList (List.replicate 4301 '1')) = .error (.digits 4301) :=
    hones 4300 (by decide)
  have hbrackets : Json.read (String.ofList (List.replicate 991 '[')) = .error .depth :=
    Json.read_brackets (by decide)
  constructor
  · rw [answer_consume, event?_toUTF8, Message.ofText?, hdigits]
    rfl
  · rw [answer_consume, event?_toUTF8, Message.ofText?, hbrackets]
    rfl

end Sample

end Delivery

end TaskAutomation
