import TaskAutomation.Api.Service
import TaskAutomation.Proofs.Api.Draft
import TaskAutomation.Proofs.Program.Run
import TaskAutomation.Proofs.Value.Identity

/-!
# A review and a creation agree

* `Service.Accepted e r w` : a request is answered with status 200; `Service.FoundValid e r w` : it is
  answered that a definition is valid;
* `Service.run_createRule`, `Service.foundValid_iff` : what the two routes answer, from the draft and
  the review of a body;
* `Service.accepted_iff_foundValid` : a described body of finite numbers is created just when its review
  finds it valid and it is shaped; `Service.agreement_fails` : bodies that are not shaped, or not of
  finite numbers, are found valid and not created.
-/

namespace TaskAutomation.Api.Service

open Check Program

variable {e : Engine} {r : Request} {w : World} {B : Fields}

/-- The request is answered with status 200. -/
def Accepted (e : Engine) (r : Request) (w : World) : Prop :=
  ∃ response, ((respond e r).run w).1 = .ok response ∧ response.status = 200

/-- The request is answered with data that say of a definition that it is valid. -/
def FoundValid (e : Engine) (r : Request) (w : World) : Prop :=
  ∃ response, ((respond e r).run w).1 = .ok response ∧
    (response.body.get? "data").bind (·.get? "valid") = some (.bool true)

/-! ## Requests -/

/-- The answer to what a route came to. -/
def answerOf (debug : Bool) : Except Failure Response → Response
  | .ok response => response
  | .error f => .ofFailure debug f

/-- A response is the answer to what its route came to, and leaves what the route leaves. -/
theorem run_respond_eq {route : Route} (h : Route.find r = .ok route) (w : World) :
    (respond e r).run w = (.ok (answerOf e.settings.debug ((serve e r route).run w).1),
      ((serve e r route).run w).2) := by
  unfold respond
  rw [h]
  dsimp only
  rw [run_bind, run_attempt]
  cases ((serve e r route).run w).1 <;> rfl

theorem run_respond_of_serve {route : Route} {result : Except Failure Response} {w' : World}
    (h : Route.find r = .ok route) (hserve : (serve e r route).run w = (result, w')) :
    (respond e r).run w = (.ok (answerOf e.settings.debug result), w') := by
  rw [run_respond_eq h, hserve]

theorem run_respond {route : Route} (h : Route.find r = .ok route) (w : World) :
    ((respond e r).run w).1 = .ok (answerOf e.settings.debug ((serve e r route).run w).1) :=
  congrArg Prod.fst (run_respond_eq h w)

theorem status_ofFailure (debug : Bool) (f : Failure) : (Response.ofFailure debug f).status ≠ 200 := by
  have hrefused : (422 : Nat) ≠ 200 := by decide
  have hbroken : (500 : Nat) ≠ 200 := by decide
  cases f with
  | invalidRule errors => exact hrefused
  | _ => exact hbroken

/-- No failure is answered with status 200. -/
theorem accepted_iff {route : Route} (h : Route.find r = .ok route) : Accepted e r w ↔
    ∃ response, ((serve e r route).run w).1 = .ok response ∧ response.status = 200 := by
  unfold Accepted
  rw [run_respond h]
  cases ((serve e r route).run w).1 with
  | ok response =>
    exact ⟨fun ⟨_, heq, hstatus⟩ => ⟨_, heq, hstatus⟩, fun ⟨_, heq, hstatus⟩ => ⟨_, heq, hstatus⟩⟩
  | error f =>
    refine iff_of_false ?_ nofun
    rintro ⟨_, ⟨⟩, hstatus⟩
    exact status_ofFailure e.settings.debug f hstatus

/-- A refusal is not answered with status 200. -/
theorem status_of_refuse {found : List Issue} {response : Response}
    (h : ((refuse found).run w).1 = .ok response) : response.status ≠ 200 := by
  unfold refuse at h
  split at h
  · cases h
    exact nofun
  · cases h

theorem run_withBody {α : Type} {check : Checker α} {next : α → Program Response} {v : Value}
    (h : bodyOf r = .ok (some v)) : (withBody check r next).run w =
      match (check { now := w.clock, readable := true } v).under (.field "body") with
      | .ok a => (next a).run w
      | .issues found => (refuse found).run w := by
  unfold withBody
  rw [h]
  dsimp only
  rw [run_bind_ok (run_setting w)]
  show Program.run (match (check { now := w.clock, readable := true } v).under (.field "body") with
    | .ok a => next a
    | .issues found => refuse found) w = _
  cases (check { now := w.clock, readable := true } v).under (.field "body") <;> rfl

/-- A review is answered with what it found. -/
theorem foundValid_iff {R : Fields} (hfind : Route.find r = .ok .reviewRule)
    (hbody : bodyOf r = .ok (some (.obj R))) (hR : R.get? "rule_config" = some (.obj B)) :
    FoundValid e r w ↔ (Review.rule w.clock B).isValid = true := by
  have hcheck (s : Setting) : (ReviewRequest.check s (.obj R)).under (.field "body") = .ok ⟨B⟩ := by
    have hobject : required s R "rule_config" object = .ok B := required_of_get? hR rfl
    show Checked.under _ (ReviewRequest.mk <$> required s R "rule_config" object) = _
    rw [hobject]
    rfl
  have hrun : ((reviewRule r).run w).1 = .ok (.success (.obj
      [("valid", .bool (Review.rule w.clock B).isValid),
        ("errors", .ofTexts (Review.rule w.clock B).errors),
        ("warnings", .ofTexts (Review.rule w.clock B).warnings)])) := by
    unfold reviewRule
    rw [run_withBody hbody, hcheck]
    dsimp only
    rw [run_bind_ok (run_now w), run_pure]
  unfold FoundValid
  rw [run_respond hfind]
  show (∃ response, Except.ok (answerOf _ ((reviewRule r).run w).1) = .ok response ∧ _) ↔ _
  rw [hrun]
  constructor
  · rintro ⟨response, ⟨⟩, hvalid⟩
    exact Value.bool.inj (Option.some.inj hvalid)
  · intro hvalid
    exact ⟨_, rfl, congrArg (fun b => some (Value.bool b)) hvalid⟩

/-! ## Creations -/

theorem run_ensureValid (definition : Fields) (w : World) : (ensureValid definition).run w =
    (if (Review.rule w.clock definition).isValid then .ok (Review.rule w.clock definition)
      else .error (.invalidRule (Review.rule w.clock definition).errors), w) := by
  unfold ensureValid
  rw [run_bind_ok (run_now w)]
  dsimp only
  split <;> rfl

/-- With nothing out of reach the rule of a valid draft is stored. -/
theorem run_store_draft (hreach : w.outages = []) (d : RuleDraft) (review : Review) :
    ∃ response, (Program.run (do
        let created ← now
        let rule ← Rules.create (d.rule (← newRuleId) created created)
        return Response.success (.obj [("rule_id", .str rule.id),
          ("created_at", .str rule.createdAt.stamp), ("warnings", .ofTexts review.warnings)])) w).1 =
      .ok response ∧ response.status = 200 := by
  have hid : ∃ id w', newRuleId.run w = (.ok id, w') ∧ w'.outages = [] := ⟨_, _, rfl, hreach⟩
  obtain ⟨id, w', hid, hreach'⟩ := hid
  rw [run_bind_ok (run_now w), run_bind_ok hid]
  have hstored : ∃ w'', (Rules.create (d.rule id w.clock w.clock)).run w' =
      (.ok (d.rule id w.clock w.clock), w'') := by
    unfold Rules.create
    rw [Operation.run_guard hreach', run_bind_ok (run_store _ _), run_bind_ok (run_store _ _),
      run_bind_ok (run_store _ _), run_bind_ok (run_store _ _), run_pure]
    exact ⟨_, rfl⟩
  obtain ⟨w'', hstored⟩ := hstored
  rw [run_bind_ok hstored]
  exact ⟨_, rfl, rfl⟩

/-- A rule is stored, with nothing out of reach, when it passes as a draft that its review finds no
errors in. -/
theorem accepted_iff_draft (hfind : Route.find r = .ok .createRule)
    (hbody : bodyOf r = .ok (some (.obj B))) (hreach : w.outages = []) :
    Accepted e r w ↔ ∃ d, RuleDraft.check { now := w.clock, readable := true } (.obj B) = .ok d ∧
      (Review.rule w.clock d.fields).isValid = true := by
  rw [accepted_iff hfind]
  show (∃ response, ((createRule r).run w).1 = .ok response ∧ _) ↔ _
  unfold createRule
  rw [run_withBody hbody]
  cases RuleDraft.check { now := w.clock, readable := true } (.obj B) with
  | issues found =>
    refine iff_of_false ?_ nofun
    rintro ⟨response, heq, hstatus⟩
    exact status_of_refuse heq hstatus
  | ok d =>
    dsimp only [Checked.under]
    rw [run_bind, run_ensureValid]
    by_cases hvalid : (Review.rule w.clock d.fields).isValid = true
    · rw [if_pos hvalid]
      exact iff_of_true (run_store_draft hreach d _) ⟨d, rfl, hvalid⟩
    · rw [if_neg hvalid]
      refine iff_of_false nofun ?_
      rintro ⟨_, ⟨⟩, hvalid'⟩
      exact hvalid hvalid'

/-- A described body is created just when it is shaped and a review of it, with null for numbers that
are not finite, finds no errors; if its numbers are finite, this is what the review of the body
itself answers at the same moment. -/
theorem accepted_iff_foundValid {r' : Request} {w' : World} {R : Fields}
    (hfind : Route.find r = .ok .reviewRule) (hbody : bodyOf r = .ok (some (.obj R)))
    (hR : R.get? "rule_config" = some (.obj B)) (hfind' : Route.find r' = .ok .createRule)
    (hbody' : bodyOf r' = .ok (some (.obj B))) (hclock : w.clock = w'.clock)
    (hreach : w'.outages = []) (hB : Described B) :
    (Accepted e r' w' ↔
      (Review.rule w'.clock (Value.storableFields B)).isValid = true ∧ Shaped B) ∧
    (Value.allFiniteFields B = true → (Accepted e r' w' ↔ FoundValid e r w ∧ Shaped B)) := by
  have haccepted := (accepted_iff_draft (e := e) hfind' hbody' hreach).trans
    (draft_iff hB w'.clock)
  refine ⟨haccepted, fun hfinite => ?_⟩
  rw [haccepted, foundValid_iff hfind hbody hR, hclock, Value.storableFields_of_allFinite B hfinite]

/-! ## Bodies -/

deriving instance DecidableEq for Response

/-- A body with one action. -/
def planBody (conditions : Value) (type : String) (parameters : Value) : Fields :=
  [("user_id", .str "u"), ("name", .str "P"), ("trigger", .str "task_overdue"),
    ("conditions", conditions),
    ("actions", .list [.obj [("type", .str type), ("parameters", parameters)]])]

/-- The text of such a body. -/
def planText (conditions type parameters : String) : String :=
  "\x7b\"user_id\":\"u\",\"name\":\"P\",\"trigger\":\"task_overdue\",\"conditions\":"
    ++ conditions ++ ",\"actions\":[\x7b\"type\":\"" ++ type ++ "\",\"parameters\":" ++ parameters
    ++ "\x7d]\x7d"

/-- Asks to create a rule. -/
def creation (text : String) : Request := ⟨"POST", ⟨["api", "v1", "rules"], []⟩, some text⟩

/-- Asks to review a definition. -/
def review (text : String) : Request :=
  ⟨"POST", ⟨["api", "v1", "rules", "validate"], []⟩, some ("\x7b\"rule_config\":" ++ text ++ "\x7d")⟩

theorem described_planBody (conditions : Value) (type : String) (parameters : Value) :
    Described (planBody conditions type parameters) where
  user := ⟨"u", rfl, by decide⟩
  name := ⟨"P", rfl, by decide, by decide⟩
  description := .inl rfl
  active := .inl rfl

theorem shaped_planBody_iff (conditions : Value) (type : String) (parameters : Value) :
    Shaped (planBody conditions type parameters) ↔
      (∃ c, conditions = .obj c) ∧ ∃ given, parameters = .obj given := by
  constructor
  · intro h
    exact ⟨h.conditions conditions rfl,
      h.parameters _ rfl _ List.mem_cons_self _ parameters rfl rfl⟩
  · rintro ⟨⟨c, rfl⟩, ⟨given, rfl⟩⟩
    refine ⟨fun v hv => ⟨c, (Option.some.inj hv).symm⟩, ?_⟩
    rintro _ ⟨⟩ v hv fields p rfl hp
    cases List.mem_singleton.mp hv
    exact ⟨given, (Option.some.inj hp).symm⟩

/-- The two texts carry a body, and a definition with it. -/
def Carry (text : String) (B : Fields) : Prop :=
  bodyOf (creation text) = .ok (some (.obj B)) ∧
    bodyOf (review text) = .ok (some (.obj [("rule_config", .obj B)]))

instance (text : String) (B : Fields) : Decidable (Carry text B) := inferInstanceAs (Decidable (_ ∧ _))

theorem accepted_iff_foundValid_of_plan :
    Accepted {} (creation (planText "\x7b\x7d" "log_activity" "\x7b\x7d"))
      Engine.blankWorld := by
  have hcarry : Carry (planText "\x7b\x7d" "log_activity" "\x7b\x7d")
      (planBody (.obj []) "log_activity" (.obj [])) := by
    decide +kernel
  have hvalid : (Review.rule Engine.blankWorld.clock
      (planBody (.obj []) "log_activity" (.obj []))).isValid = true := by
    decide +kernel
  have hagree := (accepted_iff_foundValid (e := {}) rfl hcarry.2 rfl rfl hcarry.1
    (rfl : Engine.blankWorld.clock = Engine.blankWorld.clock) rfl (described_planBody _ _ _)).2 rfl
  refine hagree.mpr ⟨(foundValid_iff rfl hcarry.2 rfl).mpr hvalid, ?_⟩
  exact (shaped_planBody_iff _ _ _).mpr ⟨⟨[], rfl⟩, ⟨_, rfl⟩⟩

/-- A described body is found valid and not created at the same moment. -/
def Disagree (text : String) (B : Fields) : Prop :=
  Described B ∧ Carry text B ∧ FoundValid {} (review text) Engine.blankWorld ∧
    ¬ Accepted {} (creation text) Engine.blankWorld

theorem disagree_planBody {text type : String} {conditions parameters : Value}
    (hcarry : Carry text (planBody conditions type parameters))
    (hvalid : (Review.rule Engine.blankWorld.clock (planBody conditions type parameters)).isValid = true)
    (hnot : ¬ ((Review.rule Engine.blankWorld.clock
      (Value.storableFields (planBody conditions type parameters))).isValid = true ∧
      Shaped (planBody conditions type parameters))) :
    Disagree text (planBody conditions type parameters) := by
  have hB := described_planBody conditions type parameters
  refine ⟨hB, hcarry, (foundValid_iff rfl hcarry.2 rfl).mpr hvalid, fun haccepted => hnot ?_⟩
  exact (draft_iff hB _).mp ((accepted_iff_draft rfl hcarry.1 rfl).mp haccepted)

/-- Conditions that are null, parameters that are null, and a number that is not finite. -/
theorem found_valid_not_accepted :
    Disagree (planText "null" "log_activity" "\x7b\x7d")
        (planBody .null "log_activity" (.obj [])) ∧
      Disagree (planText "\x7b\x7d" "log_activity" "null")
        (planBody (.obj []) "log_activity" .null) ∧
      Disagree (planText "\x7b\x7d" "update_estimates" "\x7b\"buffer_percent\":1e999\x7d")
        (planBody (.obj []) "update_estimates"
          (.obj [("buffer_percent", .float (Decimal.infinity false))])) := by
  refine ⟨disagree_planBody ?_ ?_ fun h => ?_, disagree_planBody ?_ ?_ fun h => ?_,
    disagree_planBody ?_ ?_ fun h => ?_⟩
  · decide +kernel
  · decide +kernel
  · obtain ⟨⟨c, hc⟩, -⟩ := (shaped_planBody_iff _ _ _).mp h.2
    cases hc
  · decide +kernel
  · decide +kernel
  · obtain ⟨-, ⟨given, hgiven⟩⟩ := (shaped_planBody_iff _ _ _).mp h.2
    cases hgiven
  · decide +kernel
  · decide +kernel
  · revert h
    have hrefused : (Review.rule Engine.blankWorld.clock (Value.storableFields
        (planBody (.obj []) "update_estimates"
          (.obj [("buffer_percent", .float (Decimal.infinity false))])))).isValid = false := by
      decide +kernel
    rw [hrefused]
    exact fun h => nomatch h.1

end TaskAutomation.Api.Service
