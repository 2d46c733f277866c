import TaskAutomation.Proofs.Action.Effects
import TaskAutomation.Proofs.Api.Agreement
import TaskAutomation.Proofs.Engine.Blame

/-!
# Refusals and questions change nothing

* `Response.IsRefusal` : a status from 400 to 499; `Request.Asks` : a request that gets something, or
  has a rule reviewed or tried; `Route.asks_of_find` : its route is one that only asks;
* `Rules.leavesOn_update`, `Rules.leavesOn_setActive`, `Rules.leavesOn_delete` : an edit that does not
  end in its rule leaves the store as it was;
* `Service.RefusesFirst p` : so does a run that is answered with a refusal: the checks of a route come
  before its first write, and what comes after it refuses nothing (`RefusesFirst.of_blameless`);
* `Service.inert_serve`, `Service.refusesFirst_serve` : every route, by what it does;
* `Service.refused_or_asked_keeps_store` : whatever is out of reach, a request that is refused, or
  that asks only, leaves the store as it was.
-/

namespace TaskAutomation.Rules

open Check Program

/-! ## Edits that come to nothing -/

/-- A rule is looked for before its first write, and once it is found, it is edited. -/
theorem leavesOn_update {bad : Except Failure (Option Rule) → Prop}
    (hbad : ∀ rule, ¬bad (.ok (some rule))) (id : String) (rule : Rule) :
    (update id rule).LeavesOn bad := by
  refine .guarded (.after_inert (discreet_get id).touches.inert fun existing? => ?_)
  cases existing? with
  | none => exact .of_inert (.done _)
  | some existing =>
    have hwrite : ∀ updated : Rule, (do
        writeDefinition id updated
        return some updated : Program (Option Rule)).Succeeds fun a => ¬bad (.ok a) :=
      fun updated => .bind (.call _) fun _ _ => .done (hbad updated)
    refine .of_succeeds (.bind (.call _) fun now _ => ?_)
    dsimp only
    split
    · exact .bind (.call _) fun _ _ => .bind (.call _) fun _ _ => hwrite _
    · exact hwrite _

theorem leavesOn_setActive {bad : Except Failure (Option Rule) → Prop}
    (hbad : ∀ rule, ¬bad (.ok (some rule))) (id : String) (isActive : Bool) :
    (setActive id isActive).LeavesOn bad := by
  refine .guarded (.after_inert (discreet_get id).touches.inert fun existing? => ?_)
  cases existing? with
  | none => exact .of_inert (.done _)
  | some existing =>
    exact .of_succeeds (.bind (.call _) fun _ _ => .bind (.call _) fun _ _ => .done (hbad _))

theorem leavesOn_delete {bad : Except Failure Bool → Prop} (hbad : ¬bad (.ok true)) (id : String) :
    (delete id).LeavesOn bad := by
  refine .guarded (.after_inert (discreet_get id).touches.inert fun existing? => ?_)
  cases existing? with
  | none => exact .of_inert (.done _)
  | some existing =>
    exact .of_succeeds (.bind (.call _) fun _ _ => .bind (.call _) fun _ _ =>
      .bind (.call _) fun _ _ => .bind (.call _) fun _ _ => .done hbad)

end TaskAutomation.Rules

namespace TaskAutomation.Api

open Check Program

/-! ## Refusals and questions -/

/-- The request is refused. -/
def Response.IsRefusal (response : Response) : Prop := 400 ≤ response.status ∧ response.status < 500

theorem Response.not_isRefusal_of_status {response : Response} (h : response.status = 200) :
    ¬response.IsRefusal := by
  unfold IsRefusal
  omega

/-- What fails for no rule of the engine is an error of the server. -/
theorem Response.not_isRefusal_ofFailure (debug : Bool) {f : Failure} (h : f.isOwn = false) :
    ¬(Response.ofFailure debug f).IsRefusal := by
  have hserver : ¬(400 ≤ 500 ∧ 500 < 500) := by decide
  cases f with
  | invalidRule errors => cases h
  | _ => exact hserver

/-- The request asks for something only: it gets it, or has a rule reviewed or tried. -/
def Request.Asks (r : Request) : Prop :=
  r.method = "GET" ∨ r.method = "POST" ∧ ∃ word ∈ ["validate", "test"],
    r.target.segments = ["api", "v1", "rules", word] ∨
      r.target.segments = ["api", "v1", "rules", word, ""]

namespace Route

/-- A route that asks for something only. -/
def asks : Route → Bool
  | reviewRule | tryRule | listRules | getRule _ | history _ | executions | triggers
  | suggestions | health => true
  | _ => false

theorem asks_of_ofRules {segments : List String} {route : Route}
    (h : ("GET", route) ∈ ofRules segments) : route.asks = true := by
  unfold ofRules at h
  split at h <;> grind [asks]

theorem asks_of_ofAddress {segments : List String} {route : Route}
    (h : ("GET", route) ∈ ofAddress segments) : route.asks = true := by
  unfold ofAddress at h
  split at h
  · exact asks_of_ofRules h
  all_goals grind [asks]

/-- The route of a request is one of those at its address, or at the address turned. -/
theorem mem_of_find {r : Request} {route : Route} (h : find r = .ok route) :
    ∃ segments, (r.method, route) ∈ ofAddress segments := by
  have hmem : (r.method, route) ∈ table r.target := by
    unfold find at h
    split at h
    · cases h
    · cases hfound : (table r.target).lookup r.method with
      | none =>
        rw [hfound] at h
        cases h
      | some found =>
        rw [hfound] at h
        cases h
        obtain ⟨before, after, heq, -⟩ := List.lookup_eq_some_iff.mp hfound
        rw [heq]
        exact List.mem_append_right before List.mem_cons_self
  unfold table at hmem
  split at hmem
  · exact ⟨_, hmem⟩
  · exact ⟨_, hmem⟩

/-- The route of a request that only asks is one that only asks. -/
theorem asks_of_find {r : Request} {route : Route} (h : find r = .ok route) (hasks : r.Asks) :
    route.asks = true := by
  rcases hasks with hget | ⟨hpost, word, hword, haddress⟩
  · obtain ⟨segments, hmem⟩ := mem_of_find h
    rw [hget] at hmem
    exact asks_of_ofAddress hmem
  · obtain ⟨method, ⟨segments, query⟩, body⟩ := r
    simp only [List.mem_cons, List.not_mem_nil, or_false] at hword
    rcases hword with rfl | rfl <;> rcases haddress with rfl | rfl <;> cases hpost <;> cases h <;> rfl

end Route

namespace Service

/-! ## Questions -/

section Inert

variable {α : Type} {r : Request}

theorem inert_refuse (found : List Issue) : Inert (refuse found) := by
  unfold refuse
  split
  · exact .done _
  · exact .fail _

theorem inert_withBody {check : Checker α} {next : α → Program Response}
    (h : ∀ a, Inert (next a)) : Inert (withBody check r next) := by
  unfold withBody
  split
  · exact .done _
  · refine .bind (.setting trivial) fun s => ?_
    split
    · exact h _
    · exact inert_refuse _

theorem inert_withQuery {check : Setting → Fields → Checked α} {next : α → Program Response}
    (h : ∀ a, Inert (next a)) : Inert (withQuery check r next) := by
  refine .bind (.setting trivial) fun s => ?_
  split
  · exact h _
  · exact inert_refuse _

theorem inert_withRule {id : String} {next : Rule → Program Response}
    (h : ∀ rule, Inert (next rule)) : Inert (withRule id next) := by
  refine .bind (Rules.discreet_get id).touches.inert fun rule? => ?_
  cases rule? with
  | some rule => exact h rule
  | none => exact .done _

theorem inert_withTask {id : String} {next : Task → Program Response}
    (h : ∀ task, Inert (next task)) : Inert (withTask id next) := by
  refine .bind (Tasks.discreet_get id).touches.inert fun task? => ?_
  cases task? with
  | some task => exact h task
  | none => exact .done _

theorem inert_ensureValid (definition : Fields) : Inert (ensureValid definition) := by
  refine .bind (.call trivial) fun now => ?_
  dsimp only
  split
  · exact .done _
  · exact .fail _

end Inert

/-- A trial looks at the conditions of a rule and fills in its actions, and runs none of them. -/
theorem inert_trial (rule : Rule) (x : Occurrence) : Inert (Engine.trial rule x) := by
  refine .guard trivial (.bind (.call trivial) fun now => ?_)
  refine .bind (.attempt (.guardFor trivial (.ofExcept _))) fun matched? => ?_
  cases matched? with
  | error f => exact .done _
  | ok matched => exact .done _

theorem inert_tryOn (rule : Rule) (x : TrialRequest) : Inert (tryOn rule x) := by
  have htry : ∀ task : Task, Inert (do
      let t ← Engine.trial rule (x.details.occurrence rule.trigger task (← now))
      return Response.success
        (trialValue t.review t.matched t.planned t.context t.error).storable) :=
    fun task => .bind (.call trivial) fun now => .bind (inert_trial rule _) fun t => .done _
  unfold tryOn
  split
  · exact inert_withTask htry
  · exact htry _
  · exact .done _

/-- The routes of questions write nothing. -/
theorem inert_serve (e : Engine) (r : Request) {route : Route} (h : route.asks = true) :
    Inert (serve e r route) := by
  cases route with
  | reviewRule => exact inert_withBody fun x => .bind (.call trivial) fun now => .done _
  | tryRule =>
    refine inert_withBody fun x => ?_
    split
    · exact inert_withRule fun rule => inert_tryOn rule x
    · refine .bind (.call trivial) fun moment => ?_
      dsimp only
      split
      · exact inert_tryOn _ x
      · exact .done _
    · exact .done _
  | listRules =>
    refine inert_withQuery fun x => ?_
    dsimp only
    split
    · exact .bind (Rules.discreet_ofUser _).touches.inert fun stored => .done _
    · exact .bind Rules.discreet_all.touches.inert fun stored => .done _
  | getRule id => exact .bind (Rules.discreet_get id).touches.inert fun rule? => .done _
  | history id =>
    show Inert (history id r)
    unfold history
    refine inert_withQuery ?_
    rintro ⟨page, status⟩
    exact inert_withRule fun _ =>
      .bind (Rules.discreet_runs _ _).touches.inert fun records => .done _
  | executions =>
    show Inert (executions r)
    unfold executions
    refine inert_withQuery ?_
    rintro ⟨page, user, status⟩
    exact .bind (Rules.discreet_runs _ _).touches.inert fun records => .done _
  | triggers => exact .done _
  | suggestions =>
    show Inert (suggestions r)
    unfold suggestions
    refine inert_withQuery ?_
    rintro ⟨user, limit⟩
    exact .bind (.call trivial) fun now =>
      .bind (Tasks.discreet_recent _ _).touches.inert fun tasks => .done _
  | health => exact .done _
  | runRule _ | createRule | replaceRule _ | changeRule _ | deleteRule _ | switchRule _ | submitEvent
  | scan => cases h

/-! ## Refusals -/

/-- A run that is answered with a refusal leaves the store as it was. -/
abbrev RefusesFirst (p : Program Response) : Prop :=
  ∀ debug, p.LeavesOn fun outcome => (answerOf debug outcome).IsRefusal

namespace RefusesFirst

variable {α : Type} {r : Request}

theorem of_inert {p : Program Response} (h : Inert p) : RefusesFirst p := fun _ => .of_inert h

/-- What fails for no rule of the engine, and otherwise succeeds, refuses nothing. -/
theorem of_blameless {p : Program α} {response : α → Response} (h : Blameless p)
    (hresponse : ∀ a, (response a).status = 200) : RefusesFirst (do return response (← p)) := by
  intro debug
  refine .of_never (.bind (h.mono fun f hf => ?_) fun a => .done _) (.after fun a => .done ?_)
  · exact Response.not_isRefusal_ofFailure debug hf
  · exact Response.not_isRefusal_of_status (hresponse a)

theorem after_inert {p : Program α} {g : α → Program Response} (hp : Inert p)
    (hg : ∀ a, RefusesFirst (g a)) : RefusesFirst (p >>= g) :=
  fun debug => .after_inert hp fun a => hg a debug

theorem withBody {check : Checker α} {next : α → Program Response}
    (h : ∀ a, RefusesFirst (next a)) : RefusesFirst (Service.withBody check r next) := by
  unfold Service.withBody
  split
  · exact of_inert (.done _)
  · refine after_inert (.setting trivial) fun s => ?_
    split
    · exact h _
    · exact of_inert (inert_refuse _)

theorem withRule {id : String} {next : Rule → Program Response}
    (h : ∀ rule, RefusesFirst (next rule)) : RefusesFirst (Service.withRule id next) := by
  refine after_inert (Rules.discreet_get id).touches.inert fun rule? => ?_
  cases rule? with
  | some rule => exact h rule
  | none => exact of_inert (.done _)

theorem withTask {id : String} {next : Task → Program Response}
    (h : ∀ task, RefusesFirst (next task)) : RefusesFirst (Service.withTask id next) := by
  refine after_inert (Tasks.discreet_get id).touches.inert fun task? => ?_
  cases task? with
  | some task => exact h task
  | none => exact of_inert (.done _)

/-- An edit is answered with its rule, or refused where there is none. -/
theorem answerRule {id : String} {p : Program (Option Rule)}
    (h : ∀ bad : Except Failure (Option Rule) → Prop, (∀ rule, ¬bad (.ok (some rule))) →
      p.LeavesOn bad) : RefusesFirst (do return Service.answerRule id (← p)) :=
  fun _ => .map (fun _ => rfl) (h _ fun _ => Response.not_isRefusal_of_status rfl)

end RefusesFirst

/-- Whatever a route does, it refuses before its first write. -/
theorem refusesFirst_serve (e : Engine) (r : Request) (route : Route) :
    RefusesFirst (serve e r route) := by
  cases route with
  | createRule =>
    refine .withBody fun draft => .after_inert (inert_ensureValid _) fun review => ?_
    refine .after_inert (.call trivial) fun created => ?_
    refine .after_inert (.bind (.call trivial) fun _ => .bind (.call trivial) fun _ => .done _) fun id => ?_
    exact .of_blameless (Rules.blameless_create _) fun rule => rfl
  | replaceRule id =>
    refine .withBody fun draft => .withRule fun existing => ?_
    refine .after_inert (inert_ensureValid _) fun _ => .after_inert (.call trivial) fun now => ?_
    exact .answerRule fun bad hbad => Rules.leavesOn_update hbad id _
  | changeRule id =>
    refine .withBody fun patch => .withRule fun existing => ?_
    refine .after_inert (inert_ensureValid _) fun _ => .after_inert (.setting trivial) fun s => ?_
    refine .after_inert (.ofChecked _ _) fun rule => ?_
    exact .answerRule fun bad hbad => Rules.leavesOn_update hbad id rule
  | deleteRule id =>
    intro debug
    refine .map (f := fun found => if found then .told ("Rule " ++ id ++ " deleted") .null
      else .notFound "Rule" id) (fun found => ?_) ?_
    · cases found <;> rfl
    · exact Rules.leavesOn_delete (Response.not_isRefusal_of_status rfl) id
  | switchRule id =>
    exact .withBody fun x => .answerRule fun bad hbad => Rules.leavesOn_setActive hbad id x.isActive
  | runRule id =>
    refine .withBody fun x => .withRule fun rule => .withTask fun task => ?_
    refine .after_inert (.call trivial) fun now => ?_
    exact .of_blameless (Engine.blameless_execute _ _ _) fun outcome => rfl
  | submitEvent =>
    refine .withBody fun event => .of_blameless (Delivery.blameless_handle e event) fun outcome => ?_
    cases outcome <;> rfl
  | scan =>
    exact .after_inert (.call trivial) fun now => .of_blameless Scan.blameless_all fun report => rfl
  | reviewRule | tryRule | listRules | getRule _ | history _ | executions | triggers | suggestions
  | health => exact .of_inert (inert_serve e r rfl)

/-- Whatever is out of reach, every request is answered, and if it is refused, or only asks, the store
is as it was. -/
theorem refused_or_asked_keeps_store (e : Engine) (r : Request) (w : World) :
    ∃ response, ((respond e r).run w).1 = .ok response ∧
      (response.IsRefusal ∨ r.Asks → ((respond e r).run w).2.store = w.store) := by
  cases hfind : Route.find r with
  | error refusal =>
    have hrun : (respond e r).run w = (.ok refusal, w) := by
      unfold respond
      rw [hfind]
      rfl
    rw [hrun]
    exact ⟨refusal, rfl, fun _ => rfl⟩
  | ok route =>
    rw [run_respond_eq hfind]
    refine ⟨_, rfl, fun h => ?_⟩
    rcases h with hrefusal | hasks
    · exact refusesFirst_serve e r route e.settings.debug w hrefusal
    · exact store_run_of_inert (inert_serve e r (Route.asks_of_find hfind hasks)) w

/-- A world with an id in the index of all rules, and nothing under it. -/
def strayWorld : World :=
  { store := ⟨[(.ruleAll, ⟨.set ["rule_1"], none⟩)]⟩, clock := Moment.ofInstant 0 }

/-- Asks to remove the rule of that id. -/
def strayDeletion : Request := ⟨"DELETE", ⟨["api", "v1", "rules", "rule_1"], []⟩, none⟩

/-- There is no rule to remove, and the id stays in the index. -/
theorem refused_or_asked_keeps_store_of_stray :
    ((respond {} strayDeletion).run strayWorld).1 = .ok (.notFound "Rule" "rule_1") ∧
      ((respond {} strayDeletion).run strayWorld).2.store = strayWorld.store := by
  have hrefused : ((respond {} strayDeletion).run strayWorld).1 = .ok (.notFound "Rule" "rule_1") := rfl
  obtain ⟨response, hresponse, hkept⟩ := refused_or_asked_keeps_store {} strayDeletion strayWorld
  cases hrefused.symm.trans hresponse
  exact ⟨hrefused, hkept (.inl ⟨by decide, by decide⟩)⟩

end Service

end TaskAutomation.Api
