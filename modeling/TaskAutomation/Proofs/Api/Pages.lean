import TaskAutomation.Proofs.Api.Change
import TaskAutomation.Proofs.Api.Query
import TaskAutomation.Proofs.History.Limits
import TaskAutomation.Proofs.Text.Case

/-!
# Pages of listings

A listing is asked for page by page, each request for itself. What the requests for all pages are answered with,
put together, is the listing.

* `Page.flatMap_slice` : the pages of a list, one after another, are its first items;
* `Partitioned e w asks all` : a listing is cut into the pages that requests ask for, and each is answered with the
  length of the whole; `Partitioned.of_answered` : it is so where each request is answered with a slice;
* `Service.newestFirst_strict` : rules that were created at different instants stand in one order only;
* `Service.run_listRules`, `Service.run_history`, `Service.run_executions` : what the three listings answer;
* `Service.pages_partition` : the pages of each are the whole listing, each item once;
  `Service.all_of_no_user` : a listing for a user whose id is empty has the rules of other users.
-/

namespace TaskAutomation.Api

open Check Program

/-! ## Pages of a list -/

namespace Page

variable {α : Type} {p : Page} {items : List α} {size : Int}

/-- The pages of a list, one after another, are its first items. -/
theorem flatMap_slice (hsize : 0 ≤ size) (items : List α) (n : Nat) :
    (List.range n).flatMap (fun i : Nat => slice ⟨(i : Int) + 1, size⟩ items) =
      items.take (n * size.toNat) := by
  induction n with
  | zero => simp
  | succ n ih =>
    have hoffset : (offset ⟨(n : Int) + 1, size⟩).toNat = n * size.toNat := by
      obtain ⟨k, rfl⟩ := Int.eq_ofNat_of_zero_le hsize
      show ((n + 1 - 1 : Int) * k).toNat = n * k
      rw [Int.add_sub_cancel]
      exact Int.toNat_natCast (n * k)
    rw [List.range_succ, List.flatMap_append, ih, List.flatMap_singleton, slice, hoffset,
      Nat.succ_mul, List.take_add]

/-- Past the end of a list its pages are empty. -/
theorem slice_eq_nil (h : items.length ≤ p.offset) : p.slice items = [] := by
  unfold slice
  rw [List.drop_of_length_le (by omega), List.take_nil]

theorem slice_map {β : Type} (p : Page) (f : α → β) (items : List α) :
    p.slice (items.map f) = (p.slice items).map f := by
  unfold slice
  rw [List.map_take, List.map_drop]

end Page

variable {e : Engine} {r : Request} {w : World}

/-- The items of the page that a request is answered with. -/
def itemsOf (e : Engine) (r : Request) (w : World) : List Value :=
  match ((Service.respond e r).run w).1 with
  | .ok response =>
    match response.body.get? "data" with
    | some (.list items) => items
    | _ => []
  | .error _ => []

/-- A listing is cut into the pages that requests ask for: each can be asked for, and is answered with the length
of the whole listing and without a change; those that reach to the end are all of it, one after another, and those
past the end are empty. -/
structure Partitioned (e : Engine) (w : World) (asks : Page → Request → Prop) (all : List Value) : Prop where
  asked : ∀ p : Page, p.Offered → ∃ r, asks p r
  answered : ∀ p r, asks p r → (Service.respond e r).run w =
    (.ok (.page (p.slice all) all.length p.number p.size), w)
  whole : ∀ (size : Int) (ask : Nat → Request) (n : Nat),
    (∀ i < n, asks ⟨i + 1, size⟩ (ask i)) → all.length ≤ n * size →
    (List.range n).flatMap (fun i => itemsOf e (ask i) w) = all
  past : ∀ p r, asks p r → all.length ≤ p.offset → itemsOf e r w = []

theorem Partitioned.of_answered {asks : Page → Request → Prop} {all : List Value}
    (hasked : ∀ p : Page, p.Offered → ∃ r, asks p r)
    (hsize : ∀ p r, asks p r → 1 ≤ p.size)
    (hanswered : ∀ p r, asks p r → (Service.respond e r).run w =
      (.ok (.page (p.slice all) all.length p.number p.size), w)) : Partitioned e w asks all := by
  have hitems : ∀ p r, asks p r → itemsOf e r w = p.slice all := by
    intro p r hasks
    unfold itemsOf
    rw [hanswered p r hasks]
    rfl
  refine ⟨hasked, hanswered, fun size ask n hask hlength => ?_, fun p r hasks hlength => ?_⟩
  · rcases Nat.eq_zero_or_pos n with rfl | hn
    · rw [List.eq_nil_of_length_eq_zero (by omega : all.length = 0)]
      rfl
    · have hpos : 1 ≤ size := hsize _ _ (hask 0 hn)
      have hpages : (List.range n).flatMap (fun i => itemsOf e (ask i) w) =
          (List.range n).flatMap (fun i : Nat => Page.slice ⟨(i : Int) + 1, size⟩ all) :=
        List.flatMap_congr fun i hi => hitems _ _ (hask i (List.mem_range.mp hi))
      rw [hpages, Page.flatMap_slice (by omega)]
      refine List.take_of_length_le ?_
      obtain ⟨k, rfl⟩ := Int.eq_ofNat_of_zero_le (show 0 ≤ size by omega)
      exact_mod_cast hlength
  · rw [hitems p r hasks, Page.slice_eq_nil hlength]

namespace Service

theorem run_withQuery {α : Type} {check : Setting → Fields → Checked α} {next : α → Program Response}
    {a : α} (h : check { now := w.clock } r.target.fields = .ok a) :
    (withQuery check r next).run w = (next a).run w := by
  unfold withQuery
  rw [run_bind_ok (run_setting w), h]
  rfl

/-! ## Rules -/

/-- The rule is one that the filter leaves: an empty text for a user leaves all. -/
structure RuleFilter.Satisfied (x : RuleFilter) (rule : Rule) : Prop where
  user : ∀ user ∈ x.userId, user ≠ "" → rule.userId = user
  trigger : ∀ trigger ∈ x.trigger, rule.trigger = trigger
  active : ∀ isActive ∈ x.isActive, rule.isActive = isActive
  name : ∀ needle ∈ x.nameContains, (Text.lower needle).toList <:+: (Text.lower rule.name).toList

theorem RuleFilter.admits_iff {x : RuleFilter} {rule : Rule} : x.admits rule = true ↔
    (∀ trigger ∈ x.trigger, rule.trigger = trigger) ∧
    (∀ isActive ∈ x.isActive, rule.isActive = isActive) ∧
    ∀ needle ∈ x.nameContains, (Text.lower needle).toList <:+: (Text.lower rule.name).toList := by
  unfold RuleFilter.admits
  simp only [Bool.and_eq_true, Option.all_eq_true, beq_iff_eq, Text.occursIn_iff, and_assoc]
  refine and_congr ?_ (and_congr_left' ?_)
  · exact forall₂_congr fun trigger _ => eq_comm
  · exact forall₂_congr fun isActive _ => eq_comm

/-- Rules that were created at different instants stand in strictly decreasing order. -/
theorem newestFirst_strict {rules : List Rule} (honce : (rules.map Rule.id).Nodup)
    (hdistinct : ∀ a ∈ rules, ∀ b ∈ rules, a.createdAt.instant = b.createdAt.instant → a.id = b.id) :
    (newestFirst rules).Pairwise fun a b => b.createdAt.instant < a.createdAt.instant := by
  have hmem : ∀ a, a ∈ newestFirst rules ↔ a ∈ rules := fun a => List.mem_mergeSort
  have hsorted : (newestFirst rules).Pairwise fun a b => b.createdAt.instant ≤ a.createdAt.instant := by
    refine (List.pairwise_mergeSort ?_ ?_ rules).imp fun h => (Rules.noLater_iff _ _).mp h
    · intro a b c hab hbc
      rw [Rules.noLater_iff] at hab hbc ⊢
      exact le_trans hbc hab
    · intro a b
      rw [Bool.or_eq_true, Rules.noLater_iff, Rules.noLater_iff]
      exact le_total _ _
  have hids : (newestFirst rules).Pairwise fun a b => a.id ≠ b.id :=
    List.pairwise_map.mp (((List.mergeSort_perm rules _).map Rule.id).nodup_iff.mpr honce)
  refine (hsorted.and hids).imp_of_mem fun ha hb ⟨hle, hne⟩ => lt_of_le_of_ne hle fun heq => hne ?_
  exact hdistinct _ ((hmem _).mp ha) _ ((hmem _).mp hb) heq.symm

/-- The request asks for a page of the rules that a filter leaves. -/
def AsksRules (w : World) (x : RuleFilter) (p : Page) (r : Request) : Prop :=
  Route.find r = .ok .listRules ∧
    RuleFilter.ofFields { now := w.clock } r.target.fields = .ok { x with page := p }

theorem exists_asksRules (w : World) (x : RuleFilter) {p : Page} (h : p.Offered) :
    ∃ r, AsksRules w x p r := by
  let y : RuleFilter := { x with page := p }
  exact ⟨⟨"GET", ⟨["api", "v1", "rules"], Target.given y.names⟩, none⟩, rfl,
    RuleFilter.ofFields_given (x := y) h⟩

theorem AsksRules.one_le_size {x : RuleFilter} {p : Page} (h : AsksRules w x p r) : 1 ≤ p.size := by
  obtain ⟨_, name, h₁, -, heq⟩ := Checked.seq_eq_ok.mp h.2
  obtain ⟨_, active, h₂, -, rfl⟩ := Checked.seq_eq_ok.mp h₁
  obtain ⟨_, trigger, h₃, -, rfl⟩ := Checked.seq_eq_ok.mp h₂
  obtain ⟨_, user, h₄, -, rfl⟩ := Checked.seq_eq_ok.mp h₃
  obtain ⟨page, hpage, rfl⟩ := Checked.map_eq_ok.mp h₄
  cases heq
  exact (Page.bounds_of_ofFields hpage).2.1

section Listing

variable {m : String → Option Rule} (h : Rules.Indexed w.store m) (ho : w.outages = [])
include h ho

/-- A listing goes on with the stored rules of a user, or with all of them where there is no text for a user. -/
theorem run_owned (user? : Option String) : ∃ rules,
    Rules.Lists m (fun rule => ∀ user ∈ user?, user ≠ "" → rule.userId = user) rules ∧
    ∀ next : List Rule → Program Response, Program.run (match user?.filter fun s => !s.isEmpty with
      | some user => Rules.ofUser user >>= next
      | none => Rules.all >>= next) w = (next rules).run w := by
  -- the listing goes on inside each branch, so what follows it is a continuation here
  obtain ⟨every, hall, hevery⟩ := Rules.run_all h ho
  cases user? with
  | none =>
    exact ⟨every, hevery.congr fun _ _ => ⟨fun _ => nofun, fun _ => trivial⟩, fun _ => run_bind_ok hall⟩
  | some user =>
    by_cases huser : user = ""
    · subst huser
      refine ⟨every, hevery.congr fun _ _ => ⟨fun _ => ?_, fun _ => trivial⟩, fun _ => run_bind_ok hall⟩
      rintro _ ⟨⟩ hne
      exact absurd rfl hne
    · obtain ⟨rules, hrun, hlists⟩ := Rules.run_ofUser h ho user
      rw [History.filter_nonempty huser]
      refine ⟨rules, hlists.congr fun rule _ => ⟨?_, fun hown => hown user rfl huser⟩,
        fun _ => run_bind_ok hrun⟩
      rintro rfl _ ⟨⟩ -
      rfl

/-- Requests for the pages of the rules that a filter leaves are answered with slices of one list. -/
theorem run_listRules (x : RuleFilter) : ∃ rules : List Rule, (rules.map Rule.id).Nodup ∧
    (∀ rule, rule ∈ rules ↔ Rules.Stored w rule ∧ x.Satisfied rule) ∧
    ∀ p r, AsksRules w x p r → (respond e r).run w =
      (.ok (.page ((p.slice (newestFirst rules)).map Rule.value) (newestFirst rules).length
        p.number p.size), w) := by
  obtain ⟨owned, hlists, hrun⟩ := run_owned h ho x.userId
  have hfilter := hlists.filter x.admits
  refine ⟨owned.filter x.admits, hfilter.once, fun rule => ?_, fun p r ⟨hfind, hfields⟩ => ?_⟩
  · rw [hfilter.mem, Rules.stored_iff h ho, RuleFilter.admits_iff]
    exact and_congr_right' ⟨fun ⟨huser, htrigger, hactive, hname⟩ => ⟨huser, htrigger, hactive, hname⟩,
      fun hx => ⟨hx.user, hx.trigger, hx.active, hx.name⟩⟩
  · have hserve : (serve e r .listRules).run w =
        (.ok (.page ((p.slice (newestFirst (owned.filter x.admits))).map Rule.value)
          (newestFirst (owned.filter x.admits)).length p.number p.size), w) := by
      show (listRules r).run w = _
      unfold listRules
      rw [run_withQuery hfields]
      exact hrun _
    exact run_respond_of_serve hfind hserve

end Listing

/-! ## Records of runs -/

/-- The records that are kept under a key can be read. -/
def Recorded (w : World) (k : Key) (runs : List Execution) : Prop :=
  List.Forall₂ (fun c run => (Rules.runOf c).Shows w run) (w.store.list w.clock.instant k) runs

/-- The records with a status, or all of them where none is given. -/
def withStatus (status : Option ExecutionStatus) (runs : List Execution) : List Execution :=
  runs.filter fun run => status.all (· == run.status)

/-- The request asks for a page of the records of a rule. -/
def AsksHistory (w : World) (id : String) (status : Option ExecutionStatus) (p : Page) (r : Request) : Prop :=
  Route.find r = .ok (.history id) ∧
    Page.ofFields { now := w.clock } r.target.fields = .ok p ∧
    statusFilter { now := w.clock } r.target.fields = .ok status

/-- The request asks for a page of the records of a user. -/
def AsksExecutions (w : World) (user : String) (status : Option ExecutionStatus) (p : Page) (r : Request) :
    Prop :=
  Route.find r = .ok .executions ∧
    Page.ofFields { now := w.clock } r.target.fields = .ok p ∧
    required { now := w.clock } r.target.fields "user_id" (textWithin 1 none) = .ok user ∧
    statusFilter { now := w.clock } r.target.fields = .ok status

section Records

variable {id user : String} {status : Option ExecutionStatus} {p : Page} {runs : List Execution}

theorem exists_asksHistory (hid : id ≠ "") (h : p.Offered) : ∃ r, AsksHistory w id status p r := by
  have honce : ((p.names ++ [("status", status.map ExecutionStatus.name)]).map Prod.fst).Nodup := by
    show ["page", "page_size", "status"].Nodup
    decide
  refine ⟨⟨"GET", ⟨["api", "v1", "rules", id, "history"],
    Target.given (p.names ++ [("status", status.map ExecutionStatus.name)])⟩, none⟩, ?_, ?_, ?_⟩
  · simp [Route.find, Route.table, Route.ofAddress, Route.ofRules, hid]
  · exact Page.ofFields_given h honce
  · exact Target.optional_narrowing ExecutionStatus.name honce (by simp) (ExecutionStatus.check_name _)

theorem exists_asksExecutions (huser : user ≠ "") (h : p.Offered) :
    ∃ r, AsksExecutions w user status p r := by
  have honce : ((p.names ++ [("user_id", some user),
      ("status", status.map ExecutionStatus.name)]).map Prod.fst).Nodup := by
    show ["page", "page_size", "user_id", "status"].Nodup
    decide
  refine ⟨⟨"GET", ⟨["api", "v1", "executions"], Target.given (p.names ++ [("user_id", some user),
    ("status", status.map ExecutionStatus.name)])⟩, none⟩, rfl, ?_, ?_, ?_⟩
  · exact Page.ofFields_given h honce
  · exact Target.required_given honce (by simp) (textWithin_one user huser)
  · exact Target.optional_narrowing ExecutionStatus.name honce (by simp) (ExecutionStatus.check_name _)

theorem shows_runs_rule (ho : w.outages = []) (hid : id ≠ "") (hruns : Recorded w (.executionsRule id) runs) :
    (Rules.runs (some id) none).Shows w runs := by
  unfold Shows Rules.runs
  rw [Operation.run_guard ho]
  simp only [History.filter_nonempty hid]
  rw [run_bind_ok (run_pure _ w)]
  have hall := shows_range hruns (-1)
  rwa [Content.through_all] at hall

theorem shows_runs_user (ho : w.outages = []) (huser : user ≠ "")
    (hruns : Recorded w (.executionsUser user) runs) : (Rules.runs none (some user)).Shows w runs := by
  unfold Shows Rules.runs
  rw [Operation.run_guard ho]
  simp only [History.filter_nonempty huser, Option.filter_none]
  rw [run_bind_ok (run_pure _ w)]
  have hall := shows_range hruns (-1)
  rwa [Content.through_all] at hall

theorem run_history {rule : Rule} (hrule : (Rules.get id).Shows w (some rule))
    (hruns : (Rules.runs (some id) none).Shows w runs) (hasks : AsksHistory w id status p r) :
    (respond e r).run w = (.ok (pageOf p status runs), w) := by
  obtain ⟨hfind, hpage, hstatus⟩ := hasks
  have hserve : (serve e r (.history id)).run w = (.ok (pageOf p status runs), w) := by
    show (history id r).run w = _
    unfold history
    rw [run_withQuery (a := (p, status)) (by rw [hpage, hstatus]; rfl)]
    unfold withRule
    rw [run_bind_ok hrule]
    exact run_bind_ok hruns
  exact run_respond_of_serve hfind hserve

theorem run_executions (hruns : (Rules.runs none (some user)).Shows w runs)
    (hasks : AsksExecutions w user status p r) :
    (respond e r).run w = (.ok (pageOf p status runs), w) := by
  obtain ⟨hfind, hpage, huser, hstatus⟩ := hasks
  have hserve : (serve e r .executions).run w = (.ok (pageOf p status runs), w) := by
    show (executions r).run w = _
    unfold executions
    rw [run_withQuery (a := (p, user, status)) (by rw [hpage, huser, hstatus]; rfl)]
    exact run_bind_ok hruns
  exact run_respond_of_serve hfind hserve

end Records

theorem AsksHistory.one_le_size {id : String} {status : Option ExecutionStatus} {p : Page}
    (h : AsksHistory w id status p r) : 1 ≤ p.size := (Page.bounds_of_ofFields h.2.1).2.1

theorem AsksExecutions.one_le_size {user : String} {status : Option ExecutionStatus} {p : Page}
    (h : AsksExecutions w user status p r) : 1 ≤ p.size := (Page.bounds_of_ofFields h.2.1).2.1

theorem pageOf_eq (p : Page) (status : Option ExecutionStatus) (runs : List Execution) :
    pageOf p status runs = .page (p.slice ((withStatus status runs).map Execution.value))
      ((withStatus status runs).map Execution.value).length p.number p.size := by
  rw [Page.slice_map, List.length_map]
  rfl

/-! ## All pages -/

/-- Where the stored rules were created at different instants, the pages of a listing are the rules that its filter
leaves, each once, the newest first; the pages of the records of a rule, and of a user, are those with the status
that is asked for, in their order. -/
theorem pages_partition {m : String → Option Rule} (h : Rules.Indexed w.store m) (ho : w.outages = []) :
    ((∀ a b, Rules.Stored w a → Rules.Stored w b → a.createdAt.instant = b.createdAt.instant →
        a.id = b.id) →
      ∀ x : RuleFilter, ∃ rules : List Rule, (rules.map Rule.id).Nodup ∧
        (∀ rule, rule ∈ rules ↔ Rules.Stored w rule ∧ x.Satisfied rule) ∧
        rules.Pairwise (fun a b => b.createdAt.instant < a.createdAt.instant) ∧
        Partitioned e w (AsksRules w x) (rules.map Rule.value)) ∧
    (∀ rule runs status, Rules.Stored w rule → rule.id ≠ "" → Recorded w (.executionsRule rule.id) runs →
      Partitioned e w (AsksHistory w rule.id status) ((withStatus status runs).map Execution.value)) ∧
    ∀ user runs status, user ≠ "" → Recorded w (.executionsUser user) runs →
      Partitioned e w (AsksExecutions w user status) ((withStatus status runs).map Execution.value) := by
  refine ⟨fun hdistinct x => ?_, fun rule runs status hrule hid hruns => ?_,
    fun user runs status huser hruns => ?_⟩
  · obtain ⟨rules, honce, hmem, hrun⟩ := run_listRules (e := e) h ho x
    have hperm : (newestFirst rules).Perm rules := List.mergeSort_perm _ _
    refine ⟨newestFirst rules, (hperm.map Rule.id).nodup_iff.mpr honce,
      fun rule => hperm.mem_iff.trans (hmem rule), ?_, ?_⟩
    · refine newestFirst_strict honce fun a ha b hb => ?_
      exact hdistinct a b ((hmem a).mp ha).1 ((hmem b).mp hb).1
    · refine .of_answered (fun p => exists_asksRules w x) (fun p r => AsksRules.one_le_size) fun p r hasks => ?_
      rw [hrun p r hasks, Page.slice_map, List.length_map]
  · have hget : (Rules.get rule.id).Shows w (some rule) := by
      have hrun := Rules.run_get h ho rule.id
      rwa [(Rules.stored_iff h ho rule).mp hrule] at hrun
    refine .of_answered (fun p => exists_asksHistory hid) (fun p r => AsksHistory.one_le_size) fun p r hasks => ?_
    rw [run_history hget (shows_runs_rule ho hid hruns) hasks, pageOf_eq]
  · refine .of_answered (fun p => exists_asksExecutions huser) (fun p r => AsksExecutions.one_le_size)
      fun p r hasks => ?_
    rw [run_executions (shows_runs_user ho huser hruns) hasks, pageOf_eq]

/-- The records that were written on a course can be read. -/
theorem recorded_of_sound {s : Settings} {h : History} {k : Key} {p : Execution → Bool}
    (hsound : History.Sound s h w) (hk : k.isHistory)
    (hcells : h.cells k = (h.runs.filter p).map fun run => .ofDocument run.fields) :
    Recorded w k ((h.runs.filter p).take (History.most s k).toNat) := by
  unfold Recorded
  rw [(hsound.keeps hk hcells).list, List.forall₂_map_left_iff, List.forall₂_same]
  intro run hrun
  have hstorable := hsound.storable.runs run (List.mem_of_mem_filter (List.mem_of_mem_take hrun))
  exact run_checked (fun _ => hstorable.check_document) w

/-! ### Two rules and a record -/

/-- The same rule, created a microsecond later. -/
def laterRule : Rule := { Rules.logRule with id := "rule_2", createdAt := Moment.ofInstant 1 }

theorem wellFormed_laterRule : laterRule.WellFormed :=
  { Rules.wellFormed_logRule with createdAt := ⟨by decide, by rintro _ ⟨⟩; decide⟩ }

/-- The rules that are stored then. -/
def twoRules : String → Option Rule :=
  Function.update (Function.update (fun _ => none) "rule_1" (some (Rules.stored Rules.logRule))) "rule_2"
    (some (Rules.stored laterRule))

/-- The worlds with the first rule, with both, and with a record of the first. -/
def firstWorld : World := ((Rules.create Rules.logRule).run { clock := Moment.ofInstant 0 }).2

def secondWorld : World := ((Rules.create laterRule).run firstWorld).2

def tracedWorld : World := ((Rules.recordRun {} (History.alternate 0)).run secondWorld).2

theorem indexed_tracedWorld : Rules.Indexed tracedWorld.store twoRules := by
  have hfirst := Rules.create_indexed (w := { clock := Moment.ofInstant 0 })
    (Rules.indexed_of_empty rfl) rfl Rules.wellFormed_logRule rfl rfl
  have hsecond := Rules.create_indexed (w := firstWorld) hfirst rfl wellFormed_laterRule rfl rfl
  exact Rules.recordRun_indexed (w := secondWorld) hsecond rfl {} _

theorem sound_tracedWorld :
    History.Sound {} (({} : History).record (History.alternate 0)) tracedWorld := by
  have hs : Settings.ofFields { now := .ofInstant 0 } [] = .ok {} := rfl
  have hserving : Inbox.Serving secondWorld := ⟨rfl, rfl, by decide, by rintro o ⟨⟩; decide⟩
  have hstart : History.Course {} {} secondWorld := .start hserving fun k hk => by
    cases k <;> first | exact hk.elim | rfl
  exact (hstart.record (History.alternate 0) ⟨nofun, hserving.stamped⟩).sound (Settings.roomy_of_check hs)

/-- Both rules are on the pages of a listing without a filter, and the record is on those of its rule. -/
theorem pages_partition_of_two :
    (∃ rules : List Rule, Rules.stored Rules.logRule ∈ rules ∧ Rules.stored laterRule ∈ rules ∧
      Partitioned {} tracedWorld (AsksRules tracedWorld ⟨⟨1, 20⟩, none, none, none, none⟩)
        (rules.map Rule.value)) ∧
    Partitioned {} tracedWorld (AsksHistory tracedWorld "rule_1" (some .failed))
      [(History.alternate 0).value] ∧
    Partitioned {} tracedWorld (AsksExecutions tracedWorld "user_1" none) [(History.alternate 0).value] := by
  have ho : tracedWorld.outages = [] := rfl
  have hstored := Rules.stored_iff indexed_tracedWorld ho
  have hfirst : Rules.Stored tracedWorld (Rules.stored Rules.logRule) := (hstored _).mpr rfl
  have hsecond : Rules.Stored tracedWorld (Rules.stored laterRule) := (hstored _).mpr rfl
  have hboth : ∀ rule, Rules.Stored tracedWorld rule →
      rule = Rules.stored Rules.logRule ∨ rule = Rules.stored laterRule := by
    intro rule hrule
    rw [hstored, twoRules, Function.update_apply, Function.update_apply] at hrule
    split at hrule
    · exact .inr (Option.some.inj hrule).symm
    · split at hrule
      · exact .inl (Option.some.inj hrule).symm
      · cases hrule
  obtain ⟨hrules, hhistory, hexecutions⟩ := pages_partition (e := {}) indexed_tracedWorld ho
  refine ⟨?_, ?_, ?_⟩
  · have hdistinct : ∀ a b, Rules.Stored tracedWorld a → Rules.Stored tracedWorld b →
        a.createdAt.instant = b.createdAt.instant → a.id = b.id := by
      have hne : (Rules.stored Rules.logRule).createdAt.instant ≠
          (Rules.stored laterRule).createdAt.instant := by
        decide
      intro a b ha hb heq
      rcases hboth a ha with rfl | rfl <;> rcases hboth b hb with rfl | rfl
      · rfl
      · exact absurd heq hne
      · exact absurd heq.symm hne
      · rfl
    obtain ⟨rules, -, hmem, -, hpages⟩ := hrules hdistinct ⟨⟨1, 20⟩, none, none, none, none⟩
    refine ⟨rules, (hmem _).mpr ⟨hfirst, ?_⟩, (hmem _).mpr ⟨hsecond, ?_⟩, hpages⟩
    · exact ⟨nofun, nofun, nofun, nofun⟩
    · exact ⟨nofun, nofun, nofun, nofun⟩
  · exact hhistory _ _ (some .failed) hfirst (by decide)
      (recorded_of_sound (k := .executionsRule "rule_1") sound_tracedWorld trivial rfl)
  · exact hexecutions "user_1" _ none (by decide)
      (recorded_of_sound (k := .executionsUser "user_1") sound_tracedWorld trivial rfl)

/-! ### An empty text for a user -/

/-- Asks for the rules of a user without an id. -/
def unowned : Request := ⟨"GET", ⟨["api", "v1", "rules"], [("user_id", "")]⟩, none⟩

/-- It is answered with the rule of another user. -/
theorem all_of_no_user :
    (∀ rule, Rules.Stored eveWorld rule → rule = Rules.stored Rules.logRule) ∧
    (Rules.stored Rules.logRule).userId ≠ "" ∧
    AsksRules eveWorld ⟨⟨1, 20⟩, some "", none, none, none⟩ ⟨1, 20⟩ unowned ∧
    itemsOf {} unowned eveWorld = [(Rules.stored Rules.logRule).value] := by
  have hindexed : Rules.Indexed eveWorld.store
      (Function.update (fun _ => none) "rule_1" (some (Rules.stored Rules.logRule))) :=
    Rules.create_indexed (w := { clock := Moment.ofInstant 0 })
      (Rules.indexed_of_empty rfl) rfl Rules.wellFormed_logRule rfl rfl
  refine ⟨fun rule hrule => ?_, by decide, ⟨rfl, rfl⟩, by decide +kernel⟩
  rw [Rules.stored_iff hindexed rfl, Function.update_apply] at hrule
  split at hrule <;> cases hrule
  rfl

end Service

end TaskAutomation.Api
