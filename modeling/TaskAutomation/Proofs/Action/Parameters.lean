import TaskAutomation.Action.Parameters
import TaskAutomation.Proofs.Check.Fields
import TaskAutomation.Proofs.Value.Fields

/-!
# What the parameters of actions are read as

* `Parameter.Timeless p` : the check of a parameter does not look at the clock;
  `ActionType.timeless_parameters` : so are all that a type of action declares;
* `Parameters.readFor_eq` : parameters are read the same at any time;
* `Check.Explains check` : a check always says why it does not pass;
  `Parameters.explained_readFor` : so does that of the parameters of an action;
* `Parameter.get?_of_readAll` : what a declared parameter is read as is found under its name.
-/

namespace TaskAutomation

open Check

theorem Check.Checked.both_eq_ok {α β γ : Type} {f : α → β → γ} {x : Checked α} {y : Checked β}
    {c : γ} : x.both f y = .ok c ↔ ∃ a b, x = .ok a ∧ y = .ok b ∧ f a b = c := by
  cases x <;> cases y <;> simp [both]

/-! ## Time -/

theorem Check.itemsFrom_congr {α : Type} {check : Checker α} {s s' : Setting}
    (h : ∀ v, check s v = check s' v) (n : Nat) (vs : List Value) :
    itemsFrom check s n vs = itemsFrom check s' n vs := by
  induction vs generalizing n with
  | nil => rfl
  | cons v rest ih => rw [itemsFrom, itemsFrom, h, ih]

namespace Parameter

/-- The check of the parameter does not look at the clock. -/
def Timeless (p : Parameter) : Prop :=
  ∀ (now now' : Moment) (v : Value), p.check { now } v = p.check { now := now' } v

theorem read_eq {p : Parameter} (h : p.Timeless) (now now' : Moment) (f : Fields) :
    p.read { now } f = p.read { now := now' } f := by
  unfold read Check.optional required
  cases p.absent <;> dsimp only <;> split <;> first | rw [h now now'] | rfl

theorem readAll_eq {ps : List Parameter} (h : ∀ p ∈ ps, p.Timeless) (now now' : Moment)
    (f : Fields) : readAll ps { now } f = readAll ps { now := now' } f := by
  unfold readAll
  have hfold : ps.foldr (fun p rest => (p.read { now } f).both (fun v vs => (p.name, v) :: vs) rest)
      (.ok []) = ps.foldr (fun p rest =>
        (p.read { now := now' } f).both (fun v vs => (p.name, v) :: vs) rest) (.ok []) := by
    induction ps with
    | nil => rfl
    | cons p rest ih =>
      rw [List.foldr_cons, List.foldr_cons, read_eq (h p List.mem_cons_self) now now',
        ih fun q hq => h q (List.mem_cons_of_mem p hq)]
  dsimp only
  rw [hfold]

theorem timeless_requiredText (name : String) : (requiredText name).Timeless := fun _ _ _ => rfl

theorem timeless_textOr (name default : String) : (textOr name default).Timeless := fun _ _ _ => rfl

theorem timeless_textOrNull (name : String) : (textOrNull name).Timeless := fun _ _ _ => rfl

theorem timeless_wordOrNull (name : String) (choices : List String) :
    (wordOrNull name choices).Timeless := fun _ _ _ => rfl

theorem timeless_hoursOrNull (name : String) : (hoursOrNull name).Timeless := fun _ _ _ => rfl

theorem timeless_priority (absent : Option Value) :
    (word "priority" TaskPriority.check TaskPriority.name absent).Timeless := fun _ _ _ => rfl

theorem timeless_status (absent : Option Value) :
    (word "status" TaskStatus.check TaskStatus.name absent).Timeless := fun _ _ _ => rfl

theorem timeless_ofSubtask : ∀ p ∈ ofSubtask, p.Timeless := by
  simp [ofSubtask, timeless_requiredText, timeless_textOrNull, timeless_priority,
    timeless_hoursOrNull]

theorem timeless_subtasks : subtasks.Timeless := by
  intro now now' v
  have hitem : ∀ v, ((record "SubtaskSpec" { now } v).andThen fun f =>
      (readAll ofSubtask { now } f).map Value.obj)
      = (record "SubtaskSpec" { now := now' } v).andThen fun f =>
        (readAll ofSubtask { now := now' } f).map Value.obj := by
    intro v
    simp only [readAll_eq timeless_ofSubtask now now']
    rfl
  unfold subtasks itemsAtLeast items
  cases v with
  | list vs =>
    dsimp only
    rw [itemsFrom_congr hitem]
  | _ => rfl

end Parameter

/-- All parameters that a type of action declares are timeless. -/
theorem ActionType.timeless_parameters (type : ActionType) : ∀ p ∈ type.parameters, p.Timeless := by
  open Parameter in
  cases type <;>
    simp only [parameters, recipients, List.cons_append, List.nil_append, List.mem_cons,
      forall_eq_or_imp, List.not_mem_nil, false_implies, implies_true, and_true, true_and,
      timeless_requiredText, timeless_textOr, timeless_textOrNull, timeless_wordOrNull,
      timeless_hoursOrNull, timeless_priority, timeless_status, timeless_subtasks]
  case updateRelatedTasks => exact ⟨fun _ _ _ => rfl, fun _ _ _ => rfl⟩
  all_goals exact fun _ _ _ => rfl

/-- The parameters of an action are read the same at any time. -/
theorem Parameters.readFor_eq (type : ActionType) (now now' : Moment) (f : Fields) :
    readFor type { now } f = readFor type { now := now' } f := by
  unfold readFor
  rw [Parameter.readAll_eq type.timeless_parameters now now']

/-! ## Issues -/

namespace Check

/-- A check that does not pass has an issue. -/
def Checked.Explained {α : Type} (c : Checked α) : Prop := c ≠ .issues []

namespace Checked.Explained

variable {α β γ : Type}

theorem ok (a : α) : (Checked.ok a).Explained := nofun

theorem fault (cause : Cause) (v : Value) : (Checked.fault cause v : Checked α).Explained := nofun

theorem map {c : Checked α} (h : c.Explained) (f : α → β) : (c.map f).Explained := by
  cases c with
  | ok a => exact nofun
  | issues found =>
    rintro ⟨⟩
    exact h rfl

theorem under {c : Checked α} (h : c.Explained) (step : Step) : (c.under step).Explained := by
  cases c with
  | ok a => exact nofun
  | issues found =>
    intro heq
    have hnil : found.map (Issue.under step) = [] := Checked.issues.inj heq
    rw [List.map_eq_nil_iff.mp hnil] at h
    exact h rfl

theorem andThen {c : Checked α} {f : α → Checked β} (h : c.Explained) (hf : ∀ a, (f a).Explained) :
    (c.andThen f).Explained := by
  cases c with
  | ok a => exact hf a
  | issues found =>
    rintro ⟨⟩
    exact h rfl

theorem both {x : Checked α} {y : Checked β} {f : α → β → γ} (hx : x.Explained)
    (hy : y.Explained) : (x.both f y).Explained := by
  cases x with
  | ok a => cases y with
    | ok b => exact nofun
    | issues found =>
      rintro ⟨⟩
      exact hy rfl
  | issues found => cases y with
    | ok b =>
      rintro ⟨⟩
      exact hx rfl
    | issues more =>
      intro heq
      have hnil : found ++ more = [] := Checked.issues.inj heq
      rw [(List.append_eq_nil_iff.mp hnil).1] at hx
      exact hx rfl

end Checked.Explained

/-- A check that always says why it does not pass. -/
def Explains {α : Type} (check : Checker α) : Prop := ∀ s v, (check s v).Explained

open Checked.Explained

theorem explains_text : Explains text := by
  intro s v
  unfold text
  split
  · exact ok _
  · exact fault _ _

theorem explains_textWithin (least : Nat) (most : Option Nat) : Explains (textWithin least most) := by
  intro s v
  refine andThen (explains_text s v) fun t => ?_
  split
  · exact fault _ _
  · split
    · split
      · exact fault _ _
      · exact ok _
    · exact ok _

theorem explains_choice {α : Type} (ofName? : String → Option α) (choices : List String) :
    Explains (choice ofName? choices) := by
  intro s v
  unfold choice
  split
  · split
    · exact ok _
    · exact fault _ _
  · exact fault _ _

theorem explains_literal (choices : List String) : Explains (literal choices) := by
  intro s v
  unfold literal
  split
  · split
    · exact ok _
    · exact fault _ _
  · exact fault _ _

theorem explains_nullable {α : Type} {check : Checker α} (h : Explains check) :
    Explains (nullable check) := by
  intro s v
  unfold nullable
  split
  · exact ok _
  · exact (h s v).map _

theorem explains_number : Explains number := by
  intro s v
  unfold number
  split
  · exact ok _
  · split
    · exact ok _
    · exact fault _ _
  · exact ok _
  · split
    · exact ok _
    · exact fault _ _
  · exact fault _ _

theorem explains_boundedNumber (b : Bounds) : Explains (boundedNumber b) := by
  intro s v
  refine andThen (explains_number s v) fun x => ?_
  split
  · exact fault _ _
  · exact ok _

theorem explains_boolean : Explains boolean := by
  have hinteger : ∀ n v, (booleanOfInteger n v).Explained := by
    intro n v
    unfold booleanOfInteger
    split
    · exact ok _
    · split
      · exact ok _
      · exact fault _ _
  intro s v
  unfold boolean
  split
  · exact ok _
  · split
    · exact hinteger _ _
    · exact fault _ _
  · split
    · exact hinteger _ _
    · exact fault _ _
  · dsimp only
    split
    · exact ok _
    · split
      · exact ok _
      · exact fault _ _
  · exact fault _ _

theorem explains_object : Explains object := by
  intro s v
  unfold object
  split
  · exact ok _
  · exact fault _ _

theorem explains_record (name : String) : Explains (record name) := by
  intro s v
  unfold record
  split
  · exact ok _
  · exact fault _ _

theorem explains_itemsAtLeast {α : Type} {check : Checker α} (h : Explains check) (least : Nat) :
    Explains (itemsAtLeast least check) := by
  have hitems : ∀ s n vs, (itemsFrom check s n vs).Explained := by
    intro s n vs
    induction vs generalizing n with
    | nil => exact ok _
    | cons v rest ih => exact both ((h s v).under _) (ih _)
  intro s v
  refine andThen ?_ fun as => ?_
  · unfold items
    split
    · exact hitems s 0 _
    · exact fault _ _
  · split
    · exact fault _ _
    · exact ok _

end Check

namespace Parameter

open Checked.Explained

/-- Parameters that are checked with reasons are read with reasons. -/
theorem explained_readAll {ps : List Parameter} (h : ∀ p ∈ ps, Explains p.check) (s : Setting)
    (f : Fields) : (readAll ps s f).Explained := by
  have hread : ∀ p ∈ ps, (p.read s f).Explained := by
    intro p hp
    unfold read required Check.optional
    split
    · split
      · exact (h p hp s _).under _
      · exact ok _
    · split
      · exact (h p hp s _).under _
      · exact (fault _ _).under _
  refine map ?_ _
  induction ps with
  | nil => exact ok _
  | cons p rest ih =>
    refine both (hread p List.mem_cons_self) (ih (fun q hq => h q ?_) fun q hq => hread q ?_)
    · exact List.mem_cons_of_mem p hq
    · exact List.mem_cons_of_mem p hq

theorem explains_requiredText (name : String) : Explains (requiredText name).check :=
  fun s v => (explains_textWithin 1 none s v).map _

theorem explains_textOr (name default : String) : Explains (textOr name default).check :=
  fun s v => (explains_text s v).map _

theorem explains_textOrNull (name : String) : Explains (textOrNull name).check :=
  fun s v => (explains_nullable explains_text s v).map _

theorem explains_wordOrNull (name : String) (choices : List String) :
    Explains (wordOrNull name choices).check :=
  fun s v => (explains_nullable (explains_literal choices) s v).map _

theorem explains_hoursOrNull (name : String) : Explains (hoursOrNull name).check :=
  fun s v => (explains_nullable (explains_boundedNumber _) s v).map _

theorem explains_priority (absent : Option Value) :
    Explains (word "priority" TaskPriority.check TaskPriority.name absent).check :=
  fun s v => (explains_choice _ _ s v).map _

theorem explains_status (absent : Option Value) :
    Explains (word "status" TaskStatus.check TaskStatus.name absent).check :=
  fun s v => (explains_choice _ _ s v).map _

theorem explains_subtasks : Explains subtasks.check := by
  have hps : ∀ p ∈ ofSubtask, Explains p.check := by
    simp [ofSubtask, explains_requiredText, explains_textOrNull, explains_priority,
      explains_hoursOrNull]
  intro s v
  refine map (explains_itemsAtLeast (fun s v => ?_) 1 s v) _
  exact andThen (explains_record _ s v) fun f => (explained_readAll hps s f).map _

end Parameter

/-- All parameters that a type of action declares are checked with reasons. -/
theorem ActionType.explains_parameters (type : ActionType) :
    ∀ p ∈ type.parameters, Explains p.check := by
  open Parameter in
  cases type <;>
    simp only [parameters, recipients, List.cons_append, List.nil_append, List.mem_cons,
      forall_eq_or_imp, List.not_mem_nil, false_implies, implies_true, and_true, true_and,
      explains_requiredText, explains_textOr, explains_textOrNull, explains_wordOrNull,
      explains_hoursOrNull, explains_priority, explains_status, explains_subtasks]
  case updateRelatedTasks =>
    exact ⟨fun s v => (explains_literal _ s v).map _, fun s v => .ok v⟩
  case updateDependencies => exact fun s v => (explains_boolean s v).map _
  case logActivity => exact fun s v => (explains_object s v).map _
  case updateEstimates => exact fun s v => (explains_boundedNumber _ s v).map _

/-- Parameters that do not fit their type do so for a reason. -/
theorem Parameters.explained_readFor (type : ActionType) (s : Setting) (f : Fields) :
    (readFor type s f).Explained := by
  refine .andThen (Parameter.explained_readAll type.explains_parameters s f) fun fields => ?_
  split
  · exact .fault _ _
  · exact .ok _

/-! ## Names -/

namespace Parameter

variable {s : Setting} {f g : Fields}

/-- What a declared parameter is read as is found under its name. -/
theorem get?_of_readAll {ps : List Parameter} (h : readAll ps s f = .ok g)
    (hnodup : (ps.map name).Nodup) {p : Parameter} (hp : p ∈ ps) :
    ∃ v, Fields.get? g p.name = some v ∧ p.read s f = .ok v := by
  unfold readAll at h
  generalize others (ps.map name) f = more at h
  dsimp only at h
  induction ps generalizing g with
  | nil => cases hp
  | cons q rest ih =>
    rw [List.map_cons, List.nodup_cons] at hnodup
    rw [List.foldr_cons] at h
    obtain ⟨fields, hfields, rfl⟩ := Checked.map_eq_ok.mp h
    obtain ⟨v, vs, hq, hrest, rfl⟩ := Checked.both_eq_ok.mp hfields
    rcases List.mem_cons.mp hp with rfl | hp
    · refine ⟨v, ?_, hq⟩
      exact (Fields.get?_cons _ _ _).trans (if_pos rfl)
    · have hne : p.name ≠ q.name := fun heq => hnodup.1 (heq ▸ List.mem_map_of_mem hp)
      obtain ⟨v', hv', hread⟩ := ih hnodup.2 hp (Checked.map_eq_ok.mpr ⟨vs, hrest, rfl⟩)
      refine ⟨v', ?_, hread⟩
      exact (Fields.get?_cons _ _ _).trans ((if_neg hne).trans hv')

/-- An optional text is read as itself, or as null. -/
theorem read_textOrNull {name : String} {v : Value} (h : (textOrNull name).read s f = .ok v) :
    v = .null ∨ f.get? name = some v := by
  rcases get?_of_optional h with ⟨given, hgiven, hv⟩ | ⟨-, hnull⟩
  · cases given <;> cases hv
    · exact .inl rfl
    · exact .inr hgiven
  · exact .inl hnull

/-- A text that has to be there is read as itself. -/
theorem read_requiredText {name : String} {v : Value} (h : (requiredText name).read s f = .ok v) :
    f.get? name = some v := by
  obtain ⟨given, hgiven, hv⟩ := get?_of_required h
  obtain ⟨t, ht, rfl⟩ := Checked.map_eq_ok.mp hv
  rw [eq_of_textWithin ht] at hgiven
  exact hgiven

end Parameter

theorem ActionType.nodup_parameters (type : ActionType) :
    (type.parameters.map Parameter.name).Nodup := by
  cases type <;> decide

end TaskAutomation
