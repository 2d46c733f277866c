import Mathlib.Data.List.Forall2
import TaskAutomation.Proofs.Condition
import TaskAutomation.Proofs.Path

/-!
# Conditions are conjunctions

Evaluation walks through entries and operators in order and stops at the first that is false. Where no
comparison can fail this order is not seen:

* `Value.roundable` : no integer in the value is beyond all doubles, and then none is in what a path
  leads to; `answers` : so conditions on it are true or false;
* `single` : the specification that asks for one operator; `outcome` : what a specification comes to as
  the only condition;
* `Asks` : what one entry asks for, told by the conditions of one operator alone;
* `Rearranged` : the same entries in another order, the keys of their objects in another order;
* `holdsAll_conjunction` : a mapping is true just when each entry has what it asks for, whatever the
  order, and a mapping that is split is true just when both parts are.
-/

namespace TaskAutomation

namespace Value

mutual

/-- No integer in the value is beyond all doubles. -/
def roundable : Value → Bool
  | .int n => decide (n.natAbs < (2 ^ 54 - 1) * 2 ^ 970)
  | .list items => roundableList items
  | .obj fields => roundableFields fields
  | _ => true

/-- `roundable` of every item. -/
def roundableList : List Value → Bool
  | [] => true
  | v :: rest => roundable v && roundableList rest

/-- `roundable` of every field. -/
def roundableFields : List (String × Value) → Bool
  | [] => true
  | (_, v) :: rest => roundable v && roundableFields rest

end

theorem roundable_of_mem {items : List Value} {v : Value} (h : roundableList items = true)
    (hmem : v ∈ items) : v.roundable = true := by
  induction items with
  | nil => cases hmem
  | cons first rest ih =>
    rw [roundableList, Bool.and_eq_true] at h
    rcases List.mem_cons.mp hmem with rfl | hmem
    · exact h.1
    · exact ih h.2 hmem

theorem roundableFields_iff {fields : Fields} :
    roundableFields fields = true ↔ ∀ entry ∈ fields, entry.2.roundable = true := by
  induction fields with
  | nil => simp [roundableFields]
  | cons entry rest ih => simp [roundableFields, ih]

theorem roundableFields_put {fields : Fields} {key : String} {v : Value}
    (h : roundableFields fields = true) (hv : v.roundable = true) :
    roundableFields (fields.put key v) = true := by
  induction fields with
  | nil => simp [Fields.put, roundableFields, hv]
  | cons entry rest ih =>
    rw [roundableFields, Bool.and_eq_true] at h
    rw [Fields.put]
    split
    · simp [roundableFields, hv, h.2]
    · simp [roundableFields, h.1, ih h.2]

theorem roundable_inherited : Inherited (·.roundable = true) where
  item := roundable_of_mem
  field h hmem := roundableFields_iff.mp h _ hmem

end Value

theorem Scope.roundable_build {task context : Fields} (htask : Value.roundableFields task = true)
    (hcontext : Value.roundableFields context = true) : (build task context).roundable = true :=
  Value.roundableFields_put (Value.roundableFields_put hcontext htask) hcontext

namespace Condition

theorem ofName?_name (op : Operator) : Operator.ofName? op.name = some op := by
  cases op <;> rfl

theorem name_of_ofName? {op : Operator} {key : String} (h : Operator.ofName? key = some op) :
    key = op.name := by
  have hname := List.find?_some h
  exact (eq_of_beq hname).symm

theorem mem_operators {fields : Fields} {op : Operator} {operand : Value} :
    (op, operand) ∈ operators fields ↔ (op.name, operand) ∈ fields := by
  unfold operators
  rw [List.mem_filterMap]
  constructor
  · rintro ⟨⟨key, v⟩, hmem, hentry⟩
    obtain ⟨op', hop, heq⟩ := Option.map_eq_some_iff.mp hentry
    cases heq
    exact name_of_ofName? hop ▸ hmem
  · intro hmem
    exact ⟨_, hmem, by simp only [ofName?_name, Option.map_some]⟩

theorem operators_single (op : Operator) (operand : Value) :
    operators [(op.name, operand)] = [(op, operand)] := by
  simp [operators, ofName?_name]

/-- The specification that asks for one operator. -/
def single (op : Operator) (operand : Value) : Value := .obj [(op.name, operand)]

/-- A specification of one operator is the operator. -/
theorem holds_single (op : Operator) (actual : Option Value) (operand : Value)
    (path : Option String) (scope : Option Value) :
    holds actual (single op operand) path scope = apply op actual operand path scope := by
  have hmem : (op, operand) ∈ operators [(op.name, operand)] := mem_operators.mpr List.mem_cons_self
  rw [single, holds_obj hmem, operators_single, applyAll_cons]
  rcases apply op actual operand path scope with _ | _ | _ <;> rfl

/-- A single entry is its specification at the value of the path. -/
theorem holdsAll_entry (scope : Value) (path : String) (spec : Value) :
    holdsAll scope [(path, spec)] =
      holds (scope.resolve path.toList) spec (some path) (some scope) := by
  rw [holdsAll_cons]
  rcases holds (scope.resolve path.toList) spec (some path) (some scope) with _ | _ | _ <;> rfl

/-- A condition of one operator is the operator at the value of the path. -/
theorem holdsAll_single (scope : Value) (path : String) (op : Operator) (operand : Value) :
    holdsAll scope [(path, single op operand)] =
      apply op (scope.resolve path.toList) operand (some path) (some scope) := by
  rw [holdsAll_entry, holds_single]

/-- What a specification comes to as the only condition on a task and its context. -/
def outcome (task context : Fields) (path : String) (spec : Value) : Except Overflow Bool :=
  holdsAll (Scope.build task context) [(path, spec)]

/-! ## One entry -/

/-- The object names an operator. -/
def NamesOperator (fields : Fields) : Prop := ∃ op operand, (Operator.name op, operand) ∈ fields

/-- What an entry asks for. An object that names operators asks that each of them holds as a condition
of its own; its other keys do not count. A list asks that the value at the path is one of its items,
and all else that the value equals it. -/
inductive Asks (scope : Value) (path : String) : Value → Prop
  | operators {fields : Fields} (hnamed : NamesOperator fields)
      (h : ∀ op operand, (Operator.name op, operand) ∈ fields →
        holdsAll scope [(path, .obj [(op.name, operand)])] = .ok true) : Asks scope path (.obj fields)
  | plain {fields : Fields} (hnone : ¬ NamesOperator fields)
      (h : strictEq (scope.resolve path.toList) (.obj fields) = true) : Asks scope path (.obj fields)
  | list {items : List Value} (h : isMember (scope.resolve path.toList) (.list items) = true) :
      Asks scope path (.list items)
  | leaf {v : Value} (hobj : ∀ fields, v ≠ .obj fields) (hlist : ∀ items, v ≠ .list items)
      (h : strictEq (scope.resolve path.toList) v = true) : Asks scope path v

section Entries
variable {scope : Value} {path : String}

theorem namesOperator_iff {fields : Fields} : NamesOperator fields ↔ operators fields ≠ [] := by
  constructor
  · rintro ⟨op, operand, h⟩
    exact List.ne_nil_of_mem (mem_operators.mpr h)
  · intro h
    obtain ⟨test, htest⟩ := List.exists_mem_of_ne_nil _ h
    exact ⟨test.1, test.2, mem_operators.mp htest⟩

theorem holds_eq_true_iff {spec : Value} :
    holds (scope.resolve path.toList) spec (some path) (some scope) = .ok true ↔
      Asks scope path spec := by
  cases spec with
  | obj fields =>
    by_cases hnamed : NamesOperator fields
    · obtain ⟨op, operand, hmem⟩ := id hnamed
      rw [holds_obj (mem_operators.mpr hmem), applyAll_eq_true]
      constructor
      · intro h
        exact .operators hnamed fun op operand hmem =>
          (holdsAll_single _ _ _ _).trans (h (op, operand) (mem_operators.mpr hmem))
      · intro h
        cases h with
        | operators _ h =>
          exact fun test hmem => (holdsAll_single _ _ _ _).symm.trans (h test.1 test.2 (mem_operators.mp hmem))
        | plain hnone _ => exact absurd hnamed hnone
        | leaf hobj _ _ => exact absurd rfl (hobj fields)
    · have hnil : operators fields = [] := not_not.mp (namesOperator_iff.not.mp hnamed)
      unfold holds
      simp only [hnil]
      constructor
      · intro h
        exact .plain hnamed (Except.ok.inj h)
      · intro h
        cases h with
        | operators hnamed' _ => exact absurd hnamed' hnamed
        | plain _ h => rw [h]
        | leaf hobj _ _ => exact absurd rfl (hobj fields)
  | list items =>
    constructor
    · intro h
      exact .list (Except.ok.inj h)
    · intro h
      cases h with
      | list h => exact congrArg Except.ok h
      | leaf _ hlist _ => exact absurd rfl (hlist items)
  | _ =>
    constructor
    · intro h
      exact .leaf nofun nofun (Except.ok.inj h)
    · intro h
      cases h with
      | leaf _ _ h => exact congrArg Except.ok h

end Entries

/-! ## Whole mappings -/

section Mappings
variable {scope : Value} {conditions others : Fields}

theorem holdsAll_cons_iff {path : String} {spec : Value} {rest : Fields} :
    holdsAll scope ((path, spec) :: rest) = .ok true ↔
      Asks scope path spec ∧ holdsAll scope rest = .ok true := by
  rw [holdsAll_cons, ← holds_eq_true_iff]
  rcases holds (scope.resolve path.toList) spec (some path) (some scope) with _ | _ | _ <;>
    simp [Except.bind]

theorem holdsAll_eq_true_iff : holdsAll scope conditions = .ok true ↔
    ∀ entry ∈ conditions, Asks scope entry.1 entry.2 := by
  induction conditions with
  | nil => simp [holdsAll]
  | cons entry rest ih => rw [holdsAll_cons_iff, ih, List.forall_mem_cons]

theorem not_overruns (hscope : scope.roundable = true)
    (hconditions : Value.roundableFields conditions = true) : ¬ Overruns scope conditions := by
  have hfits : ∀ v : Value, v.roundable = true → ¬ Beyond v := by
    rintro v hv ⟨n, rfl, hlarge⟩
    rw [Value.roundable, decide_eq_true_eq] at hv
    omega
  intro h
  induction h with
  | @here path fields rest before after op expected hsplit _ _ hbeyond =>
    rcases hbeyond with ⟨a, hactual, ha⟩ | hexpected
    · exact hfits a (Value.roundable_inherited.resolve hscope hactual) ha
    · have hmem : (op.name, expected) ∈ fields := mem_operators.mp (by simp [hsplit])
      have hfields : Value.roundableFields fields = true :=
        Value.roundableFields_iff.mp hconditions _ List.mem_cons_self
      exact hfits expected (Value.roundableFields_iff.mp hfields _ hmem) hexpected
  | later _ _ ih =>
    rw [Value.roundableFields, Bool.and_eq_true] at hconditions
    exact ih hconditions.2

theorem answers (hscope : scope.roundable = true)
    (hconditions : Value.roundableFields conditions = true) :
    ∃ b, holdsAll scope conditions = .ok b :=
  (ok_or_error _).resolve_right fun h => not_overruns hscope hconditions (holdsAll_error_iff.mp h)

/-! ## Order -/

/-- The object has the same fields, each once, in another order; other values are the same. -/
inductive Shuffled : Value → Value → Prop
  | same (v : Value) : Shuffled v v
  | obj {fields others : Fields} (honce : (fields.map Prod.fst).Nodup) (h : fields.Perm others) :
      Shuffled (.obj fields) (.obj others)

/-- The same entries in another order, each with the keys of its object in another order. -/
def Rearranged (conditions others : Fields) : Prop :=
  ∃ middle, conditions.Perm middle ∧
    List.Forall₂ (fun a b : String × Value => a.1 = b.1 ∧ Shuffled a.2 b.2) middle others

theorem Shuffled.symm {v w : Value} (h : Shuffled v w) : Shuffled w v := by
  cases h with
  | same => exact .same v
  | obj honce hperm => exact .obj ((hperm.map Prod.fst).nodup_iff.mp honce) hperm.symm

theorem sameFields_perm {fields others : Fields} (honce : (fields.map Prod.fst).Nodup)
    (h : fields.Perm others) (given : Fields) :
    Value.sameFields given fields = Value.sameFields given others := by
  induction given with
  | nil => rfl
  | cons entry rest ih => rw [Value.sameFields, Value.sameFields, Fields.get?_perm honce h, ih]

theorem strictEq_of_perm {fields others : Fields} (honce : (fields.map Prod.fst).Nodup)
    (h : fields.Perm others) (actual : Option Value) :
    strictEq actual (.obj fields) = strictEq actual (.obj others) := by
  cases actual with
  | none => rfl
  | some a =>
    cases a with
    | obj given =>
      simp only [strictEq, eqBool, isBool, Value.same, h.length_eq, sameFields_perm honce h]
    | _ => rfl

theorem asks_of_shuffled {path : String} {spec other : Value} (h : Shuffled spec other)
    (hasks : Asks scope path spec) : Asks scope path other := by
  cases h with
  | same => exact hasks
  | @obj fields others honce hperm =>
    have hnamed : NamesOperator others ↔ NamesOperator fields := by
      simp only [NamesOperator, hperm.mem_iff]
    cases hasks with
    | operators hfields hall =>
      exact .operators (hnamed.mpr hfields) fun op operand hmem =>
        hall op operand (hperm.mem_iff.mpr hmem)
    | plain hnone heq =>
      exact .plain (hnamed.not.mpr hnone) (strictEq_of_perm honce hperm _ ▸ heq)
    | leaf hobj _ _ => exact absurd rfl (hobj fields)

theorem asks_iff_of_shuffled {path : String} {spec other : Value} (h : Shuffled spec other) :
    Asks scope path spec ↔ Asks scope path other :=
  ⟨asks_of_shuffled h, asks_of_shuffled h.symm⟩

theorem roundable_of_shuffled {spec other : Value} (h : Shuffled spec other) :
    spec.roundable = other.roundable := by
  cases h with
  | same => rfl
  | obj _ hperm =>
    rw [Bool.eq_iff_iff, Value.roundable, Value.roundable, Value.roundableFields_iff,
      Value.roundableFields_iff]
    simp only [hperm.mem_iff]

theorem holdsAll_true_of_rearranged (h : Rearranged conditions others) :
    holdsAll scope conditions = .ok true ↔ holdsAll scope others = .ok true := by
  obtain ⟨middle, hperm, hall⟩ := h
  have hmiddle : holdsAll scope conditions = .ok true ↔ holdsAll scope middle = .ok true := by
    simp only [holdsAll_eq_true_iff, hperm.mem_iff]
  rw [hmiddle]
  clear hmiddle hperm
  induction hall with
  | nil => rfl
  | @cons a b middle others hentry _ ih =>
    obtain ⟨path, spec⟩ := a
    obtain ⟨path', other⟩ := b
    obtain ⟨rfl, hspec⟩ := hentry
    rw [holdsAll_cons_iff, holdsAll_cons_iff]
    exact and_congr (asks_iff_of_shuffled hspec) ih

theorem roundable_of_rearranged (h : Rearranged conditions others) :
    Value.roundableFields conditions = Value.roundableFields others := by
  obtain ⟨middle, hperm, hall⟩ := h
  have hmiddle : Value.roundableFields conditions = Value.roundableFields middle := by
    rw [Bool.eq_iff_iff, Value.roundableFields_iff, Value.roundableFields_iff]
    simp only [hperm.mem_iff]
  rw [hmiddle]
  clear hmiddle hperm
  induction hall with
  | nil => rfl
  | cons hentry _ ih =>
    rw [Value.roundableFields, Value.roundableFields, roundable_of_shuffled hentry.2, ih]

end Mappings

/-- Where no integer is beyond all doubles, conditions are true or false: true just when each entry has
what it asks for. Their order does not matter, nor that of the keys of their objects, and a mapping that
is split in two is true just when both parts are. -/
theorem holdsAll_conjunction {task context conditions : Fields}
    (htask : Value.roundableFields task = true) (hcontext : Value.roundableFields context = true)
    (hconditions : Value.roundableFields conditions = true) :
    ∃ b, holdsAll (Scope.build task context) conditions = .ok b ∧
      (b = true ↔ ∀ entry ∈ conditions, Asks (Scope.build task context) entry.1 entry.2) ∧
      (∀ others, Rearranged conditions others → holdsAll (Scope.build task context) others = .ok b) ∧
      ∀ part rest, conditions.Perm (part ++ rest) → ∃ x y,
        holdsAll (Scope.build task context) part = .ok x ∧
        holdsAll (Scope.build task context) rest = .ok y ∧ b = (x && y) := by
  have hscope := Scope.roundable_build htask hcontext
  obtain ⟨b, hb⟩ := answers hscope hconditions
  have hmeans : b = true ↔ ∀ entry ∈ conditions, Asks (Scope.build task context) entry.1 entry.2 := by
    rw [← holdsAll_eq_true_iff, hb, Except.ok.injEq]
  refine ⟨b, hb, hmeans, fun others hothers => ?_, fun part rest hsplit => ?_⟩
  · obtain ⟨x, hx⟩ := answers hscope (roundable_of_rearranged hothers ▸ hconditions)
    have hsame : holdsAll (Scope.build task context) conditions = .ok true ↔
        holdsAll (Scope.build task context) others = .ok true := holdsAll_true_of_rearranged hothers
    rw [hb, hx, Except.ok.injEq, Except.ok.injEq] at hsame
    rw [hx, Bool.eq_iff_iff.mpr hsame]
  · rw [Value.roundableFields_iff] at hconditions
    have hleft : Value.roundableFields part = true := Value.roundableFields_iff.mpr
      fun entry hmem => hconditions entry (hsplit.mem_iff.mpr (List.mem_append_left _ hmem))
    have hright : Value.roundableFields rest = true := Value.roundableFields_iff.mpr
      fun entry hmem => hconditions entry (hsplit.mem_iff.mpr (List.mem_append_right _ hmem))
    obtain ⟨x, hx⟩ := answers hscope hleft
    obtain ⟨y, hy⟩ := answers hscope hright
    have hpart : x = true ↔ ∀ entry ∈ part, Asks (Scope.build task context) entry.1 entry.2 := by
      rw [← holdsAll_eq_true_iff, hx, Except.ok.injEq]
    have hrest : y = true ↔ ∀ entry ∈ rest, Asks (Scope.build task context) entry.1 entry.2 := by
      rw [← holdsAll_eq_true_iff, hy, Except.ok.injEq]
    refine ⟨x, y, hx, hy, Bool.eq_iff_iff.mpr ?_⟩
    rw [hmeans, Bool.and_eq_true, hpart, hrest]
    simp only [hsplit.mem_iff, List.mem_append, or_imp, forall_and]

/-- A range of days with a key that is no operator, and a list. -/
def overdueConditions : Fields :=
  [("days_overdue", .obj [(">", .int 2), ("note", .null), ("<", .int 10)]),
    ("task.status", .list [.str "pending", .str "blocked"])]

theorem holdsAll_conjunction_of_overdue :
    let scope := Scope.build [("status", .str "pending")] [("days_overdue", .int 5)]
    (∀ entry ∈ overdueConditions, Asks scope entry.1 entry.2) ∧
      holdsAll scope overdueConditions.reverse = .ok true := by
  have htask : Value.roundableFields [("status", .str "pending")] = true := by decide +kernel
  have hcontext : Value.roundableFields [("days_overdue", .int 5)] = true := by decide +kernel
  have hconditions : Value.roundableFields overdueConditions = true := by decide +kernel
  obtain ⟨b, hb, hmeans, horder, -⟩ := holdsAll_conjunction htask hcontext hconditions
  have htrue : b = true := by
    have heval : holdsAll (Scope.build [("status", .str "pending")] [("days_overdue", .int 5)])
        overdueConditions = .ok true := by rfl
    exact Except.ok.inj (hb.symm.trans heval)
  subst htrue
  have hreverse : Rearranged overdueConditions overdueConditions.reverse :=
    ⟨_, (List.reverse_perm _).symm, List.forall₂_same.mpr fun entry _ => ⟨rfl, .same entry.2⟩⟩
  exact ⟨hmeans.mp rfl, horder _ hreverse⟩

end Condition

end TaskAutomation
