import TaskAutomation.Proofs.Conjunction

/-!
# Membership and equality

* `isMember_list_iff` : membership in a list is equality to one of its items;
* `Dual` : the laws that tie `in` to `not_in`, lists to their items, operands to lists of one item,
  bare values to `=`, and `=` to `!=`;
* `outcome_dual` : they hold on every path of every task and context.
-/

namespace TaskAutomation.Condition

/-- The laws of membership and equality for what specifications come to on one path. -/
structure Dual (outcome : Value → Except Overflow Bool) (found : Bool) : Prop where
  /-- `not_in` is the negation of `in`, whether or not the path leads anywhere. -/
  notIn : ∀ operand, ∃ b, outcome (single .isIn operand) = .ok b ∧
    outcome (single .notIn operand) = .ok !b
  /-- A list, under `in` or bare, asks for equality to one of its items. -/
  items : ∀ items, ∃ b, outcome (single .isIn (.list items)) = .ok b ∧
    outcome (.list items) = .ok b ∧ (b = true ↔ ∃ v ∈ items, outcome (single .eq v) = .ok true)
  /-- The order of the items does not count, nor how often each is there. -/
  sameItems : ∀ items others : List Value, (∀ v, v ∈ items ↔ v ∈ others) →
    outcome (single .isIn (.list items)) = outcome (single .isIn (.list others)) ∧
    outcome (single .notIn (.list items)) = outcome (single .notIn (.list others)) ∧
    outcome (.list items) = outcome (.list others)
  /-- An operand that is no list counts as the list of it alone. -/
  operand : ∀ operand, (∀ items, operand ≠ .list items) →
    outcome (single .isIn operand) = outcome (single .isIn (.list [operand])) ∧
    outcome (single .notIn operand) = outcome (single .notIn (.list [operand]))
  /-- A bare value that is neither a list nor an object asks for equality. -/
  bare : ∀ v, (∀ items, v ≠ .list items) → (∀ fields, v ≠ .obj fields) →
    outcome v = outcome (single .eq v)
  /-- `!=` is the negation of `=` where the path leads somewhere. -/
  differs : found = true → ∀ v, ∃ b, outcome (single .eq v) = .ok b ∧
    outcome (single .ne v) = .ok !b
  /-- Both are false where it leads nowhere. -/
  missing : found = false → ∀ v, outcome (single .eq v) = .ok false ∧
    outcome (single .ne v) = .ok false

/-- Membership in a list is equality to one of its items. -/
theorem isMember_list_iff (actual : Option Value) (items : List Value) :
    isMember actual (.list items) = true ↔ ∃ v ∈ items, strictEq actual v = true := by
  cases actual with
  | none => simp [isMember, strictEq]
  | some a => exact List.any_eq_true

theorem isMember_congr (actual : Option Value) {items others : List Value}
    (h : ∀ v, v ∈ items ↔ v ∈ others) :
    isMember actual (.list items) = isMember actual (.list others) := by
  rw [Bool.eq_iff_iff, isMember_list_iff, isMember_list_iff]
  simp only [h]

theorem isMember_operand (actual : Option Value) {operand : Value}
    (h : ∀ items, operand ≠ .list items) :
    isMember actual operand = isMember actual (.list [operand]) := by
  cases operand with
  | list items => exact absurd rfl (h items)
  | _ => rfl

theorem holds_bare {v : Value} (hlist : ∀ items, v ≠ .list items) (hobj : ∀ fields, v ≠ .obj fields)
    (actual : Option Value) (path : Option String) (scope : Option Value) :
    holds actual v path scope = .ok (strictEq actual v) := by
  cases v with
  | list items => exact absurd rfl (hlist items)
  | obj fields => exact absurd rfl (hobj fields)
  | _ => rfl

/-- Equality and membership obey their laws on every path of every task and context. -/
theorem outcome_dual (task context : Fields) (path : String) :
    Dual (outcome task context path) ((Scope.build task context).resolve path.toList).isSome := by
  have hsingle : ∀ op operand, outcome task context path (single op operand) =
      apply op ((Scope.build task context).resolve path.toList) operand (some path)
        (some (Scope.build task context)) :=
    holdsAll_single _ _
  have hlist : ∀ items, outcome task context path (.list items) =
      .ok (isMember ((Scope.build task context).resolve path.toList) (.list items)) :=
    fun items => holdsAll_entry _ _ _
  have hbare : ∀ v, (∀ items, v ≠ .list items) → (∀ fields, v ≠ .obj fields) →
      outcome task context path v =
        .ok (strictEq ((Scope.build task context).resolve path.toList) v) :=
    fun v hnolist hnoobj => (holdsAll_entry _ _ _).trans (holds_bare hnolist hnoobj _ _ _)
  generalize (Scope.build task context).resolve path.toList = actual at hsingle hlist hbare ⊢
  constructor
  case notIn =>
    intro operand
    refine ⟨isMember actual operand, hsingle _ _, (hsingle _ _).trans ?_⟩
    cases actual <;> rfl
  case items =>
    intro items
    refine ⟨isMember actual (.list items), hsingle _ _, hlist items, ?_⟩
    rw [isMember_list_iff]
    simp only [hsingle, apply, Except.ok.injEq]
  case sameItems =>
    intro items others h
    simp only [hsingle, hlist, apply, isMember_congr actual h, and_self]
  case operand =>
    intro operand h
    simp only [hsingle, apply, isMember_operand actual h, and_self]
  case bare =>
    intro v hnolist hnoobj
    rw [hbare v hnolist hnoobj, hsingle, apply]
  case differs =>
    intro hfound v
    refine ⟨strictEq actual v, hsingle _ _, (hsingle _ _).trans ?_⟩
    rw [apply, hfound, Bool.true_and]
  case missing =>
    intro hnot v
    obtain rfl : actual = none := by simpa using hnot
    exact ⟨hsingle _ _, hsingle _ _⟩

end TaskAutomation.Condition
