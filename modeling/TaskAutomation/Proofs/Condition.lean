import TaskAutomation.Condition
import TaskAutomation.Scope
import TaskAutomation.Proofs.Decimal.Largest

/-!
# Conditions of any data

* `Beyond` : an integer that no double is near, the one operand that makes a comparison fail;
* `Unfit` : operands that an operator on numbers or on texts cannot use; `apply_of_unfit` : with them
  it is false;
* `Overruns` : a comparison with such an integer is reached; `holdsAll_error_iff` : evaluation fails
  in this case and in no other;
* `evaluation_exact` : so a mapping of conditions is true or false of every task and context, and
  false when an operand is unfit, unless it overruns.
-/

namespace TaskAutomation.Condition

/-! ## Operands -/

/-- The value is an integer beyond all doubles. -/
def Beyond (v : Value) : Prop := ∃ n, v = .int n ∧ (2 ^ 54 - 1) * 2 ^ 970 ≤ n.natAbs

/-- The operand, or the lack of one, is no number: neither an integer, nor a double other than
not-a-number, nor a text that is a numeral for one of these. -/
inductive NoNumber : Option Value → Prop
  | missing : NoNumber none
  | null : NoNumber (some .null)
  | bool (b : Bool) : NoNumber (some (.bool b))
  | list (items : List Value) : NoNumber (some (.list items))
  | obj (fields : Fields) : NoNumber (some (.obj fields))
  | float {x : Float} (h : Decimal.Binary.ofFloat x = .nan) : NoNumber (some (.float x))
  | str {s : String} (h : ∀ x, Decimal.number? s = some x → Decimal.Binary.ofFloat x = .nan) :
      NoNumber (some (.str s))

/-- An operator on numbers or on texts cannot use its operands. -/
inductive Unfit (op : Operator) (actual : Option Value) (expected : Value) : Prop
  | number (hop : op.isNumeric = true) (h : NoNumber actual ∨ NoNumber (some expected))
  | text (hop : op.isTextual = true) (h : actual = none ∨ actual = some .null ∨ expected = .null)
  | list (hop : op.isTextual = true) (hnot : op ≠ .contains) {items : List Value}
      (h : actual = some (.list items))

theorem comparand_int_error_iff (n : Int) :
    comparand (.int n) = .error {} ↔ (2 ^ 54 - 1) * 2 ^ 970 ≤ n.natAbs := by
  rw [← Decimal.ofInt?_eq_none_iff]
  unfold comparand
  dsimp only
  cases Decimal.ofInt? n with
  | none => exact iff_of_true rfl rfl
  | some x => exact iff_of_false (by simp) (Option.some_ne_none x)

theorem comparand_error_iff (v : Value) : comparand v = .error {} ↔ Beyond v := by
  constructor
  · intro h
    cases v with
    | int n => exact ⟨n, rfl, (comparand_int_error_iff n).mp h⟩
    | _ => cases h
  · rintro ⟨n, rfl, hlarge⟩
    exact (comparand_int_error_iff n).mpr hlarge

theorem comparand_of_noNumber {v : Value} (h : NoNumber (some v)) : comparand v = .ok none := by
  cases h with
  | null => rfl
  | bool b => rfl
  | list items => rfl
  | obj fields => rfl
  | float hnan =>
    simp only [comparand, hnan, ↓reduceIte]
  | @str s hnan =>
    have hkeep : (Decimal.number? s).bind
        (fun x => if Decimal.Binary.ofFloat x = .nan then none else some x) = none := by
      cases hnumber : Decimal.number? s with
      | none => rfl
      | some x =>
        show (if _ then _ else _) = none
        rw [if_pos (hnan x hnumber)]
    exact congrArg Except.ok hkeep

theorem ok_or_error {α : Type} (result : Except Overflow α) :
    (∃ a, result = .ok a) ∨ result = .error {} := by
  cases result with
  | ok a => exact .inl ⟨a, rfl⟩
  | error e => exact .inr rfl

/-! ## One operator -/

/-- The left operand of a comparison, which may be missing. -/
def left (actual : Option Value) : Except Overflow (Option Float) :=
  match actual with
  | some a => comparand a
  | none => .ok none

/-- What two operands say about an operator: nothing unless both are numbers. -/
def verdict (op : Operator) : Option Float → Option Float → Bool
  | some x, some y =>
    ((Decimal.Binary.ofFloat x).cmp? (Decimal.Binary.ofFloat y)).elim false (orderFits op)
  | _, _ => false

theorem compareNumbers_eq (op : Operator) (actual : Option Value) (expected : Value) :
    compareNumbers op actual expected = (left actual).bind fun x => (comparand expected).bind fun y =>
      .ok (verdict op x y) := by
  unfold compareNumbers left
  cases actual with
  | none => rfl
  | some a =>
    show (comparand a).bind _ = (comparand a).bind _
    congr 1
    funext x
    show (comparand expected).bind _ = (comparand expected).bind _
    congr 1
    funext y
    cases x with
    | none => rfl
    | some x =>
      cases y with
      | none => rfl
      | some y =>
        unfold verdict
        dsimp only
        cases (Decimal.Binary.ofFloat x).cmp? (Decimal.Binary.ofFloat y) <;> rfl

theorem compareNumbers_error_iff (op : Operator) (actual : Option Value) (expected : Value) :
    compareNumbers op actual expected = .error {} ↔
      (∃ a, actual = some a ∧ Beyond a) ∨ Beyond expected := by
  have hleft : left actual = .error {} ↔ ∃ a, actual = some a ∧ Beyond a := by
    cases actual with
    | none => exact iff_of_false nofun nofun
    | some a =>
      show comparand a = .error {} ↔ _
      rw [comparand_error_iff]
      exact ⟨fun h => ⟨a, rfl, h⟩, fun ⟨b, hb, h⟩ => Option.some.inj hb ▸ h⟩
  rw [compareNumbers_eq, ← hleft, ← comparand_error_iff]
  obtain ⟨x, hx⟩ | hx := ok_or_error (left actual)
  · obtain ⟨y, hy⟩ | hy := ok_or_error (comparand expected)
    · rw [hx, hy]
      exact iff_of_false nofun (fun h => h.elim nofun nofun)
    · rw [hx, hy]
      exact iff_of_true rfl (.inr rfl)
  · rw [hx]
    exact iff_of_true rfl (.inl rfl)

theorem compareNumbers_of_noNumber {op : Operator} {actual : Option Value} {expected : Value}
    (h : NoNumber actual ∨ NoNumber (some expected)) :
    compareNumbers op actual expected = .ok false ∨ compareNumbers op actual expected = .error {} := by
  rw [compareNumbers_eq]
  obtain ⟨x, hx⟩ | hx := ok_or_error (left actual)
  · obtain ⟨y, hy⟩ | hy := ok_or_error (comparand expected)
    · left
      rw [hx, hy]
      rcases h with h | h
      · have hnone : left actual = .ok none := by
          cases actual with
          | none => rfl
          | some a => exact comparand_of_noNumber h
        cases Except.ok.inj (hx.symm.trans hnone)
        rfl
      · cases Except.ok.inj (hy.symm.trans (comparand_of_noNumber h))
        cases x <;> rfl
    · right
      rw [hx, hy]
      rfl
  · right
    rw [hx]
    rfl

section Operators
variable (op : Operator) (actual : Option Value) (expected : Value) (path : Option String)
  (scope : Option Value)

theorem apply_of_isNumeric (h : op.isNumeric = true) :
    apply op actual expected path scope = compareNumbers op actual expected := by
  cases op <;> first | rfl | cases h

theorem apply_of_isTextual (h : op.isTextual = true) :
    apply op actual expected path scope = .ok (matchText op actual expected) := by
  cases op <;> first | rfl | cases h

theorem apply_error_iff : apply op actual expected path scope = .error {} ↔
    op.isNumeric = true ∧ ((∃ a, actual = some a ∧ Beyond a) ∨ Beyond expected) := by
  by_cases hop : op.isNumeric = true
  · rw [apply_of_isNumeric _ _ _ _ _ hop, compareNumbers_error_iff]
    exact (and_iff_right hop).symm
  · refine iff_of_false (fun h => ?_) (fun h => hop h.1)
    cases op <;> first | cases h | exact hop rfl

variable {op actual expected path scope}

/-- An operator that cannot use its operands does not hold. -/
theorem apply_of_unfit (h : Unfit op actual expected) :
    apply op actual expected path scope = .ok false ∨
      apply op actual expected path scope = .error {} := by
  cases h with
  | number hop h =>
    rw [apply_of_isNumeric _ _ _ _ _ hop]
    exact compareNumbers_of_noNumber h
  | text hop h =>
    left
    rw [apply_of_isTextual _ _ _ _ _ hop]
    rcases h with rfl | rfl | rfl
    · rfl
    · rfl
    · rcases actual with _ | ⟨_ | _ | _ | _ | _ | _ | _⟩ <;> rfl
  | list hop hnot h =>
    left
    rw [apply_of_isTextual _ _ _ _ _ hop, h]
    cases expected with
    | null => rfl
    | _ =>
      show Except.ok (op == .contains && _) = _
      rw [beq_eq_false_iff_ne.mpr hnot, Bool.false_and]

end Operators

/-! ## Whole mappings -/

/-- A comparison with an integer beyond all doubles is reached: all that stands before it holds. -/
inductive Overruns (scope : Value) : Fields → Prop
  | here {path : String} {fields rest : Fields} {before after : List (Operator × Value)} {op : Operator}
      {expected : Value} (hsplit : operators fields = before ++ (op, expected) :: after)
      (hbefore : ∀ test ∈ before, apply test.1 (scope.resolve path.toList) test.2 (some path)
        (some scope) = .ok true)
      (hop : op.isNumeric = true)
      (hbeyond : (∃ a, scope.resolve path.toList = some a ∧ Beyond a) ∨ Beyond expected) :
      Overruns scope ((path, .obj fields) :: rest)
  | later {path : String} {spec : Value} {rest : Fields}
      (hbefore : holds (scope.resolve path.toList) spec (some path) (some scope) = .ok true)
      (h : Overruns scope rest) : Overruns scope ((path, spec) :: rest)

section Mappings
variable {actual : Option Value} {path : Option String} {scope : Option Value}

theorem applyAll_cons {op : Operator} {expected : Value} {tests : List (Operator × Value)} :
    applyAll actual path scope ((op, expected) :: tests) =
      (apply op actual expected path scope).bind fun b =>
        if b then applyAll actual path scope tests else .ok false := by
  rw [applyAll]
  rcases apply op actual expected path scope with _ | _ | _ <;> rfl

theorem applyAll_eq_true {tests : List (Operator × Value)} :
    applyAll actual path scope tests = .ok true ↔
      ∀ test ∈ tests, apply test.1 actual test.2 path scope = .ok true := by
  induction tests with
  | nil => exact iff_of_true rfl nofun
  | cons test tests ih =>
    rw [applyAll_cons, List.forall_mem_cons, ← ih]
    rcases apply test.1 actual test.2 path scope with _ | _ | _
    · exact iff_of_false nofun (fun h => nomatch h.1)
    · exact iff_of_false nofun (fun h => nomatch h.1)
    · exact (and_iff_right rfl).symm

theorem applyAll_error_iff {tests : List (Operator × Value)} :
    applyAll actual path scope tests = .error {} ↔
      ∃ before op expected after, tests = before ++ (op, expected) :: after ∧
        (∀ test ∈ before, apply test.1 actual test.2 path scope = .ok true) ∧
        apply op actual expected path scope = .error {} := by
  induction tests with
  | nil => exact iff_of_false nofun (fun ⟨before, _, _, _, h, _⟩ => by cases before <;> cases h)
  | cons test tests ih =>
    rw [applyAll_cons]
    constructor
    · intro herror
      rcases happly : apply test.1 actual test.2 path scope with e | _ | _
      · exact ⟨[], test.1, test.2, tests, rfl, nofun, happly⟩
      · rw [happly] at herror
        cases herror
      · rw [happly] at herror
        obtain ⟨before, op, expected, after, hsplit, hbefore, hlast⟩ := ih.mp herror
        refine ⟨test :: before, op, expected, after, by rw [hsplit, List.cons_append], ?_, hlast⟩
        exact List.forall_mem_cons.mpr ⟨happly, hbefore⟩
    · rintro ⟨before, op, expected, after, hsplit, hbefore, hlast⟩
      cases before with
      | nil =>
        cases hsplit
        rw [hlast]
        rfl
      | cons first before =>
        obtain ⟨rfl, rfl⟩ := List.cons.inj hsplit
        obtain ⟨hfirst, hbefore⟩ := List.forall_mem_cons.mp hbefore
        rw [hfirst]
        exact ih.mpr ⟨before, op, expected, after, rfl, hbefore, hlast⟩

end Mappings

section Scopes
variable {scope : Value} {path : String}

theorem holds_obj {fields : Fields} {op : Operator} {expected : Value}
    (h : (op, expected) ∈ operators fields) (actual : Option Value) (path : Option String)
    (scope : Option Value) :
    holds actual (.obj fields) path scope = applyAll actual path scope (operators fields) := by
  unfold holds
  dsimp only
  split
  · next hnil =>
    rw [hnil] at h
    cases h
  · rfl

/-- One specification fails just when an operator in it is reached that fails. -/
theorem holds_error_iff {actual : Option Value} {spec : Value} {path : Option String}
    {scope : Option Value} : holds actual spec path scope = .error {} ↔
      ∃ fields before op expected after, spec = .obj fields ∧
        operators fields = before ++ (op, expected) :: after ∧
        (∀ test ∈ before, apply test.1 actual test.2 path scope = .ok true) ∧
        apply op actual expected path scope = .error {} := by
  constructor
  · intro h
    cases spec with
    | obj fields =>
      cases hops : operators fields with
      | nil =>
        unfold holds at h
        simp only [hops] at h
        cases h
      | cons test tests =>
        rw [holds_obj (hops ▸ List.mem_cons_self) actual path scope, applyAll_error_iff] at h
        obtain ⟨before, op, expected, after, hsplit, hbefore, hlast⟩ := h
        exact ⟨fields, before, op, expected, after, rfl, hops ▸ hsplit, hbefore, hlast⟩
    | _ => cases h
  · rintro ⟨fields, before, op, expected, after, rfl, hsplit, hbefore, hlast⟩
    have hmem : (op, expected) ∈ operators fields := by
      rw [hsplit]
      exact List.mem_append_right _ List.mem_cons_self
    rw [holds_obj hmem, applyAll_error_iff]
    exact ⟨before, op, expected, after, hsplit, hbefore, hlast⟩

theorem holdsAll_cons {spec : Value} {rest : Fields} :
    holdsAll scope ((path, spec) :: rest) =
      (holds (scope.resolve path.toList) spec (some path) (some scope)).bind fun b =>
        if b then holdsAll scope rest else .ok false := by
  rw [holdsAll]
  rcases holds (scope.resolve path.toList) spec (some path) (some scope) with _ | _ | _ <;> rfl

theorem holdsAll_eq_true {conditions : Fields} (h : holdsAll scope conditions = .ok true) :
    ∀ entry ∈ conditions,
      holds (scope.resolve entry.1.toList) entry.2 (some entry.1) (some scope) = .ok true := by
  induction conditions with
  | nil => exact nofun
  | cons entry rest ih =>
    rw [holdsAll_cons] at h
    rcases hfirst : holds (scope.resolve entry.1.toList) entry.2 (some entry.1) (some scope) with
      _ | _ | _
    · rw [hfirst] at h
      cases h
    · rw [hfirst] at h
      cases h
    · rw [hfirst] at h
      exact List.forall_mem_cons.mpr ⟨hfirst, ih h⟩

/-- Evaluation fails just when it reaches a comparison with an integer beyond all doubles. -/
theorem holdsAll_error_iff {conditions : Fields} :
    holdsAll scope conditions = .error {} ↔ Overruns scope conditions := by
  induction conditions with
  | nil => exact iff_of_false nofun nofun
  | cons entry rest ih =>
    obtain ⟨path, spec⟩ := entry
    rw [holdsAll_cons]
    constructor
    · intro herror
      rcases hfirst : holds (scope.resolve path.toList) spec (some path) (some scope) with _ | _ | _
      · obtain ⟨fields, before, op, expected, after, rfl, hsplit, hbefore, hlast⟩ :=
          holds_error_iff.mp hfirst
        obtain ⟨hop, hbeyond⟩ := (apply_error_iff _ _ _ _ _).mp hlast
        exact .here hsplit hbefore hop hbeyond
      · rw [hfirst] at herror
        cases herror
      · rw [hfirst] at herror
        exact .later hfirst (ih.mp herror)
    · intro hoverrun
      cases hoverrun with
      | here hsplit hbefore hop hbeyond =>
        have hlast := (apply_error_iff _ _ _ (some path) (some scope)).mpr ⟨hop, hbeyond⟩
        rw [holds_error_iff.mpr ⟨_, _, _, _, _, rfl, hsplit, hbefore, hlast⟩]
        rfl
      | later hfirst hrest =>
        rw [hfirst]
        exact ih.mpr hrest

/-- Operands that an operator cannot use keep the whole mapping from holding. -/
theorem holdsAll_ne_true {conditions fields : Fields} {op : Operator} {expected : Value}
    (hentry : (path, .obj fields) ∈ conditions) (htest : (op, expected) ∈ operators fields)
    (hunfit : Unfit op (scope.resolve path.toList) expected) :
    holdsAll scope conditions ≠ .ok true := by
  intro htrue
  have hspec := holdsAll_eq_true htrue _ hentry
  rw [holds_obj htest, applyAll_eq_true] at hspec
  have happly := hspec _ htest
  rcases apply_of_unfit hunfit with h | h
  · cases happly.symm.trans h
  · cases happly.symm.trans h

end Scopes

/-- Conditions are true or false of every task and context, and false when an operator on numbers or
texts cannot use its operands; they fail just when a comparison is reached whose operand is an integer
of absolute value `(2 ^ 54 - 1) * 2 ^ 970` or more. -/
theorem evaluation_exact (task context conditions : Fields) :
    (Overruns (Scope.build task context) conditions →
      holdsAll (Scope.build task context) conditions = .error {}) ∧
    (¬ Overruns (Scope.build task context) conditions →
      (∃ b, holdsAll (Scope.build task context) conditions = .ok b) ∧
      ∀ path fields op expected, (path, .obj fields) ∈ conditions →
        (op, expected) ∈ operators fields →
        Unfit op ((Scope.build task context).resolve path.toList) expected →
        holdsAll (Scope.build task context) conditions = .ok false) := by
  refine ⟨holdsAll_error_iff.mpr, fun hnot => ?_⟩
  have hfine : ∃ b, holdsAll (Scope.build task context) conditions = .ok b :=
    (ok_or_error _).resolve_right fun h => hnot (holdsAll_error_iff.mp h)
  refine ⟨hfine, fun path fields op expected hentry htest hunfit => ?_⟩
  obtain ⟨b, hb⟩ := hfine
  have hne := holdsAll_ne_true hentry htest hunfit
  cases b with
  | false => exact hb
  | true => exact absurd hb hne

theorem evaluation_exact_of_text :
    holdsAll (Scope.build [("size", .str "big")] []) [("task.size", .obj [(">", .int 1)])] =
      .ok false := by
  have hnumeral : Decimal.number? "big" = none := by rfl
  have hunfit : Unfit .gt ((Scope.build [("size", .str "big")] []).resolve "task.size".toList)
      (.int 1) :=
    .number rfl (.inl (.str (fun x hx => nomatch hnumeral.symm.trans hx)))
  have hfits : ¬ Overruns (Scope.build [("size", .str "big")] [])
      [("task.size", .obj [(">", .int 1)])] :=
    fun h => nomatch holdsAll_error_iff.mpr h
  exact ((evaluation_exact _ _ _).2 hfits).2 _ _ _ _ List.mem_cons_self List.mem_cons_self hunfit

/-- A size of `10 ^ 400` makes a plain comparison fail. -/
theorem evaluation_fails_of_large :
    holdsAll (Scope.build [("size", .int (10 ^ 400))] [])
      [("task.size", .obj [(">", .int 1)])] = .error {} := by
  have hlarge : (2 ^ 54 - 1) * 2 ^ 970 ≤ (10 ^ 400 : Int).natAbs := by decide +kernel
  have hsplit : operators [(">", .int 1)] = [] ++ (.gt, .int 1) :: [] := rfl
  exact holdsAll_error_iff.mpr (.here hsplit nofun rfl (.inl ⟨_, rfl, _, rfl, hlarge⟩))

end TaskAutomation.Condition
