import TaskAutomation.Proofs.Rules.Index

/-!
# Reading one table

* `Rule.passes_check` : whether a value passes as a rule does not depend on when it is checked;
* `Rules.run_get_of_keeps` : what a table without an end is read as;
* `Rules.Readable cells` : a table that is read as a rule at any time, with a count and a moment that
  exist; `Readable.redefine`, `Readable.increment`, `Readable.date` : the writes that leave it so;
* `Rules.readable_of_get` : the table of a rule that was read is such.
-/

namespace TaskAutomation

open Check Program

/-! ## Checks at another time -/

namespace Check.Checked

variable {α β : Type}

/-- The check finds no issue. -/
def Passes (c : Checked α) : Prop := ∃ a, c = .ok a

theorem passes_map {f : α → β} {c : Checked α} : (f <$> c).Passes ↔ c.Passes := by
  constructor
  · rintro ⟨b, h⟩
    obtain ⟨a, ha, -⟩ := map_eq_ok.mp h
    exact ⟨a, ha⟩
  · rintro ⟨a, ha⟩
    exact ⟨f a, map_eq_ok.mpr ⟨a, ha, rfl⟩⟩

theorem passes_seq {f : Checked (α → β)} {c : Checked α} :
    (f <*> c).Passes ↔ f.Passes ∧ c.Passes := by
  constructor
  · rintro ⟨b, h⟩
    obtain ⟨g, a, hg, ha, -⟩ := seq_eq_ok.mp h
    exact ⟨⟨g, hg⟩, ⟨a, ha⟩⟩
  · rintro ⟨⟨g, hg⟩, ⟨a, ha⟩⟩
    exact ⟨g a, seq_eq_ok.mpr ⟨g, a, hg, ha, rfl⟩⟩

end Check.Checked

theorem Check.itemsFrom_ok_congr {α : Type} {check : Checker α} {s s' : Setting}
    (h : ∀ v a, check s v = .ok a → check s' v = .ok a) {n : Nat} {vs : List Value} {as : List α}
    (has : itemsFrom check s n vs = .ok as) : itemsFrom check s' n vs = .ok as := by
  induction vs generalizing n as with
  | nil => exact has
  | cons v rest ih =>
    rw [itemsFrom] at has ⊢
    cases hv : check s v with
    | issues found =>
      rw [hv] at has
      cases hrest : itemsFrom check s (n + 1) rest <;> rw [hrest] at has <;> cases has
    | ok a =>
      cases hrest : itemsFrom check s (n + 1) rest with
      | issues found =>
        rw [hv, hrest] at has
        cases has
      | ok bs =>
        rw [hv, hrest] at has
        rw [h v a hv, ih hrest]
        exact has

/-- An action is read the same at any time. -/
theorem Action.check_congr {s s' : Setting} {v : Value} {a : Action} (h : Action.check s v = .ok a) :
    Action.check s' v = .ok a := by
  obtain ⟨f, hrecord, hf⟩ := Checked.andThen_eq_ok.mp h
  obtain rfl := record_eq_ok hrecord
  exact hf

/-- Whether a value passes as a rule does not depend on when it is checked. -/
theorem Rule.passes_check {s s' : Setting} {v : Value} (h : (Rule.check s v).Passes) :
    (Rule.check s' v).Passes := by
  obtain ⟨r, hr⟩ := h
  obtain ⟨f, hrecord, hf⟩ := Checked.andThen_eq_ok.mp hr
  obtain rfl := record_eq_ok hrecord
  have hactions : (required s f "actions" (itemsAtLeast 1 Action.check)).Passes →
      (required s' f "actions" (itemsAtLeast 1 Action.check)).Passes := by
    rintro ⟨actions, h⟩
    obtain ⟨vs, hget, h⟩ := get?_of_required h
    refine ⟨actions, required_of_get? hget ?_⟩
    obtain ⟨as, has, h⟩ := Checked.andThen_eq_ok.mp h
    refine Checked.andThen_eq_ok.mpr ⟨as, ?_, h⟩
    unfold items at has ⊢
    split at has
    · exact itemsFrom_ok_congr (fun _ _ => Action.check_congr) has
    · cases has
  -- the clock only stands in for moments that are not there
  have hmoment : ∀ name, (Check.optional s f name s.now moment).Passes →
      (Check.optional s' f name s'.now moment).Passes := by
    rintro name ⟨m, h⟩
    unfold Check.optional at h ⊢
    split
    · next hget =>
      rw [hget] at h
      exact ⟨m, h⟩
    · exact ⟨s'.now, rfl⟩
  have hpasses : (ofFields s f).Passes := ⟨r, hf⟩
  have hpasses' : (ofFields s' f).Passes := by
    unfold ofFields at hpasses ⊢
    simp only [Checked.passes_seq, Checked.passes_map] at hpasses ⊢
    obtain ⟨⟨⟨⟨⟨⟨hfront, hacts⟩, hactive⟩, hcount⟩, hlast⟩, hcreated⟩, hupdated⟩ := hpasses
    exact ⟨⟨⟨⟨⟨⟨hfront, hactions hacts⟩, hactive⟩, hcount⟩, hlast⟩, hmoment _ hcreated⟩,
      hmoment _ hupdated⟩
  obtain ⟨r', hr'⟩ := hpasses'
  exact ⟨r', hr'⟩

namespace Rules

variable {id : String} {cells : List (String × Cell)} {w : World}

/-! ## One table -/

/-- How often a table says that its rule ran. -/
def countIn (cells : List (String × Cell)) : Int := Command.countOf (cells.lookup "execution_count")

/-- When a table says that its rule ran last. -/
def lastIn (cells : List (String × Cell)) : Option Moment := momentOf (cells.lookup "last_executed")

/-- A table without an end is read as its definition with what its other cells say, and reading
changes nothing. -/
theorem run_get_of_keeps (ho : w.outages = []) (hkeeps : w.store.Keeps (.ruleDetail id) (.table cells))
    {v : Value} {base : Rule} (hconfig : (cells.lookup "config").bind Cell.document? = some v)
    (hcheck : Rule.check { now := w.clock } v = .ok base) :
    (get id).run w = (.ok (some (assemble base cells)), w) := by
  have hcells : ((Command.tableAll (.ruleDetail id)).run w.clock.instant w.store).1 = cells :=
    hkeeps.table w.clock.instant
  unfold get
  rw [Operation.run_guard ho, run_bind_ok (run_read rfl w), hcells]
  simp only [hconfig]
  rw [run_bind_ok (run_setting w), run_bind_ok (run_ofChecked hcheck w)]
  rfl

/-- A rule that was read comes from a table with its definition. -/
theorem cells_of_get {rule : Rule} (hlasts : w.store.Lasts (.ruleDetail id))
    (hget : ((get id).run w).1 = .ok (some rule)) :
    ∃ cells v base, w.store.Keeps (.ruleDetail id) (.table cells) ∧
      (cells.lookup "config").bind Cell.document? = some v ∧
      Rule.check { now := w.clock } v = .ok base ∧ rule = assemble base cells := by
  unfold get at hget
  rcases Operation.run_guard_cases w with ⟨message, hout⟩ | hbody
  · rw [hout] at hget
    cases hget
  rw [hbody, run_bind_ok (run_read rfl w)] at hget
  have hcells : ((Command.tableAll (.ruleDetail id)).run w.clock.instant w.store).1 =
      w.store.table w.clock.instant (.ruleDetail id) := rfl
  rw [hcells] at hget
  cases hconfig : ((w.store.table w.clock.instant (.ruleDetail id)).lookup "config").bind
      Cell.document? with
  | none =>
    rw [hconfig] at hget
    cases hget
  | some v =>
    rw [hconfig] at hget
    dsimp only at hget
    rw [run_bind_ok (run_setting w)] at hget
    have hne : w.store.table w.clock.instant (.ruleDetail id) ≠ [] := by
      intro hnil
      rw [hnil] at hconfig
      cases hconfig
    cases hcheck : Rule.check { now := w.clock } v with
    | issues found =>
      rw [hcheck] at hget
      cases hget
    | ok base =>
      rw [hcheck] at hget
      exact ⟨_, v, base, hlasts.keeps_of_table hne, hconfig, hcheck,
        (Option.some.inj (Except.ok.inj hget)).symm⟩

/-- A table that is read as a rule at any time, with a count and a moment that exist. -/
structure Readable (cells : List (String × Cell)) : Prop where
  config : ∃ v, (cells.lookup "config").bind Cell.document? = some v ∧
    ∀ s, (Rule.check s v).Passes
  count : 0 ≤ countIn cells
  last : ∀ m ∈ lastIn cells, m.Shown

/-- A readable table is read as a rule with its count and its last run. -/
theorem Readable.get (h : Readable cells) (hkeeps : w.store.Keeps (.ruleDetail id) (.table cells))
    (ho : w.outages = []) :
    ∃ rule, ((get id).run w).1 = .ok (some rule) ∧ rule.executionCount = countIn cells ∧
      rule.lastExecuted = lastIn cells := by
  obtain ⟨v, hconfig, hpasses⟩ := h.config
  obtain ⟨base, hcheck⟩ := hpasses { now := w.clock }
  exact ⟨_, congrArg Prod.fst (run_get_of_keeps ho hkeeps hconfig hcheck), rfl, rfl⟩

/-- The table of a well-formed rule that was read is readable. -/
theorem readable_of_get {rule : Rule} (hlasts : w.store.Lasts (.ruleDetail id))
    (hget : ((get id).run w).1 = .ok (some rule)) (hwell : rule.WellFormed) :
    ∃ cells, w.store.Keeps (.ruleDetail id) (.table cells) ∧ Readable cells ∧
      countIn cells = rule.executionCount ∧ lastIn cells = rule.lastExecuted := by
  obtain ⟨cells, v, base, hkeeps, hconfig, hcheck, rfl⟩ := cells_of_get hlasts hget
  refine ⟨cells, hkeeps, ⟨⟨v, hconfig, fun s => ?_⟩, hwell.count, hwell.lastExecuted⟩, rfl, rfl⟩
  exact Rule.passes_check ⟨base, hcheck⟩

/-- A rule whose definition is checked against a readable table is well formed. -/
theorem Readable.wellFormed (h : Readable cells) {v : Value} {base : Rule} {s : Setting}
    (hs : s.now.Shown) (hcheck : Rule.check s v = .ok base) : (assemble base cells).WellFormed := by
  have hbase := Rule.wellFormed_of_check hs hcheck
  exact ⟨hbase.actions, hbase.types, h.count, h.last, hbase.createdAt, hbase.updatedAt⟩

/-! ## Writes to a table -/

/-- The definition of a rule, and whether it is active, as cells. -/
def definitionCells (rule : Rule) : List (String × Cell) :=
  [("config", .ofDocument rule.fields), ("is_active", flagCell rule.isActive)]

/-- The table after cells are set. -/
def setCells (new cells : List (String × Cell)) : List (String × Cell) :=
  new.foldl (fun t (name, c) => Content.putCell name c t) cells

/-- A new definition touches neither the count nor the last run. -/
theorem Readable.redefine (h : Readable cells) {rule : Rule} (hwell : rule.WellFormed) :
    Readable (setCells (definitionCells rule) cells) ∧
      countIn (setCells (definitionCells rule) cells) = countIn cells ∧
      lastIn (setCells (definitionCells rule) cells) = lastIn cells := by
  have hcount : countIn (setCells (definitionCells rule) cells) = countIn cells := by
    simp [countIn, setCells, definitionCells, Content.lookup_putCell]
  have hlast : lastIn (setCells (definitionCells rule) cells) = lastIn cells := by
    simp [lastIn, setCells, definitionCells, Content.lookup_putCell]
  have hconfig : (setCells (definitionCells rule) cells).lookup "config" =
      some (.ofDocument rule.fields) := by
    simp [setCells, definitionCells, Content.lookup_putCell]
  refine ⟨⟨⟨_, by rw [hconfig]; rfl, fun s => ⟨_, Rule.check_fields hwell s⟩⟩, ?_, ?_⟩, hcount, hlast⟩
  · rw [hcount]
    exact h.count
  · rw [hlast]
    exact h.last

/-- One more in the count leaves all else. -/
theorem Readable.increment (h : Readable cells) :
    Readable (Content.putCell "execution_count" (.count (countIn cells + 1)) cells) ∧
      countIn (Content.putCell "execution_count" (.count (countIn cells + 1)) cells) =
        countIn cells + 1 ∧
      lastIn (Content.putCell "execution_count" (.count (countIn cells + 1)) cells) =
        lastIn cells := by
  have hcount : countIn (Content.putCell "execution_count" (.count (countIn cells + 1)) cells) =
      countIn cells + 1 := by
    rw [countIn, Content.lookup_putCell, if_pos rfl]
    rfl
  have hlast : lastIn (Content.putCell "execution_count" (.count (countIn cells + 1)) cells) =
      lastIn cells := by
    simp [lastIn, Content.lookup_putCell]
  obtain ⟨v, hconfig, hpasses⟩ := h.config
  refine ⟨⟨⟨v, ?_, hpasses⟩, ?_, ?_⟩, hcount, hlast⟩
  · rw [Content.lookup_putCell, if_neg (by decide), hconfig]
  · rw [hcount]
    exact Int.add_nonneg h.count Int.one_nonneg
  · rw [hlast]
    exact h.last

/-- A new moment of the last run leaves all else. -/
theorem Readable.date (h : Readable cells) {ranAt : Moment} (hran : ranAt.Shown) :
    Readable (setCells [("last_executed", .moment ranAt)] cells) ∧
      countIn (setCells [("last_executed", .moment ranAt)] cells) = countIn cells ∧
      lastIn (setCells [("last_executed", .moment ranAt)] cells) = some ranAt := by
  have hcount : countIn (setCells [("last_executed", .moment ranAt)] cells) = countIn cells := by
    simp [countIn, setCells, Content.lookup_putCell]
  have hlast : lastIn (setCells [("last_executed", .moment ranAt)] cells) = some ranAt := by
    simp [lastIn, setCells, Content.lookup_putCell, momentOf]
  obtain ⟨v, hconfig, hpasses⟩ := h.config
  refine ⟨⟨⟨v, ?_, hpasses⟩, ?_, ?_⟩, hcount, hlast⟩
  · show ((Content.putCell "last_executed" (.moment ranAt) cells).lookup "config").bind _ = _
    rw [Content.lookup_putCell, if_neg (by decide), hconfig]
  · rw [hcount]
    exact h.count
  · rw [hlast]
    rintro m ⟨⟩
    exact hran

end Rules

end TaskAutomation
