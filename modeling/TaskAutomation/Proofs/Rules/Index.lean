import Mathlib.Logic.Function.Basic
import TaskAutomation.Proofs.Program.Run
import TaskAutomation.Proofs.Rule
import TaskAutomation.Proofs.Store.Members
import TaskAutomation.Store.Rules

/-!
# The tables and indexes of the rule store

* `Rules.isIndex k` : the key is that of an index: of all rules, of a user's, or of a trigger's;
* `Rules.Holds s rows member` : the store has the table `rows id` under each rule's key and the
  members `member k` in each index, none of them twice, all without an end;
* `Holds.tableSet`, `Holds.tableIncrement`, `Holds.delete` : a write to a table changes its row only;
  `Holds.setAdd`, `Holds.setRemove` : a write to an index changes one member of it only;
  `Holds.frame` : all other writes change nothing;
* `Rules.indexKeys r` : the indexes that a rule belongs to; `Rules.Row` : a table stands for a rule;
* `Rules.Indexed s m` : the store holds the rules of `m`, and each index has just the rules that
  belong to it.
-/

namespace TaskAutomation.Rules

open Check Program

/-- The key is that of an index of rules. -/
def isIndex : Key → Bool
  | .ruleAll | .ruleUser _ | .ruleTrigger _ => true
  | _ => false

/-- The store holds a table for each id, and indexes with these members. -/
structure Holds (s : Store) (rows : String → List (String × Cell))
    (member : Key → String → Prop) : Prop where
  row : ∀ id, s.Keeps (.ruleDetail id) (.table (rows id))
  index : ∀ k, isIndex k = true →
    ∃ ids : List String, s.Keeps k (.set ids) ∧ ids.Nodup ∧ ∀ id, id ∈ ids ↔ member k id

namespace Holds

variable {s : Store} {rows : String → List (String × Cell)} {member : Key → String → Prop}

/-! ## Writes -/

theorem congr {rows' : String → List (String × Cell)} {member' : Key → String → Prop}
    (h : Holds s rows member) (hrows : ∀ id, rows id = rows' id)
    (hmember : ∀ k id, member k id ↔ member' k id) : Holds s rows' member' where
  row id := hrows id ▸ h.row id
  index k hk := by
    obtain ⟨ids, hkeeps, hnodup, hmem⟩ := h.index k hk
    exact ⟨ids, hkeeps, hnodup, fun id => (hmem id).trans (hmember k id)⟩

/-- A command that writes neither a rule's table nor an index changes nothing. -/
theorem frame (h : Holds s rows member) (now : Int) (c : Command)
    (hrow : ∀ id, c.written ≠ some (.ruleDetail id))
    (hindex : ∀ k, isIndex k = true → c.written ≠ some k) :
    Holds (c.run now s).2 rows member where
  row id := (h.row id).of_lookup_eq (Command.lookup_run now c s (hrow id))
  index k hk := by
    obtain ⟨ids, hkeeps, hmem⟩ := h.index k hk
    exact ⟨ids, hkeeps.of_lookup_eq (Command.lookup_run now c s (hindex k hk)), hmem⟩

/-- A command on a rule's table changes its row only. -/
theorem writeRow {c : Command} {id : String} {row : List (String × Cell)} (now : Int)
    (h : Holds s rows member) (hc : c.written = some (.ruleDetail id))
    (hrow : (c.run now s).2.Keeps (.ruleDetail id) (.table row)) :
    Holds (c.run now s).2 (Function.update rows id row) member where
  row id' := by
    by_cases hid : id' = id
    · subst hid
      rw [Function.update_self]
      exact hrow
    · rw [Function.update_of_ne hid]
      refine (h.row id').of_lookup_eq (Command.lookup_run now c s ?_)
      rw [hc]
      intro heq
      cases heq
      exact hid rfl
  index k hk := by
    obtain ⟨ids, hkeeps, hmem⟩ := h.index k hk
    refine ⟨ids, hkeeps.of_lookup_eq (Command.lookup_run now c s ?_), hmem⟩
    rw [hc]
    intro heq
    cases heq
    cases hk

/-- A command on an index changes its members only. -/
theorem writeIndex {c : Command} {k : Key} {p : String → Prop} (now : Int) (h : Holds s rows member)
    (hk : isIndex k = true) (hc : c.written = some k) (hindex : (c.run now s).2.Collects k p) :
    Holds (c.run now s).2 rows (fun l id => if l = k then p id else member l id) where
  row id := by
    refine (h.row id).of_lookup_eq (Command.lookup_run now c s ?_)
    rw [hc]
    intro heq
    cases heq
    cases hk
  index l hl := by
    by_cases hlk : l = k
    · subst hlk
      exact hindex.congr fun id => by rw [if_pos rfl]
    · have hcollects : s.Collects l (member l) := h.index l hl
      refine (hcollects.of_lookup_eq (Command.lookup_run now c s ?_)).congr fun id => by rw [if_neg hlk]
      rw [hc]
      intro heq
      exact hlk (Option.some.inj heq).symm

theorem tableSet (h : Holds s rows member) (now : Int) (id : String)
    (cells : List (String × Cell)) :
    Holds ((Command.tableSet (.ruleDetail id) cells).run now s).2
      (Function.update rows id (cells.foldl (fun t (name, c) => Content.putCell name c t) (rows id)))
      member := by
  refine h.writeRow now rfl ?_
  simp only [Command.run, (h.row id).table now]
  exact (h.row id).keep now _

theorem tableIncrement (h : Holds s rows member) (now : Int) (id name : String) :
    Holds ((Command.tableIncrement (.ruleDetail id) name).run now s).2
      (Function.update rows id (Content.putCell name
        (.count (Command.countOf ((rows id).lookup name) + 1)) (rows id))) member := by
  refine h.writeRow now rfl ?_
  simp only [Command.run, (h.row id).table now]
  exact (h.row id).keep now _

theorem delete (h : Holds s rows member) (now : Int) (id : String) :
    Holds ((Command.delete (.ruleDetail id)).run now s).2 (Function.update rows id []) member := by
  refine h.writeRow now rfl (Store.keeps_of_lookup_none ?_ rfl)
  exact (Store.lookup_erase s (.ruleDetail id) (.ruleDetail id)).trans (if_pos rfl)

theorem setAdd (h : Holds s rows member) (now : Int) {k : Key} (hk : isIndex k = true)
    (id : String) :
    Holds ((Command.setAdd k id).run now s).2 rows
      (fun l i => member l i ∨ (l = k ∧ i = id)) := by
  have hcollects : s.Collects k (member k) := h.index k hk
  refine (h.writeIndex now hk rfl (hcollects.setAdd now id)).congr (fun _ => rfl) fun l i => ?_
  by_cases hl : l = k
  · subst hl
    simp
  · simp [hl]

theorem setRemove (h : Holds s rows member) (now : Int) {k : Key} (hk : isIndex k = true)
    (id : String) :
    Holds ((Command.setRemove k id).run now s).2 rows
      (fun l i => member l i ∧ ¬(l = k ∧ i = id)) := by
  have hcollects : s.Collects k (member k) := h.index k hk
  refine (h.writeIndex now hk rfl (hcollects.setRemove now id)).congr (fun _ => rfl) fun l i => ?_
  by_cases hl : l = k
  · subst hl
    simp
  · simp [hl]

end Holds

/-! ## Rules in tables -/

/-- The indexes that a rule belongs to. -/
def indexKeys (r : Rule) : List Key := [.ruleTrigger r.trigger.name, .ruleUser r.userId, .ruleAll]

/-- The table of a rule whose definition is stored as a value. -/
def tableOf (v : Value) (r : Rule) : List (String × Cell) :=
  [("config", .document v), ("is_active", flagCell r.isActive),
    ("execution_count", .count r.executionCount), ("last_executed", momentCell r.lastExecuted)]

/-- The table under an id stands for a rule of this id, or for none. -/
def Row (id : String) : Option Rule → List (String × Cell) → Prop
  | none, row => row = []
  | some r, row => r.id = id ∧ r.WellFormed ∧ r.createdAt.isNaive = false ∧
    ∃ v base, (∀ s, Rule.check s v = .ok base) ∧ row = tableOf v r ∧
      r = { base with isActive := r.isActive, executionCount := r.executionCount,
                      lastExecuted := r.lastExecuted }

/-- A rule as it is read back from its table: the moment of its last run is a cell of its own. -/
def stored (r : Rule) : Rule := { r.reread with lastExecuted := r.lastExecuted }

/-- A rule that was written is in its row as it is read back. -/
theorem row_stored {r : Rule} (h : r.WellFormed) (haware : r.createdAt.isNaive = false) :
    Row r.id (some (stored r)) (tableOf (.obj (Value.storableFields r.fields)) r) := by
  have hwell := h.reread
  refine ⟨rfl, ⟨hwell.actions, hwell.types, hwell.count, h.lastExecuted, hwell.createdAt,
    hwell.updatedAt⟩, ?_, _, r.reread, Rule.check_fields h, rfl, rfl⟩
  exact (Moment.isNaive_toMinute r.createdAt).trans haware

theorem isActiveCell_flagCell (b : Bool) : isActiveCell (some (flagCell b)) = b := by
  cases b <;> rfl

theorem momentOf_momentCell (m : Option Moment) : momentOf (some (momentCell m)) = m := by
  cases m <;> rfl

/-- The other cells of a row say what the rule says. -/
theorem assemble_tableOf (v : Value) (base r : Rule) :
    assemble base (tableOf v r) =
      { base with isActive := r.isActive, executionCount := r.executionCount,
                  lastExecuted := r.lastExecuted } := by
  unfold assemble
  have hactive : (tableOf v r).lookup "is_active" = some (flagCell r.isActive) := rfl
  have hcount : (tableOf v r).lookup "execution_count" = some (.count r.executionCount) := rfl
  have hlast : (tableOf v r).lookup "last_executed" = some (momentCell r.lastExecuted) := rfl
  rw [hactive, hcount, hlast, isActiveCell_flagCell, momentOf_momentCell]
  rfl

/-- The store holds the rules of a map, and each index has the rules that belong to it. -/
def Indexed (s : Store) (m : String → Option Rule) : Prop :=
  ∃ rows, Holds s rows (fun k id => ∃ r, m id = some r ∧ k ∈ indexKeys r)
    ∧ ∀ id, Row id (m id) (rows id)

end TaskAutomation.Rules
