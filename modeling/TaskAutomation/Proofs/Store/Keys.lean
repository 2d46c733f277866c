import Mathlib.Data.List.Pairwise
import TaskAutomation.Proofs.Store.Kept

/-!
# Keys told apart by their texts

Ids are written into keys as they are, whatever they hold. Still no two keys have one text: the text in
front of an id is no beginning of that of another kind, and the minute at the end of a rate has a fixed
length.

* `Key.Stamped k` : the minute in the key, if there is one, has twelve digits;
* `Key.kinds` : the text in front of each kind, and the key for what follows it; `Key.kinds_apart` : none
  begins another; `Key.Stamped.parse` : a stamped key is read back from its text;
* `Key.render_injective` : stamped keys with one text are the same;
* `Store.under s text` : the slot whose key has a text. In a store with stamped keys only
  (`Store.Stamped`) it is the slot of the key (`Store.under_render`);
* `Command.keys c` : the keys that a command reads or writes; `Command.run_congr` : its answer and its
  effect depend on nothing else.
-/

namespace TaskAutomation

namespace Key

/-- The minute in a key has twelve digits. -/
def Stamped : Key → Prop
  | .notifyRate _ minute => minute.length = 12 ∧ ∀ c ∈ minute.toList, c.isDigit = true
  | _ => True

/-! ## The text of a key -/

/-- The key of a rate whose id and minute are joined in a text: the minute and the colon before it are
the last thirteen characters. -/
def ofRate (text : String) : Key :=
  let size := text.toList.length
  .notifyRate (String.ofList (text.toList.take (size - 13)))
    (String.ofList (text.toList.drop (size - 12)))

/-- The text in front of each kind, and the key for the text that follows it. -/
def kinds : List (String × (String → Key)) :=
  [("taskrules:rules:detail:", .ruleDetail), ("taskrules:rules:all", fun _ => .ruleAll),
    ("taskrules:rules:user:", .ruleUser), ("taskrules:rules:trigger:", .ruleTrigger),
    ("taskrules:executions:rule:", .executionsRule), ("taskrules:executions:user:", .executionsUser),
    ("taskrules:tasks:detail:", .taskDetail), ("taskrules:tasks:user:", .taskUser),
    ("taskrules:tasks:due:", .taskDue), ("taskrules:tasks:client:", .taskClient),
    ("taskrules:tasks:parent:", .taskParent), ("taskrules:tasks:dependents:", .taskDependents),
    ("taskrules:dependencies:", .dependency), ("taskrules:assignments:", .assignment),
    ("taskrules:processed:", .processed), ("taskrules:dedup:", .executionDedup),
    ("taskrules:inbox:", .inbox), ("taskrules:activity:", .activity),
    ("taskrules:notify:rate:", ofRate)]

/-- Neither text begins with the other. -/
def Apart (a b : String) : Prop := ¬ a.toList <+: b.toList ∧ ¬ b.toList <+: a.toList

instance : DecidableRel Apart := fun _ _ => inferInstanceAs (Decidable (_ ∧ _))

/-- No kind begins like another. -/
theorem kinds_apart : kinds.Pairwise fun a b => Apart a.1 b.1 := by decide +kernel

theorem ofRate_append (id : String) {minute : String} (h : minute.length = 12) :
    ofRate (id ++ ":" ++ minute) = .notifyRate id minute := by
  have hlength : minute.toList.length = 12 := h
  have hsize : (id ++ ":" ++ minute).toList.length = id.toList.length + 13 := by
    simp [hlength]
  have htake : (id ++ ":" ++ minute).toList.take id.toList.length = id.toList := by
    simp [List.append_assoc]
  have hdrop : (id ++ ":" ++ minute).toList.drop (id.toList.length + 1) = minute.toList := by
    simp [List.append_assoc, List.drop_append]
  unfold ofRate
  dsimp only
  rw [hsize, Nat.add_sub_cancel, htake, Nat.add_sub_assoc (by decide), hdrop, String.ofList_toList,
    String.ofList_toList]

/-- A stamped key is read back from the text in front of its kind and what follows it. -/
theorem Stamped.parse {k : Key} (h : k.Stamped) :
    ∃ kind ∈ kinds, ∃ rest, k.render = kind.1 ++ rest ∧ kind.2 rest = k := by
  cases k with
  | ruleAll =>
    exact ⟨("taskrules:rules:all", fun _ => .ruleAll), by simp [kinds], "", String.append_empty.symm, rfl⟩
  | notifyRate id minute =>
    have hread := ofRate_append id h.1
    have htext : (notifyRate id minute).render = "taskrules:notify:rate:" ++ (id ++ ":" ++ minute) := by
      rw [← String.append_assoc, ← String.append_assoc]
      rfl
    exact ⟨("taskrules:notify:rate:", ofRate), by simp [kinds], _, htext, hread⟩
  | ruleDetail id => exact ⟨(_, .ruleDetail), by simp [kinds], id, rfl, rfl⟩
  | ruleUser id => exact ⟨(_, .ruleUser), by simp [kinds], id, rfl, rfl⟩
  | ruleTrigger id => exact ⟨(_, .ruleTrigger), by simp [kinds], id, rfl, rfl⟩
  | executionsRule id => exact ⟨(_, .executionsRule), by simp [kinds], id, rfl, rfl⟩
  | executionsUser id => exact ⟨(_, .executionsUser), by simp [kinds], id, rfl, rfl⟩
  | taskDetail id => exact ⟨(_, .taskDetail), by simp [kinds], id, rfl, rfl⟩
  | taskUser id => exact ⟨(_, .taskUser), by simp [kinds], id, rfl, rfl⟩
  | taskDue id => exact ⟨(_, .taskDue), by simp [kinds], id, rfl, rfl⟩
  | taskClient id => exact ⟨(_, .taskClient), by simp [kinds], id, rfl, rfl⟩
  | taskParent id => exact ⟨(_, .taskParent), by simp [kinds], id, rfl, rfl⟩
  | taskDependents id => exact ⟨(_, .taskDependents), by simp [kinds], id, rfl, rfl⟩
  | dependency id => exact ⟨(_, .dependency), by simp [kinds], id, rfl, rfl⟩
  | assignment id => exact ⟨(_, .assignment), by simp [kinds], id, rfl, rfl⟩
  | processed id => exact ⟨(_, .processed), by simp [kinds], id, rfl, rfl⟩
  | executionDedup id => exact ⟨(_, .executionDedup), by simp [kinds], id, rfl, rfl⟩
  | inbox id => exact ⟨(_, .inbox), by simp [kinds], id, rfl, rfl⟩
  | activity id => exact ⟨(_, .activity), by simp [kinds], id, rfl, rfl⟩

/-- A text begins like one kind at most. -/
theorem kind_unique {a b : String × (String → Key)} (ha : a ∈ kinds) (hb : b ∈ kinds)
    {text : List Char} (hat : a.1.toList <+: text) (hbt : b.1.toList <+: text) : a = b := by
  have : Std.Symm fun a b : String × (String → Key) => Apart a.1 b.1 := ⟨fun _ _ => And.symm⟩
  by_cases hne : a = b
  · exact hne
  have hapart := kinds_apart.forall ha hb hne
  exact ((List.prefix_or_prefix_of_prefix hat hbt).elim hapart.1 hapart.2).elim

/-- Stamped keys with one text are the same. -/
theorem render_injective {k l : Key} (hk : k.Stamped) (hl : l.Stamped) (h : k.render = l.render) :
    k = l := by
  obtain ⟨a, ha, rest, hrest, rfl⟩ := hk.parse
  obtain ⟨b, hb, rest', hrest', rfl⟩ := hl.parse
  rw [hrest, hrest'] at h
  have hat : a.1.toList <+: (a.1 ++ rest).toList := by simp
  have hbt : b.1.toList <+: (a.1 ++ rest).toList := by simp [h]
  obtain rfl := kind_unique ha hb hat hbt
  rw [(String.append_right_inj _).mp h]

end Key

/-! ## The store by its texts -/

namespace Store

/-- The slot whose key has a text. -/
def under (s : Store) (text : String) : Option Slot :=
  (s.slots.find? fun slot => slot.1.render == text).map Prod.snd

/-- All keys are stamped. -/
def Stamped (s : Store) : Prop := ∀ k, (s.slots.lookup k).isSome → k.Stamped

/-- In a store with stamped keys the slot under the text of a key is that of the key. -/
theorem under_render {s : Store} (hs : s.Stamped) {k : Key} (hk : k.Stamped) :
    s.under k.render = s.slots.lookup k := by
  obtain ⟨slots⟩ := s
  unfold under
  induction slots with
  | nil => rfl
  | cons slot rest ih =>
    obtain ⟨l, value⟩ := slot
    have hl : l.Stamped := hs l (by simp)
    have hrest : Stamped ⟨rest⟩ := fun m hm => hs m (by
      rw [List.lookup_cons]
      split
      · rfl
      · exact hm)
    rw [List.find?_cons, List.lookup_cons]
    by_cases hkl : k = l
    · subst hkl
      simp
    · have htext : (l.render == k.render) = false :=
        beq_false_of_ne fun h => hkl (Key.render_injective hk hl h.symm)
      rw [beq_false_of_ne hkl, htext]
      exact ih hrest

/-- A command with stamped keys leaves stamped keys only. -/
theorem Stamped.run {s : Store} (h : s.Stamped) (now : Int) {c : Command}
    (hc : ∀ k ∈ c.written, k.Stamped) : (c.run now s).2.Stamped := by
  intro k hk
  by_cases hwritten : c.written = some k
  · exact hc k hwritten
  · exact h k (Command.lookup_run now c s hwritten ▸ hk)

end Store

/-! ## What a command depends on -/

namespace Command

/-- The keys that a command reads or writes. -/
def keys : Command → List Key
  | .get k | .set k _ | .claim k _ _ | .setIfFree k _ | .has k | .expire k _ | .increment k
  | .delete k | .tableSet k _ | .tableAll k | .tableIncrement k _ | .setAdd k _ | .setRemove k _
  | .setMembers k | .orderedPut k _ _ | .orderedRemove k _ | .orderedBelow k _
  | .orderedWithin k _ _ | .orderedLast k _ | .push k _ | .trim k _ | .range k _ => [k]
  | .setShared k l => [k, l]
  | .setUnion ks => ks

/-- A command writes a key of its own. -/
theorem mem_keys_of_written {c : Command} {k : Key} (h : c.written = some k) : k ∈ c.keys := by
  cases c <;> cases h <;> exact List.mem_cons_self

/-- Two outcomes of a command have one answer, and leave the same under some keys. -/
def Alike {α : Type} (ks : List Key) (x x' : α × Store) : Prop :=
  x'.1 = x.1 ∧ ∀ k ∈ ks, x'.2.slots.lookup k = x.2.slots.lookup k

namespace Alike

variable {α : Type} {k : Key} {s s' : Store}

theorem ite {ks : List Key} {b : Bool} {x x' y y' : α × Store} (hx : Alike ks x x')
    (hy : Alike ks y y') : Alike ks (if b = true then x else y) (if b = true then x' else y') := by
  cases b with
  | true => exact hx
  | false => exact hy

theorem put (a : α) (slot : Slot) : Alike [k] (a, s.put k slot) (a, s'.put k slot) := by
  refine ⟨rfl, List.forall_mem_singleton.mpr ?_⟩
  rw [Store.lookup_put, Store.lookup_put, if_pos rfl, if_pos rfl]

theorem erase (a : α) : Alike [k] (a, s.erase k) (a, s'.erase k) := by
  refine ⟨rfl, List.forall_mem_singleton.mpr ?_⟩
  rw [Store.lookup_erase, Store.lookup_erase, if_pos rfl, if_pos rfl]

theorem keep (h : s'.slots.lookup k = s.slots.lookup k) (a : α) (now : Int) (c : Content) :
    Alike [k] (a, s.keep now k c) (a, s'.keep now k c) := by
  refine ⟨rfl, List.forall_mem_singleton.mpr ?_⟩
  rw [Store.lookup_keep, Store.lookup_keep, Store.slot?_congr h, h]

end Alike

/-- The answer of a command, and what it leaves under its keys, depend on what was under these. -/
theorem run_congr (now : Int) (c : Command) {s s' : Store}
    (h : ∀ k ∈ c.keys, s'.slots.lookup k = s.slots.lookup k) :
    Alike c.keys (c.run now s) (c.run now s') := by
  have hfind : ∀ k ∈ c.keys, s'.find? now k = s.find? now k := fun k hk =>
    Store.find?_congr (h k hk)
  cases c with
  | setShared k l =>
    refine ⟨?_, h⟩
    simp only [run, Store.members, hfind k List.mem_cons_self,
      hfind l (List.mem_cons_of_mem k List.mem_cons_self)]
  | setUnion ks =>
    refine ⟨?_, h⟩
    have hmembers : ks.map (s'.members now) = ks.map (s.members now) :=
      List.map_congr_left fun k hk => by
        unfold Store.members
        rw [hfind k hk]
    simp only [run, List.flatMap_def, hmembers]
  | get k | has k | tableAll k | setMembers k | orderedBelow k | orderedWithin k | orderedLast k
  | range k =>
    refine ⟨?_, h⟩
    simp only [run, Store.cell?, Store.table, Store.members, Store.ordered, Store.list,
      hfind k List.mem_cons_self]
  | set k => exact .put () _
  | delete k => exact .erase ()
  | claim k | setIfFree k =>
    simp only [run, hfind k List.mem_cons_self]
    exact .ite ⟨rfl, h⟩ (.put true _)
  | expire k =>
    simp only [run, hfind k List.mem_cons_self]
    cases s.find? now k with
    | some content => exact .put () _
    | none => exact ⟨rfl, h⟩
  | increment k | tableSet k | tableIncrement k | orderedPut k | push k =>
    simp only [run, Store.cell?, Store.table, Store.ordered, Store.list, hfind k List.mem_cons_self]
    exact .keep (h k List.mem_cons_self) _ now _
  | setAdd k =>
    simp only [run, Store.members, hfind k List.mem_cons_self]
    exact .ite ⟨rfl, h⟩ (.keep (h k List.mem_cons_self) () now _)
  | setRemove k | orderedRemove k =>
    simp only [run, Store.members, Store.ordered, hfind k List.mem_cons_self]
    exact .ite (.keep (h k List.mem_cons_self) () now _) ⟨rfl, h⟩
  | trim k =>
    simp only [run, hfind k List.mem_cons_self]
    split
    · exact .keep (h k List.mem_cons_self) () now _
    · exact ⟨rfl, h⟩

end Command

end TaskAutomation
