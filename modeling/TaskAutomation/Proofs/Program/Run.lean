import TaskAutomation.Proofs.Store.Kept
import TaskAutomation.World

/-!
# Runs of programs

* programs form a lawful monad;
* `Program.run_clock`, `Program.run_outages` : a run changes neither the clock nor what is out of
  reach;
* `Program.run_bind`, `Program.run_attempt`, `Program.run_each` : a run of a program from the runs of
  its parts; `Program.parts_of_bind` : the runs of the parts from the run of what ends in a result;
* `World.after c` : the world after a command of the store, which moves neither the clock nor
  anything but the store, and there only the key it writes (`World.lookup_after`);
* `Operation.run_guarded` : with nothing out of reach an operation is its body;
  `Operation.run_guard_cases` : otherwise it may fail, with the world as it was;
  `Operation.run_of_guard_ok` : what ends in a result was within reach.
-/

namespace TaskAutomation

namespace World

/-- The world after a command of the store. -/
def after (w : World) (c : Command) : World :=
  { w with store := (c.run w.clock.instant w.store).2 }

@[simp] theorem after_store (w : World) (c : Command) :
    (w.after c).store = (c.run w.clock.instant w.store).2 := rfl

/-- A command leaves the slots of all keys but the one it writes. -/
theorem lookup_after (w : World) {c : Command} {k : Key} (h : c.written ≠ some k) :
    (w.after c).store.slots.lookup k = w.store.slots.lookup k :=
  Command.lookup_run _ c _ h

@[simp] theorem after_clock (w : World) (c : Command) : (w.after c).clock = w.clock := rfl

@[simp] theorem after_outages (w : World) (c : Command) : (w.after c).outages = w.outages := rfl

theorem answer_clock (w : World) (c : Call) : (w.answer c).2.clock = w.clock := by
  cases c <;> rfl

theorem answer_outages (w : World) (c : Call) : (w.answer c).2.outages = w.outages := by
  cases c <;> rfl

/-- With nothing out of reach, nothing is refused. -/
theorem answer_enter {w : World} (h : w.outages = []) (o : Operation) (argument : Option Value)
    (subject : Subject) : (w.answer (.enter o argument subject)).1 = none := by
  simp only [answer, h, List.find?_nil, Option.map_none]

end World

namespace Program

variable {α β : Type}

theorem bind_done (p : Program α) : p.bind .done = p := by
  induction p with
  | done a => rfl
  | fail f => rfl
  | ask c next ih => exact congrArg (ask c) (funext ih)

theorem bind_bind {γ : Type} (p : Program α) (g : α → Program β) (k : β → Program γ) :
    (p.bind g).bind k = p.bind fun a => (g a).bind k := by
  induction p with
  | done a => rfl
  | fail f => rfl
  | ask c next ih => exact congrArg (ask c) (funext ih)

instance : LawfulMonad Program := LawfulMonad.mk' Program bind_done (fun _ _ => rfl) bind_bind

/-- No time passes while a program runs. -/
theorem run_clock (p : Program α) (w : World) : (p.run w).2.clock = w.clock := by
  induction p generalizing w with
  | done a => rfl
  | fail f => rfl
  | ask c next ih => exact (ih _ _).trans (w.answer_clock c)

/-- What is out of reach stays so while a program runs. -/
theorem run_outages (p : Program α) (w : World) : (p.run w).2.outages = w.outages := by
  induction p generalizing w with
  | done a => rfl
  | fail f => rfl
  | ask c next ih => exact (ih _ _).trans (w.answer_outages c)

theorem clock_of_run {p : Program α} {w w' : World} {r : Except Failure α}
    (h : p.run w = (r, w')) : w'.clock = w.clock := by
  have hclock := run_clock p w
  rwa [h] at hclock

theorem outages_of_run {p : Program α} {w w' : World} {r : Except Failure α}
    (h : p.run w = (r, w')) : w'.outages = w.outages := by
  have houtages := run_outages p w
  rwa [h] at houtages

/-! ## Parts of a program -/

@[simp] theorem run_pure (a : α) (w : World) : (pure a : Program α).run w = (.ok a, w) := rfl

@[simp] theorem run_done (a : α) (w : World) : (done a).run w = (.ok a, w) := rfl

@[simp] theorem run_fail (f : Failure) (w : World) : (fail f : Program α).run w = (.error f, w) := rfl

@[simp] theorem run_ofExcept (r : Except Failure α) (w : World) : (ofExcept r).run w = (r, w) := by
  cases r <;> rfl

theorem ok_of_ofExcept {r : Except Failure α} {a : α} {w w' : World}
    (h : (ofExcept r).run w = (.ok a, w')) : r = .ok a ∧ w' = w := by
  rw [run_ofExcept] at h
  cases h
  exact ⟨rfl, rfl⟩

/-- A check that passes gives what it read. -/
theorem run_ofChecked {name : String} {c : Check.Checked α} {a : α} (h : c = .ok a) (w : World) :
    (ofChecked name c).run w = (.ok a, w) := by
  rw [h]
  rfl

/-- A check that passes leaves the world as it is. -/
theorem ok_of_ofChecked {name : String} {c : Check.Checked α} {a : α} {w w' : World}
    (h : (ofChecked name c).run w = (.ok a, w')) : c = .ok a ∧ w' = w := by
  cases c <;> cases h
  exact ⟨rfl, rfl⟩

@[simp] theorem run_call (c : Call) (w : World) :
    (call c).run w = (.ok (w.answer c).1, (w.answer c).2) := rfl

@[simp] theorem run_store (c : Command) (w : World) :
    (store c).run w = (.ok (c.run w.clock.instant w.store).1, w.after c) := rfl

/-- A command that writes nothing leaves the world as it is. -/
theorem run_read {c : Command} (h : c.written = none) (w : World) :
    (store c).run w = (.ok (c.run w.clock.instant w.store).1, w) := by
  rw [run_store, World.after, Command.run_read _ _ h]

@[simp] theorem run_now (w : World) : now.run w = (.ok w.clock, w) := rfl

@[simp] theorem run_setting (w : World) : setting.run w = (.ok { now := w.clock }, w) := rfl

@[simp] theorem run_fresh (c : Counter) (w : World) :
    (fresh c).run w = (.ok (w.counter c + 1), { w with counters := tally c w.counters }) := rfl

@[simp] theorem run_count (m : Metric) (w : World) :
    (count m).run w = (.ok (), { w with counts := tally m w.counts }) := rfl

theorem run_bind (p : Program α) (g : α → Program β) (w : World) :
    (p >>= g).run w = match p.run w with
      | (.ok a, w') => (g a).run w'
      | (.error f, w') => (.error f, w') := by
  show (Program.bind p g).run w = _
  induction p generalizing w with
  | done a => rfl
  | fail f => rfl
  | ask c next ih => exact ih _ _

/-- The part that comes first ends in a result. -/
theorem run_bind_ok {p : Program α} {g : α → Program β} {w w' : World} {a : α}
    (h : p.run w = (.ok a, w')) : (p >>= g).run w = (g a).run w' := by
  rw [run_bind, h]

/-- What ends in a result went through a result of its first part. -/
theorem ok_of_bind {p : Program α} {g : α → Program β} {w : World} {b : β}
    (h : ((p >>= g).run w).1 = .ok b) :
    ∃ a w', p.run w = (.ok a, w') ∧ ((g a).run w').1 = .ok b := by
  rw [run_bind] at h
  rcases hp : p.run w with ⟨f | a, w'⟩
  · rw [hp] at h
    cases h
  · rw [hp] at h
    exact ⟨a, w', rfl, h⟩

/-- What ends in a result went through a result of its first part, and on from there. -/
theorem parts_of_bind {p : Program α} {g : α → Program β} {w w' : World} {b : β}
    (h : (p >>= g).run w = (.ok b, w')) :
    ∃ a w₁, p.run w = (.ok a, w₁) ∧ (g a).run w₁ = (.ok b, w') := by
  obtain ⟨a, w₁, hp, -⟩ := ok_of_bind (congrArg Prod.fst h)
  exact ⟨a, w₁, hp, (run_bind_ok hp).symm.trans h⟩

theorem exists_result {p : Program α} {w : World} (h : (p.run w).1.toOption.isSome = true) :
    ∃ a w', p.run w = (.ok a, w') := by
  rcases hrun : p.run w with ⟨f | a, w'⟩
  · rw [hrun] at h
    cases h
  · exact ⟨a, w', rfl⟩

/-- A result that is of no account changes nothing in the run. -/
theorem run_discard (p : Program α) (w : World) :
    ((do let _ ← p : Program Unit).run w).2 = (p.run w).2 := by
  rw [run_bind]
  rcases p.run w with ⟨_ | _, _⟩ <;> rfl

theorem run_attempt (p : Program α) (w : World) :
    p.attempt.run w = (.ok (p.run w).1, (p.run w).2) := by
  induction p generalizing w with
  | done a => rfl
  | fail f => rfl
  | ask c next ih => exact ih _ _

/-- A program for each item, where none of them fails or changes the world. -/
theorem run_each {f : α → Program β} {g : α → β} {items : List α} {w : World}
    (h : ∀ a ∈ items, (f a).run w = (.ok (g a), w)) :
    (each f items).run w = (.ok (items.map g), w) := by
  induction items with
  | nil => rfl
  | cons a rest ih =>
    have hrest := ih fun b hb => h b (List.mem_cons_of_mem a hb)
    rw [each, run_bind_ok (h a List.mem_cons_self), run_bind_ok hrest]
    rfl

/-- A program that gives back what an item was made from. -/
theorem run_each_map {f : α → Program β} {make : β → α} {items : List β} {w : World}
    (h : ∀ b ∈ items, (f (make b)).run w = (.ok b, w)) :
    (each f (items.map make)).run w = (.ok items, w) := by
  induction items with
  | nil => rfl
  | cons b rest ih =>
    have hrest := ih fun c hc => h c (List.mem_cons_of_mem b hc)
    rw [List.map_cons, each, run_bind_ok (h b List.mem_cons_self), run_bind_ok hrest]
    rfl

end Program

namespace Operation

variable {α : Type} {o : Operation} {argument : Option Value} {subject : Subject}
  {body : Program α} {w : World}

/-- With nothing out of reach an operation is its body. -/
theorem run_guarded (h : w.outages = []) :
    (o.guarded argument subject body).run w = body.run w := by
  unfold guarded
  rw [Program.run_bind_ok (Program.run_call _ _), World.answer_enter h]
  rfl

theorem run_guard (h : w.outages = []) : (o.guard argument body).run w = body.run w :=
  run_guarded h

theorem run_guardFor (h : w.outages = []) : (o.guardFor subject body).run w = body.run w :=
  run_guarded h

/-- An operation is out of reach, with the world as it was, or it is its body. -/
theorem run_guard_cases (w : World) :
    (∃ message, (o.guard argument body).run w = (.error (.unreachable message), w))
      ∨ (o.guard argument body).run w = body.run w := by
  unfold guard guarded
  rw [Program.run_bind_ok (Program.run_call _ w)]
  cases (w.answer (.enter o argument .nothing)).1 with
  | some message => exact .inl ⟨message, rfl⟩
  | none => exact .inr rfl

/-- An operation that ends in a result was within reach. -/
theorem run_of_guard_ok {a : α} {w' : World} (h : (o.guard argument body).run w = (.ok a, w')) :
    body.run w = (.ok a, w') := by
  rcases run_guard_cases w with ⟨message, hout⟩ | hbody
  · rw [hout] at h
    cases h
  · exact hbody.symm.trans h

end Operation

end TaskAutomation
