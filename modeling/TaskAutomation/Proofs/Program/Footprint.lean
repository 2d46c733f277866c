import TaskAutomation.Proofs.Program.Log
import TaskAutomation.Proofs.Store.Keys

/-!
# The keys that a run uses

What a run in a world reads and writes is told by its commands. A run that uses some keys only writes no
other key, and comes to the same end in all worlds that agree on these keys.

* `Call.Uses area c` : the call reads and writes stamped keys of an area only;
* `Program.StaysIn area p w` : so do all calls of the run of a program in a world; put together along the
  parts of the program (`StaysIn.bind`, `StaysIn.guard`, `StaysIn.each`), and it holds where no answer
  makes a difference (`StaysIn.of_within`);
* `StaysIn.lookup_run`, `StaysIn.stamped_run` : what such a run leaves;
* `World.Agree area w w'` : two worlds differ at most in what is under the texts of other keys;
  `StaysIn.run_congr` : such a run cannot tell them apart;
* `Program.Separate own p w` : all this of the texts of keys, whatever ids they hold
  (`StaysIn.separate`).
-/

namespace TaskAutomation

/-- The call reads and writes stamped keys of an area only. -/
def Call.Uses (area : Key → Prop) : Call → Prop
  | .store c => ∀ k ∈ c.keys, k.Stamped ∧ area k
  | _ => True

theorem Call.Uses.mono {area area' : Key → Prop} (himp : ∀ k, area k → area' k) {c : Call}
    (h : c.Uses area) : c.Uses area' := by
  cases c with
  | store c => exact fun k hk => ⟨(h k hk).1, himp k (h k hk).2⟩
  | _ => trivial

namespace Program

variable {α β : Type} {area : Key → Prop} {w : World}

theorem trace_bind (p : Program α) (g : α → Program β) (w : World) :
    (p >>= g).trace w = p.trace w ++ match p.run w with
      | (.ok a, w') => (g a).trace w'
      | (.error _, _) => [] := by
  show (Program.bind p g).trace w = _
  induction p generalizing w with
  | done a => rfl
  | fail f => rfl
  | ask c next ih => exact congrArg (List.cons _) (ih _ _)

/-- All calls of the run in a world use keys of an area only. -/
def StaysIn (area : Key → Prop) (p : Program α) (w : World) : Prop :=
  ∀ n ∈ p.trace w, n.call.Uses area

namespace StaysIn

theorem mono {area' : Key → Prop} {p : Program α} (h : p.StaysIn area w)
    (himp : ∀ k, area k → area' k) : p.StaysIn area' w :=
  fun n hn => (h n hn).mono himp

theorem of_within {p : Program α} (h : p.Within (Call.Uses area)) : p.StaysIn area w :=
  (p.ends_trace w).within h

theorem bind {p : Program α} {g : α → Program β} (hp : p.StaysIn area w)
    (hg : ∀ a w', p.run w = (.ok a, w') → (g a).StaysIn area w') : (p >>= g).StaysIn area w := by
  intro n hn
  rw [trace_bind] at hn
  rcases List.mem_append.mp hn with hn | hn
  · exact hp n hn
  · rcases hrun : p.run w with ⟨_ | a, w'⟩
    · rw [hrun] at hn
      exact absurd hn List.not_mem_nil
    · rw [hrun] at hn
      exact hg a w' hrun n hn

theorem guard {o : Operation} {argument : Option Value} {body : Program α}
    (h : body.StaysIn area w) : (o.guard argument body).StaysIn area w := by
  refine bind (of_within (.call trivial)) fun message? w' hrun => ?_
  cases hrun
  split
  · exact of_within (.fail _)
  · exact h

/-- A program for each item, in the worlds that those before it left. -/
theorem each {f : α → Program β} {items : List α}
    (h : ∀ before a after, items = before ++ a :: after → ∀ bs w',
      (Program.each f before).run w = (.ok bs, w') → (f a).StaysIn area w') :
    (Program.each f items).StaysIn area w := by
  induction items generalizing w with
  | nil => exact of_within (.done _)
  | cons a rest ih =>
    refine bind (h [] a rest rfl [] w rfl) fun b w₁ hb => bind (ih ?_) fun bs w₂ _ => ?_
    · intro before c after hsplit bs w₂ hbs
      refine h (a :: before) c after (by rw [hsplit, List.cons_append]) (b :: bs) w₂ ?_
      rw [Program.each, run_bind_ok hb, run_bind_ok hbs]
      rfl
    · exact of_within (.done _)

/-- A run keeps what is under all other keys. -/
theorem lookup_run {p : Program α} (h : p.StaysIn area w) {k : Key} (hk : ¬ area k) :
    (p.run w).2.store.slots.lookup k = w.store.slots.lookup k := by
  induction p generalizing w with
  | done a => rfl
  | fail f => rfl
  | ask c next ih =>
    have hfirst := h _ List.mem_cons_self
    refine (ih _ fun n hn => h n (List.mem_cons_of_mem _ hn)).trans ?_
    cases c with
    | store c =>
      exact Command.lookup_run _ c w.store fun heq => hk (hfirst k (Command.mem_keys_of_written heq)).2
    | _ => rfl

/-- A run leaves stamped keys only. -/
theorem stamped_run {p : Program α} (h : p.StaysIn area w) (hw : w.store.Stamped) :
    (p.run w).2.store.Stamped := by
  induction p generalizing w with
  | done a => exact hw
  | fail f => exact hw
  | ask c next ih =>
    have hfirst := h _ List.mem_cons_self
    refine ih _ (fun n hn => h n (List.mem_cons_of_mem _ hn)) ?_
    cases c with
    | store c =>
      exact hw.run _ fun k hk => (hfirst k (Command.mem_keys_of_written hk)).1
    | _ => exact hw

end StaysIn

end Program

/-! ## Worlds that a run cannot tell apart -/

/-- The worlds agree on everything but the store, and there on the keys of an area. -/
structure World.Agree (area : Key → Prop) (w w' : World) : Prop where
  clock : w'.clock = w.clock
  counters : w'.counters = w.counters
  outages : w'.outages = w.outages
  counts : w'.counts = w.counts
  slots : ∀ k, k.Stamped → area k → w'.store.slots.lookup k = w.store.slots.lookup k

/-- Worlds that agree on the keys of a call answer it alike, and then agree again. -/
theorem World.Agree.answer {area : Key → Prop} {w w' : World} (h : w.Agree area w') {c : Call}
    (hc : c.Uses area) :
    (w'.answer c).1 = (w.answer c).1 ∧ (w.answer c).2.Agree area (w'.answer c).2 := by
  obtain ⟨hclock, hcounters, houtages, hcounts, hslots⟩ := h
  cases c with
  | store c =>
    have halike := Command.run_congr w.clock.instant c fun k hk =>
      hslots k (hc k hk).1 (hc k hk).2
    have hinstant : w'.clock.instant = w.clock.instant := by rw [hclock]
    refine ⟨?_, hclock, hcounters, houtages, hcounts, fun k hk harea => ?_⟩
    · simp only [World.answer, hinstant, halike.1]
    · simp only [World.answer, hinstant]
      by_cases hown : k ∈ c.keys
      · exact halike.2 k hown
      · have hother : c.written ≠ some k := fun heq => hown (Command.mem_keys_of_written heq)
        rw [Command.lookup_run _ c _ hother, Command.lookup_run _ c _ hother, hslots k hk harea]
  | now => exact ⟨hclock, hclock, hcounters, houtages, hcounts, hslots⟩
  | fresh c =>
    have hcounter : w'.counter c = w.counter c := by
      unfold World.counter
      rw [hcounters]
    refine ⟨?_, hclock, ?_, houtages, hcounts, hslots⟩
    · simp only [World.answer, hcounter]
    · simp only [World.answer, hcounters]
  | enter o argument subject =>
    refine ⟨?_, hclock, hcounters, houtages, hcounts, hslots⟩
    simp only [World.answer, houtages]
  | count m =>
    refine ⟨rfl, hclock, hcounters, houtages, ?_, hslots⟩
    simp only [World.answer, hcounts]

/-- A run comes to the same end in worlds that agree on what it uses. -/
theorem Program.StaysIn.run_congr {α : Type} {area : Key → Prop} {p : Program α} {w w' : World}
    (h : p.StaysIn area w) (hagree : w.Agree area w') :
    (p.run w').1 = (p.run w).1 ∧ (p.run w).2.Agree area (p.run w').2 := by
  induction p generalizing w w' with
  | done a => exact ⟨rfl, hagree⟩
  | fail f => exact ⟨rfl, hagree⟩
  | ask c next ih =>
    obtain ⟨hreply, hafter⟩ := hagree.answer (h _ List.mem_cons_self)
    have hrest := ih _ (fun n hn => h n (List.mem_cons_of_mem _ hn)) hafter
    simp only [Program.run, hreply]
    exact hrest

/-- And it makes the same calls there. -/
theorem Program.StaysIn.trace_congr {α : Type} {area : Key → Prop} {p : Program α} {w w' : World}
    (h : p.StaysIn area w) (hagree : w.Agree area w') : p.trace w' = p.trace w := by
  induction p generalizing w w' with
  | done a => rfl
  | fail f => rfl
  | ask c next ih =>
    obtain ⟨hreply, hafter⟩ := hagree.answer (h _ List.mem_cons_self)
    have hrest := ih _ (fun n hn => h n (List.mem_cons_of_mem _ hn)) hafter
    simp only [Program.trace, hreply, hrest]

/-! ## Texts -/

/-- A run has nothing to do with what is under the texts of keys other than its own. -/
structure Program.Separate {α : Type} (own : Key → Prop) (p : Program α) (w : World) : Prop where
  /-- It names the texts of its own keys only. -/
  named : ∀ n ∈ p.trace w, ∀ c, n.call = .store c → ∀ k ∈ c.keys,
    ∀ l : Key, l.Stamped → l.render = k.render → own l
  /-- What is under other texts stays as it is. -/
  unwritten : ∀ l : Key, l.Stamped → ¬ own l →
    (p.run w).2.store.under l.render = w.store.under l.render
  /-- Whatever else is under other texts, the result is the same, and so is what it leaves. -/
  unread : ∀ s : Store, s.Stamped →
    (∀ k : Key, k.Stamped → own k → s.under k.render = w.store.under k.render) →
    (p.run { w with store := s }).1 = (p.run w).1 ∧ ∀ k : Key, k.Stamped → own k →
      (p.run { w with store := s }).2.store.under k.render = (p.run w).2.store.under k.render
  /-- The minutes in all keys still have twelve digits. -/
  stamped : (p.run w).2.store.Stamped

theorem Program.StaysIn.separate {α : Type} {own : Key → Prop} {p : Program α} {w : World}
    (h : p.StaysIn own w) (hw : w.store.Stamped) : p.Separate own w := by
  have hafter := h.stamped_run hw
  refine ⟨fun n hn c hc k hk l hl htext => ?_, fun l hl hother => ?_, fun s hs hsame => ?_, hafter⟩
  · have hcall := h n hn
    rw [hc] at hcall
    obtain ⟨hstamped, hown⟩ := hcall k hk
    exact Key.render_injective hl hstamped htext ▸ hown
  · rw [Store.under_render hafter hl, Store.under_render hw hl, h.lookup_run hother]
  · have hagree : w.Agree own { w with store := s } := by
      refine ⟨rfl, rfl, rfl, rfl, fun k hk hown => ?_⟩
      rw [← Store.under_render hs hk, ← Store.under_render hw hk, hsame k hk hown]
    obtain ⟨hresult, hleft⟩ := h.run_congr hagree
    refine ⟨hresult, fun k hk hown => ?_⟩
    have hafter' : (p.run { w with store := s }).2.store.Stamped :=
      stamped_run (fun n hn => h n (h.trace_congr hagree ▸ hn)) hs
    rw [Store.under_render hafter' hk, Store.under_render hafter hk, hleft.slots k hk hown]

end TaskAutomation
