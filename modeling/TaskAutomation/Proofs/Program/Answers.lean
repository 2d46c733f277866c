import TaskAutomation.Proofs.Program.Log

/-!
# Logs that a world answers

What a program enters may be out of reach at one time and not at another, while the rest of the world
answers as ever.

* `World.Answers w log` : the world answers the calls of the log one after another, though what is
  entered may be refused, each time anew; `World.follow w log` : the world after them;
* `Program.Ends.run_of_clean` : where nothing was refused the program went as it runs in the world;
* `Program.Strict p` : the program comes to a result only where nothing was refused; closed under what
  programs are put together with (`Strict.bind`, `Strict.each`, `Strict.guarded`);
* `Program.Strict.of_bind` : a strict program, and what follows it, in a world that answers.
-/

namespace TaskAutomation

/-- The call enters an operation. -/
def Call.IsEntry : Call → Prop
  | .enter .. => True
  | _ => False

namespace World

/-- The calls of a log are answered as the world has it, or enter an operation. -/
def Answers : World → List Entry → Prop
  | _, [] => True
  | w, n :: rest => (n.reply = (w.answer n.call).1 ∨ n.call.IsEntry) ∧ (w.answer n.call).2.Answers rest

/-- The world after the calls of a log. -/
def follow : World → List Entry → World
  | w, [] => w
  | w, n :: rest => (w.answer n.call).2.follow rest

theorem answers_append {w : World} {log more : List Entry} :
    w.Answers (log ++ more) ↔ w.Answers log ∧ (w.follow log).Answers more := by
  induction log generalizing w with
  | nil => exact (true_and _).symm.to_iff
  | cons n rest ih => exact (and_congr_right fun _ => ih).trans and_assoc.symm

theorem answers_trace {α : Type} (p : Program α) (w : World) : w.Answers (p.trace w) := by
  induction p generalizing w with
  | done a => trivial
  | fail f => trivial
  | ask c next ih => exact ⟨.inl rfl, ih _ _⟩

/-- With nothing out of reach, and nothing refused, all calls are answered as the world has it. -/
theorem reply_eq_of_clean {w : World} {n : Entry} (ho : w.outages = [])
    (h : n.reply = (w.answer n.call).1 ∨ n.call.IsEntry) (hclean : Clean [n]) :
    n.reply = (w.answer n.call).1 := by
  rcases h with h | h
  · exact h
  · obtain ⟨c, r⟩ := n
    cases c with
    | enter o argument subject =>
      cases r with
      | some message => exact absurd rfl (hclean _ List.mem_cons_self o argument subject message)
      | none => exact (answer_enter ho o argument subject).symm
    | _ => exact h.elim

end World

theorem Clean.entered (o : Operation) (argument : Option Value) (subject : Subject) :
    Clean [⟨.enter o argument subject, none⟩] := by
  rintro n hn o' argument' subject' message rfl
  cases List.mem_singleton.mp hn

namespace Program

variable {α β : Type}

/-- Where nothing was refused a program went as it runs in the world. -/
theorem Ends.run_of_clean {p : Program α} {w : World} {log : List Entry} {result : Except Failure α}
    (h : p.Ends log result) (hw : w.Answers log) (hclean : Clean log) (ho : w.outages = []) :
    p.run w = (result, w.follow log) := by
  induction p generalizing w log with
  | done a =>
    obtain ⟨rfl, rfl⟩ := h
    rfl
  | fail f =>
    obtain ⟨rfl, rfl⟩ := h
    rfl
  | ask c next ih =>
    obtain ⟨r, rest, rfl, h⟩ := h
    have hone : Clean [⟨c, r⟩] := hclean.of_subset fun n hn => by simp_all
    have hr : r = (w.answer c).1 := World.reply_eq_of_clean ho hw.1 hone
    subst hr
    exact ih _ h hw.2 hclean.tail ((w.answer_outages c).trans ho)

/-- The program comes to a result only where nothing it entered was refused. -/
def Strict (p : Program α) : Prop := ∀ log a, p.Ends log (.ok a) → Clean log

namespace Strict

theorem done (a : α) : (Program.done a).Strict := by
  rintro log b ⟨rfl, -⟩
  exact .nil

theorem fail (f : Failure) : (Program.fail f : Program α).Strict := by
  rintro log b ⟨-, hb⟩
  cases hb

theorem bind {p : Program α} {g : α → Program β} (hp : p.Strict) (hg : ∀ a, (g a).Strict) :
    (p >>= g).Strict := by
  intro log b h
  rcases Ends.of_bind h with ⟨f, -, hf⟩ | ⟨before, after, a, rfl, ha, hb⟩
  · cases hf
  · exact (hp before a ha).append (hg a after b hb)

theorem call {c : Call} (hc : ¬ c.IsEntry) : (Program.call c).Strict := by
  rintro log r ⟨r', rest, rfl, rfl, -⟩ n hn o argument subject message rfl
  cases List.mem_singleton.mp hn
  exact hc trivial

theorem store (c : Command) : (Program.store c).Strict := call (c := .store c) id

theorem setting : Program.setting.Strict := .bind (.call id) fun _ => .done _

theorem ofExcept (r : Except Failure α) : (Program.ofExcept r).Strict := by
  cases r with
  | ok a => exact .done a
  | error f => exact .fail f

theorem ofChecked (name : String) (c : Check.Checked α) : (Program.ofChecked name c).Strict :=
  .ofExcept _

theorem each {f : α → Program β} {items : List α} (h : ∀ a, (f a).Strict) :
    (Program.each f items).Strict := by
  induction items with
  | nil => exact .done _
  | cons a rest ih => exact .bind (h a) fun b => .bind ih fun bs => .done _

theorem guarded {o : Operation} {argument : Option Value} {subject : Subject} {body : Program α}
    (h : body.Strict) : (o.guarded argument subject body).Strict := by
  intro log a ha
  rcases Ends.of_guarded ha with ⟨message, -, hfail⟩ | ⟨rest, rfl, hbody⟩
  · cases hfail
  · exact (Clean.entered o argument subject).append (h rest a hbody)

/-- In a world that answers, a strict program was refused something, or went as it runs there, and what
follows it went on from there. -/
theorem of_bind {p : Program α} {g : α → Program β} {w w' : World} {a : α} {log : List Entry}
    {result : Except Failure β} (hp : p.Strict) (hrun : p.run w = (.ok a, w'))
    (h : (p >>= g).Ends log result) (hw : w.Answers log) (ho : w.outages = []) :
    (∃ f, p.Ends log (.error f) ∧ result = .error f ∧ ¬ Clean log)
      ∨ ∃ before after, log = before ++ after ∧ p.Ends before (.ok a) ∧ Clean before
        ∧ w'.Answers after ∧ (g a).Ends after result := by
  rcases Ends.of_bind h with ⟨f, hfail, hresult⟩ | ⟨before, after, b, rfl, hb, hrest⟩
  · refine .inl ⟨f, hfail, hresult, fun hclean => ?_⟩
    cases (hfail.run_of_clean hw hclean ho).symm.trans hrun
  · obtain ⟨hbefore, hafter⟩ := World.answers_append.mp hw
    have hclean := hp before b hb
    cases (hb.run_of_clean hbefore hclean ho).symm.trans hrun
    exact .inr ⟨before, after, rfl, hb, hclean, hafter, hrest⟩

end Strict

end Program

end TaskAutomation
