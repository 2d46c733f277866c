import TaskAutomation.Proofs.Program.Within

/-!
# Programs that get answers they count on

* `Program.Given fits ok Q p` : as long as the answers fit their calls, every call of the program is
  one of `ok` and every result one of `Q`; closed under what programs are put together with
  (`Given.bind`, `Given.guarded`, `Given.ofChecked`);
* `Given.of_within` : what may make these calls only does so whatever it is answered.
-/

namespace TaskAutomation.Program

variable {α β : Type} {fits : (c : Call) → c.Reply → Prop} {ok : Call → Prop} {Q : α → Prop}
  {R : β → Prop}

/-- Given answers that fit, the calls of a program are some calls, and its results some results. -/
inductive Given (fits : (c : Call) → c.Reply → Prop) (ok : Call → Prop) (Q : α → Prop) :
    Program α → Prop where
  | done {a : α} (h : Q a) : Given fits ok Q (.done a)
  | fail (f : Failure) : Given fits ok Q (.fail f)
  | ask {c : Call} {next : c.Reply → Program α} (hc : ok c)
    (h : ∀ r, fits c r → Given fits ok Q (next r)) : Given fits ok Q (.ask c next)

namespace Given

theorem of_within {p : Program α} (h : p.Within ok) : p.Given fits ok fun _ => True := by
  induction h with
  | done a => exact .done trivial
  | fail f => exact .fail f
  | ask hc _ ih => exact .ask hc fun r _ => ih r

theorem bind {p : Program α} {g : α → Program β} (hp : p.Given fits ok Q)
    (hg : ∀ a, Q a → (g a).Given fits ok R) : (p >>= g).Given fits ok R := by
  show (Program.bind p g).Given fits ok R
  induction hp with
  | done h => exact hg _ h
  | fail f => exact .fail f
  | ask hc _ ih => exact .ask hc ih

theorem call {c : Call} (hc : ok c) : (Program.call c).Given fits ok (fits c) :=
  .ask hc fun _ h => .done h

theorem store {c : Command} (hc : ok (.store c)) :
    (Program.store c).Given fits ok (fits (.store c)) := call hc

theorem now (hnow : ok .now) : Program.now.Given fits ok (fits .now) := call hnow

theorem setting (hnow : ok .now) :
    Program.setting.Given fits ok fun s => fits .now s.now := .bind (.now hnow) fun _ h => .done h

theorem ofChecked {name : String} {c : Check.Checked α} (h : ∀ a, c = .ok a → Q a) :
    (Program.ofChecked name c).Given fits ok Q := by
  cases c with
  | ok a => exact .done (h a rfl)
  | issues found => exact .fail _

theorem guarded {o : Operation} {argument : Option Value} {subject : Subject} {body : Program α}
    (ho : ok (.enter o argument subject)) (h : body.Given fits ok Q) :
    (o.guarded argument subject body).Given fits ok Q := by
  refine .bind (.call ho) fun message? _ => ?_
  cases message? with
  | some message => exact .fail _
  | none => exact h

end Given

end TaskAutomation.Program
