import Mathlib.Data.List.Forall2
import TaskAutomation.Proofs.Program.Run
import TaskAutomation.Proofs.Program.Within

/-!
# Logs of programs

* `Entry` : a call with its answer;
* `Program.Ends p log result` : the program makes the calls of the log, gets the answers in it, and
  comes to the result. Any answers will do: whatever is entered may be out of reach or not, each
  time anew;
* `Program.trace p w` : the log of a run in a world; `Program.ends_trace` : every run is one of
  these; `Program.reply_of_mem_trace` : in a world, what is out of reach stays so;
* `Ends.of_call`, `Ends.of_bind`, `Ends.of_attempt`, `Ends.of_guarded` : a log taken apart along the
  parts of its program; `Ends.within`, `Ends.within_of_ends` : its calls are those
  the program may make;
* `Clean log` : nothing that was entered was out of reach; `clean_trace` : so are all runs in a world
  where nothing is; `Clean.of_guarded` : there an operation is its body;
* `Program.Yields p Q` : every result of the program is one of `Q`; `Program.Succeeds p Q` : and it
  never fails; `Succeeds.of_each`, `Ends.of_each` : the log of programs for items, none of which fails.
-/

namespace TaskAutomation

/-- A call with its answer. -/
structure Entry where
  call : Call
  reply : call.Reply

namespace Program

variable {α β : Type} {log : List Entry}

/-- The program makes the calls of a log, gets the answers in it, and comes to a result. -/
def Ends : Program α → List Entry → Except Failure α → Prop
  | .done a, log, result => log = [] ∧ result = .ok a
  | .fail f, log, result => log = [] ∧ result = .error f
  | .ask c next, log, result =>
    ∃ (r : c.Reply) (rest : List Entry), log = ⟨c, r⟩ :: rest ∧ (next r).Ends rest result

/-- The log of a run in a world. -/
def trace : Program α → World → List Entry
  | .done _, _ => []
  | .fail _, _ => []
  | .ask c next, w => ⟨c, (w.answer c).1⟩ :: (next (w.answer c).1).trace (w.answer c).2

/-- A run in a world makes the calls of its log and comes to its result. -/
theorem ends_trace (p : Program α) (w : World) : p.Ends (p.trace w) (p.run w).1 := by
  induction p generalizing w with
  | done a => exact ⟨rfl, rfl⟩
  | fail f => exact ⟨rfl, rfl⟩
  | ask c next ih => exact ⟨_, _, rfl, ih _ _⟩

/-- In a run in a world an operation is let in as the world has it. -/
theorem reply_of_mem_trace {p : Program α} {w : World} {o : Operation} {argument : Option Value}
    {subject : Subject} {message? : Option String}
    (h : ⟨.enter o argument subject, message?⟩ ∈ p.trace w) :
    message? = (w.outages.find? fun y => y.concerns o argument).map Outage.message := by
  induction p generalizing w with
  | done a => exact absurd h List.not_mem_nil
  | fail f => exact absurd h List.not_mem_nil
  | ask c next ih =>
    rcases List.mem_cons.mp h with heq | hrest
    · cases heq
      rfl
    · rw [ih _ hrest, World.answer_outages]

namespace Ends

/-- The calls of a log are those that its program may make. -/
theorem within {ok : Call → Prop} {p : Program α} {result : Except Failure α} (hp : p.Within ok)
    (h : p.Ends log result) : ∀ n ∈ log, ok n.call := by
  induction hp generalizing log with
  | done a =>
    obtain ⟨rfl, -⟩ := h
    exact fun n hn => absurd hn List.not_mem_nil
  | fail f =>
    obtain ⟨rfl, -⟩ := h
    exact fun n hn => absurd hn List.not_mem_nil
  | ask hc _ ih =>
    obtain ⟨r, rest, rfl, h⟩ := h
    intro n hn
    rcases List.mem_cons.mp hn with rfl | hn
    · exact hc
    · exact ih r h n hn

/-- A program makes some calls only, if all of its logs are of these. -/
theorem within_of_ends {ok : Call → Prop} {p : Program α}
    (h : ∀ log result, p.Ends log result → ∀ n ∈ log, ok n.call) : p.Within ok := by
  induction p with
  | done a => exact .done a
  | fail f => exact .fail f
  | ask c next ih =>
    -- any world will do for an answer to the first call
    have hends := (ask c next).ends_trace { clock := Moment.ofInstant 0 }
    refine .ask (h _ _ hends _ List.mem_cons_self) fun r => ih r fun log result hrest n hn => ?_
    exact h (⟨c, r⟩ :: log) result ⟨r, log, rfl, hrest⟩ n (List.mem_cons_of_mem _ hn)

theorem of_call {c : Call} {g : c.Reply → Program β} {result : Except Failure β}
    (h : (call c >>= g).Ends log result) :
    ∃ r rest, log = ⟨c, r⟩ :: rest ∧ (g r).Ends rest result := h

/-- One program after another ends where the first fails, or where the second ends. -/
theorem of_bind {p : Program α} {g : α → Program β} {result : Except Failure β}
    (h : (p >>= g).Ends log result) :
    (∃ f, p.Ends log (.error f) ∧ result = .error f)
      ∨ ∃ before after a, log = before ++ after ∧ p.Ends before (.ok a) ∧ (g a).Ends after result := by
  replace h : (Program.bind p g).Ends log result := h
  -- the calls of the first program come first in the log, so the split moves along them
  induction p generalizing log with
  | done a => exact .inr ⟨[], log, a, rfl, ⟨rfl, rfl⟩, h⟩
  | fail f => exact .inl ⟨f, ⟨h.1, rfl⟩, h.2⟩
  | ask c next ih =>
    obtain ⟨r, rest, rfl, h⟩ := h
    rcases ih r h with ⟨f, hp, hresult⟩ | ⟨before, after, a, rfl, hp, hg⟩
    · exact .inl ⟨f, ⟨r, rest, rfl, hp⟩, hresult⟩
    · exact .inr ⟨⟨c, r⟩ :: before, after, a, rfl, ⟨r, before, rfl, hp⟩, hg⟩

theorem of_attempt {p : Program α} {result : Except Failure (Except Failure α)}
    (h : p.attempt.Ends log result) : ∃ outcome, p.Ends log outcome ∧ result = .ok outcome := by
  induction p generalizing log with
  | done a => exact ⟨.ok a, ⟨h.1, rfl⟩, h.2⟩
  | fail f => exact ⟨.error f, ⟨h.1, rfl⟩, h.2⟩
  | ask c next ih =>
    obtain ⟨r, rest, rfl, h⟩ := h
    obtain ⟨outcome, hp, hresult⟩ := ih r h
    exact ⟨outcome, ⟨r, rest, rfl, hp⟩, hresult⟩

/-- What follows an attempt gets its outcome, a failure included. -/
theorem of_bind_attempt {p : Program α} {g : Except Failure α → Program β}
    {result : Except Failure β} (h : (p.attempt >>= g).Ends log result) :
    ∃ before after outcome, log = before ++ after ∧ p.Ends before outcome
      ∧ (g outcome).Ends after result := by
  rcases of_bind h with ⟨f, hfail, -⟩ | ⟨before, after, outcome, hlog, hp, hg⟩
  · obtain ⟨_, -, heq⟩ := of_attempt hfail
    cases heq
  · obtain ⟨_, hp, heq⟩ := of_attempt hp
    cases heq
    exact ⟨before, after, outcome, hlog, hp, hg⟩

/-- An attempt whose outcome is only told makes no calls of its own. -/
theorem of_attempt_told {p : Program α} {g : Except Failure α → Program β} {f : Except Failure α → β}
    (hg : ∀ outcome, g outcome = .done (f outcome)) {result : Except Failure β}
    (h : (p.attempt >>= g).Ends log result) : ∃ outcome, p.Ends log outcome ∧ result = .ok (f outcome) := by
  obtain ⟨before, after, outcome, rfl, hp, hrest⟩ := of_bind_attempt h
  rw [hg] at hrest
  obtain ⟨rfl, rfl⟩ := hrest
  exact ⟨outcome, (List.append_nil before).symm ▸ hp, rfl⟩

theorem of_ofExcept {r result : Except Failure α} (h : (ofExcept r).Ends log result) :
    log = [] ∧ result = r := by
  cases r with
  | ok a => exact h
  | error f => exact h

/-- An operation is out of reach, or it is its body. -/
theorem of_guarded {o : Operation} {argument : Option Value} {subject : Subject} {body : Program α}
    {result : Except Failure α} (h : (o.guarded argument subject body).Ends log result) :
    (∃ message, log = [⟨.enter o argument subject, some message⟩]
        ∧ result = .error (.unreachable message))
      ∨ ∃ rest, log = ⟨.enter o argument subject, none⟩ :: rest ∧ body.Ends rest result := by
  obtain ⟨message?, rest, rfl, h⟩ := h
  cases message? with
  | some message =>
    obtain ⟨rfl, rfl⟩ := h
    exact .inl ⟨message, rfl, rfl⟩
  | none => exact .inr ⟨rest, rfl, h⟩

end Ends

end Program

/-! ## Nothing out of reach -/

/-- Nothing that was entered was out of reach. -/
def Clean (log : List Entry) : Prop :=
  ∀ n ∈ log, ∀ o argument subject, ∀ message : String,
    n ≠ ⟨.enter o argument subject, some message⟩

namespace Clean

variable {log more : List Entry}

theorem nil : Clean [] := fun _ hn => absurd hn List.not_mem_nil

theorem append (h : Clean log) (hmore : Clean more) : Clean (log ++ more) :=
  fun n hn => (List.mem_append.mp hn).elim (h n) (hmore n)

theorem of_subset (h : Clean log) (hsub : ∀ n ∈ more, n ∈ log) : Clean more :=
  fun n hn => h n (hsub n hn)

theorem left (h : Clean (log ++ more)) : Clean log := h.of_subset fun _ => List.mem_append_left more

theorem right (h : Clean (log ++ more)) : Clean more := h.of_subset fun _ => List.mem_append_right log

theorem tail {n : Entry} (h : Clean (n :: log)) : Clean log :=
  h.of_subset fun _ => List.mem_cons_of_mem n

/-- With nothing out of reach an operation is its body. -/
theorem of_guarded {α : Type} {o : Operation} {argument : Option Value} {subject : Subject}
    {body : Program α} {result : Except Failure α} (hclean : Clean log)
    (h : (o.guarded argument subject body).Ends log result) :
    ∃ rest, log = ⟨.enter o argument subject, none⟩ :: rest ∧ Clean rest ∧ body.Ends rest result := by
  rcases Program.Ends.of_guarded h with ⟨message, rfl, -⟩ | ⟨rest, rfl, hbody⟩
  · exact absurd rfl (hclean _ List.mem_cons_self o argument subject message)
  · exact ⟨rest, rfl, hclean.tail, hbody⟩

end Clean

theorem clean_answer {w : World} (hreach : w.outages = []) (c : Call) : Clean [⟨c, (w.answer c).1⟩] := by
  intro n hn o argument subject message heq
  have hentry := (List.mem_singleton.mp hn).symm.trans heq
  cases c with
  | enter o' argument' subject' =>
    rw [World.answer_enter hreach] at hentry
    cases hentry
  | _ => cases hentry

theorem clean_trace {α : Type} (p : Program α) {w : World} (hreach : w.outages = []) :
    Clean (p.trace w) := by
  rintro n hn o argument subject message rfl
  have hreply := Program.reply_of_mem_trace hn
  rw [hreach] at hreply
  cases hreply

/-! ## Results -/

namespace Program

variable {α β : Type} {log : List Entry}

/-- Every result of the program is one of some results. -/
def Yields (p : Program α) (Q : α → Prop) : Prop := ∀ log a, p.Ends log (.ok a) → Q a

/-- The program never fails, and its result is one of some results. -/
def Succeeds (p : Program α) (Q : α → Prop) : Prop :=
  ∀ log outcome, p.Ends log outcome → ∃ a, outcome = .ok a ∧ Q a

namespace Yields

variable {Q : α → Prop} {R : β → Prop}

theorem run {p : Program α} {w : World} {a : α} (hp : p.Yields Q) (h : (p.run w).1 = .ok a) :
    Q a := hp (p.trace w) a (h ▸ p.ends_trace w)

theorem done {a : α} (h : Q a) : (Program.done a).Yields Q := by
  rintro log b ⟨-, hb⟩
  cases hb
  exact h

theorem bind {p : Program α} {g : α → Program β} (hp : p.Yields Q)
    (hg : ∀ a, Q a → (g a).Yields R) : (p >>= g).Yields R := by
  intro log b h
  rcases Ends.of_bind h with ⟨f, -, hf⟩ | ⟨before, after, a, -, ha, hb⟩
  · cases hf
  · exact hg a (hp before a ha) after b hb

/-- What follows a program of any results. -/
theorem after {p : Program α} {g : α → Program β} (hg : ∀ a, (g a).Yields R) :
    (p >>= g).Yields R :=
  .bind (Q := fun _ => True) (fun _ _ _ => trivial) fun a _ => hg a

theorem ofExcept {r : Except Failure α} (h : ∀ a, r = .ok a → Q a) : (ofExcept r).Yields Q := by
  intro log a ha
  exact h a (Ends.of_ofExcept ha).2.symm

theorem ofChecked {name : String} {c : Check.Checked α} (h : ∀ a, c = .ok a → Q a) :
    (ofChecked name c).Yields Q := by
  refine .ofExcept fun a ha => ?_
  cases c with
  | ok _ =>
    cases ha
    exact h a rfl
  | issues found => cases ha

theorem guarded {o : Operation} {argument : Option Value} {subject : Subject} {body : Program α}
    (h : body.Yields Q) : (o.guarded argument subject body).Yields Q := by
  intro log a ha
  rcases Ends.of_guarded ha with ⟨message, -, hfail⟩ | ⟨rest, -, hbody⟩
  · cases hfail
  · exact h rest a hbody

theorem each {f : α → Program β} {items : List α} (h : ∀ a ∈ items, (f a).Yields R) :
    (each f items).Yields fun bs => ∀ b ∈ bs, R b := by
  induction items with
  | nil => exact .done nofun
  | cons a rest ih =>
    refine .bind (h a List.mem_cons_self) fun b hb => ?_
    refine .bind (ih fun c hc => h c (List.mem_cons_of_mem a hc)) fun bs hbs => ?_
    exact .done (List.forall_mem_cons.mpr ⟨hb, hbs⟩)

end Yields

namespace Succeeds

variable {Q : α → Prop} {R : β → Prop}

theorem done {a : α} (h : Q a) : (Program.done a).Succeeds Q := by
  rintro log outcome ⟨-, rfl⟩
  exact ⟨a, rfl, h⟩

theorem ask {c : Call} {next : c.Reply → Program α} (h : ∀ r, (next r).Succeeds Q) :
    (Program.ask c next).Succeeds Q := by
  rintro log outcome ⟨r, rest, -, hrest⟩
  exact h r rest outcome hrest

theorem yields {p : Program α} (h : p.Succeeds Q) : p.Yields Q := by
  intro log a ha
  obtain ⟨_, heq, hQ⟩ := h log _ ha
  cases heq
  exact hQ

theorem call (c : Call) : (Program.call c).Succeeds fun _ => True := .ask fun _ => .done trivial

/-- What follows a program that never fails comes after one of its results. -/
theorem of_bind {p : Program α} {g : α → Program β} {result : Except Failure β}
    (hp : p.Succeeds Q) (h : (p >>= g).Ends log result) :
    ∃ before after a, log = before ++ after ∧ p.Ends before (.ok a) ∧ Q a
      ∧ (g a).Ends after result := by
  rcases Ends.of_bind h with ⟨f, hfail, -⟩ | ⟨before, after, a, hlog, ha, hrest⟩
  · obtain ⟨a, heq, -⟩ := hp log _ hfail
    cases heq
  · obtain ⟨_, heq, hQ⟩ := hp before _ ha
    cases heq
    exact ⟨before, after, a, hlog, ha, hQ, hrest⟩

theorem bind {p : Program α} {g : α → Program β} (hp : p.Succeeds Q)
    (hg : ∀ a, Q a → (g a).Succeeds R) : (p >>= g).Succeeds R := by
  intro log outcome h
  obtain ⟨before, after, a, -, -, ha, hrest⟩ := hp.of_bind h
  exact hg a ha after outcome hrest

/-- What follows a look at the clock gets any setting. -/
theorem after_setting {g : Check.Setting → Program β} (hg : ∀ now, (g { now }).Succeeds R) :
    (setting >>= g).Succeeds R := .ask hg

/-- What follows an attempt of anything. -/
theorem after_attempt {p : Program α} {g : Except Failure α → Program β}
    (hg : ∀ outcome, (g outcome).Succeeds R) : (p.attempt >>= g).Succeeds R := by
  intro log result h
  obtain ⟨before, after, outcome, -, -, hrest⟩ := Ends.of_bind_attempt h
  exact hg outcome after result hrest

theorem each {f : α → Program β} {items : List α} (h : ∀ a ∈ items, (f a).Succeeds R) :
    (each f items).Succeeds fun bs => ∀ b ∈ bs, R b := by
  induction items with
  | nil => exact .done fun b hb => absurd hb List.not_mem_nil
  | cons a rest ih =>
    refine .bind (h a List.mem_cons_self) fun b hb => ?_
    refine .bind (ih fun c hc => h c (List.mem_cons_of_mem a hc)) fun bs hbs => ?_
    exact .done (List.forall_mem_cons.mpr ⟨hb, hbs⟩)

/-- The log of programs for items, none of which fails, is made of theirs, in order. -/
theorem of_each {f : α → Program β} {items : List α} {bs : List β}
    (hf : ∀ a ∈ items, (f a).Succeeds R) (h : (Program.each f items).Ends log (.ok bs)) :
    ∃ runs : List (β × List Entry), bs = runs.map Prod.fst ∧ log = runs.flatMap Prod.snd
      ∧ List.Forall₂ (fun a run => (f a).Ends run.2 (.ok run.1)) items runs := by
  induction items generalizing log bs with
  | nil =>
    obtain ⟨rfl, heq⟩ := h
    cases heq
    exact ⟨[], rfl, rfl, .nil⟩
  | cons a rest ih =>
    have hrest := fun b hb => hf b (List.mem_cons_of_mem a hb)
    obtain ⟨before, after, b, rfl, hb, -, h⟩ := (hf a List.mem_cons_self).of_bind h
    obtain ⟨before', after', bs', rfl, hbs, -, rfl, heq⟩ := (Succeeds.each hrest).of_bind h
    cases heq
    obtain ⟨runs, rfl, rfl, hall⟩ := ih hrest hbs
    refine ⟨(b, before) :: runs, rfl, ?_, .cons hb hall⟩
    rw [List.append_nil]
    rfl

end Succeeds

/-- Programs for items, each of which comes to the result and the log of something that describes it, come
to the results and the logs of a list of these, in order. -/
theorem Ends.of_each {ι κ : Type} {f : α → Program β} {key : ι → κ} {keyOf : α → κ}
    {logOf : ι → List Entry} {resultOf : ι → β} {P : ι → Prop}
    (hf : ∀ a log result, (f a).Ends log result →
      ∃ x, key x = keyOf a ∧ logOf x = log ∧ P x ∧ result = .ok (resultOf x))
    {items : List α} {result : Except Failure (List β)} (h : (each f items).Ends log result) :
    ∃ xs : List ι, log = xs.flatMap logOf ∧ (∀ x ∈ xs, P x) ∧ xs.map key = items.map keyOf
      ∧ result = .ok (xs.map resultOf) := by
  have hsucceeds : ∀ a, (f a).Succeeds fun _ => True := by
    intro a log result h
    obtain ⟨x, -, -, -, rfl⟩ := hf a log result h
    exact ⟨_, rfl, trivial⟩
  induction items generalizing log result with
  | nil =>
    obtain ⟨rfl, rfl⟩ := h
    exact ⟨[], rfl, fun x hx => absurd hx List.not_mem_nil, rfl, rfl⟩
  | cons a rest ih =>
    obtain ⟨before, after, b, rfl, hb, -, h⟩ := (hsucceeds a).of_bind h
    obtain ⟨mid, last, bs, rfl, hbs, -, rfl, rfl⟩ := (Succeeds.each fun c _ => hsucceeds c).of_bind h
    obtain ⟨x, hkey, hlog, hx, hresult⟩ := hf a before _ hb
    obtain ⟨xs, hlogs, hxs, hkeys, hresults⟩ := ih hbs
    cases hresult
    cases hresults
    refine ⟨x :: xs, ?_, List.forall_mem_cons.mpr ⟨hx, hxs⟩, ?_, rfl⟩
    · rw [List.flatMap_cons, hlog, hlogs, List.append_nil]
    · rw [List.map_cons, List.map_cons, hkey, hkeys]

end Program

end TaskAutomation
