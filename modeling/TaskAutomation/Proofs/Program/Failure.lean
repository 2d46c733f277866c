import TaskAutomation.Proofs.Program.Log
import TaskAutomation.Proofs.Rules.Effects

/-!
# Failures of programs

* `Program.Throws p Q` : every failure of the program is one of `Q`, whatever it is answered; closed
  under what programs are put together with (`Throws.bind`, `Throws.each`, `Throws.guarded`);
* `p.LeavesOn bad` : a run that comes to one of some outcomes leaves the store as it was;
* `Blameless p` : no failure of the program is one of the engine itself;
* `Failure.isRejection` : the action itself is at fault: its type, its parameters, or a date in them;
  `isRejected` : an outcome that is such a failure;
* `Accepts p` : the program never rejects its action; `RejectsFirst p` : a run that rejects its
  action leaves the store as it was, which holds of what reads and only then accepts;
* `Program.run_each_error` : a loop that fails made the items in front of the one that fails.
-/

namespace TaskAutomation

namespace Program

variable {α β : Type} {Q : Failure → Prop}

/-- Every failure of the program is one of some failures. -/
def Throws (p : Program α) (Q : Failure → Prop) : Prop := ∀ log f, p.Ends log (.error f) → Q f

namespace Throws

theorem run {p : Program α} {w : World} {f : Failure} (hp : p.Throws Q)
    (h : (p.run w).1 = .error f) : Q f := hp (p.trace w) f (h ▸ p.ends_trace w)

theorem mono {R : Failure → Prop} {p : Program α} (hp : p.Throws Q) (himp : ∀ f, Q f → R f) :
    p.Throws R := fun log f h => himp f (hp log f h)

/-- A program that never fails. -/
theorem of_succeeds {R : α → Prop} {p : Program α} (h : p.Succeeds R) : p.Throws Q := by
  intro log f hf
  obtain ⟨a, heq, -⟩ := h log _ hf
  cases heq

theorem done (a : α) : (Program.done a).Throws Q := by
  rintro log f ⟨-, hf⟩
  cases hf

theorem fail {f : Failure} (h : Q f) : (Program.fail f : Program α).Throws Q := by
  rintro log g ⟨-, hg⟩
  cases hg
  exact h

theorem call (c : Call) : (Program.call c).Throws Q := by
  rintro log f ⟨r, rest, -, h⟩
  exact done r rest f h

theorem store (c : Command) : (Program.store c).Throws Q := call (.store c)

/-- What follows a program gets one of its results. -/
theorem bind_of_yields {R : α → Prop} {p : Program α} {g : α → Program β} (hp : p.Throws Q)
    (hr : p.Yields R) (hg : ∀ a, R a → (g a).Throws Q) : (p >>= g).Throws Q := by
  intro log f h
  rcases Ends.of_bind h with ⟨f', hfail, heq⟩ | ⟨before, after, a, -, ha, hrest⟩
  · cases heq
    exact hp log f hfail
  · exact hg a (hr before a ha) after f hrest

theorem bind {p : Program α} {g : α → Program β} (hp : p.Throws Q) (hg : ∀ a, (g a).Throws Q) :
    (p >>= g).Throws Q := hp.bind_of_yields (R := fun _ => True) (fun _ _ _ => trivial) fun a _ => hg a

/-- What follows an attempt gets a failure only as one that the program has. -/
theorem bind_attempt {p : Program α} {g : Except Failure α → Program β} {R : Failure → Prop}
    (hp : p.Throws R) (hok : ∀ a, (g (.ok a)).Throws Q)
    (hfail : ∀ f, R f → (g (.error f)).Throws Q) : (p.attempt >>= g).Throws Q := by
  intro log f h
  obtain ⟨before, after, outcome, -, hbefore, hrest⟩ := Ends.of_bind_attempt h
  cases outcome with
  | ok a => exact hok a after f hrest
  | error f' => exact hfail f' (hp before f' hbefore) after f hrest

/-- What follows an attempt of anything. -/
theorem after_attempt {p : Program α} {g : Except Failure α → Program β}
    (hg : ∀ outcome, (g outcome).Throws Q) : (p.attempt >>= g).Throws Q :=
  .bind_attempt (R := fun _ => True) (fun _ _ _ => trivial) (fun a => hg (.ok a)) fun f _ => hg (.error f)

theorem setting : Program.setting.Throws Q := .bind (.call _) fun _ => .done _

theorem ofExcept {r : Except Failure α} (h : ∀ f, r = .error f → Q f) :
    (Program.ofExcept r).Throws Q := by
  intro log f hf
  exact h f (Ends.of_ofExcept hf).2.symm

theorem ofChecked {name : String} (c : Check.Checked α) (h : ∀ found, Q (.invalidRecord name found)) :
    (Program.ofChecked name c).Throws Q := by
  refine .ofExcept fun f hf => ?_
  cases c with
  | ok a => cases hf
  | issues found =>
    cases hf
    exact h found

theorem guarded {o : Operation} {argument : Option Value} {subject : Subject} {body : Program α}
    (ho : ∀ message, Q (.unreachable message)) (h : body.Throws Q) :
    (o.guarded argument subject body).Throws Q := by
  intro log f hf
  rcases Ends.of_guarded hf with ⟨message, -, heq⟩ | ⟨rest, -, hbody⟩
  · cases heq
    exact ho message
  · exact h rest f hbody

theorem each {f : α → Program β} {items : List α} (h : ∀ a ∈ items, (f a).Throws Q) :
    (Program.each f items).Throws Q := by
  induction items with
  | nil => exact .done []
  | cons a rest ih =>
    refine .bind (h a List.mem_cons_self) fun b => ?_
    exact .bind (ih fun c hc => h c (List.mem_cons_of_mem a hc)) fun bs => .done _

end Throws

/-- A program that writes nothing leaves the store as it is. -/
theorem store_run_of_inert {p : Program α} (h : Inert p) (w : World) :
    (p.run w).2.store = w.store := by
  induction h generalizing w with
  | done a => rfl
  | fail f => rfl
  | @ask c next hc _ ih =>
    refine (ih _ _).trans ?_
    cases c with
    | store c => exact Command.run_read _ _ hc
    | _ => rfl

/-- A program that makes no calls leaves the world as it is. -/
theorem run_of_silent {p : Program α} (h : p.Within fun _ => False) (w : World) : (p.run w).2 = w := by
  cases h with
  | ask hc _ => exact hc.elim
  | _ => rfl

/-- A run that comes to one of some outcomes leaves the store as it was. -/
def LeavesOn (p : Program α) (bad : Except Failure α → Prop) : Prop :=
  ∀ w, bad (p.run w).1 → (p.run w).2.store = w.store

namespace LeavesOn

variable {p : Program α} {bad : Except Failure α → Prop}

theorem of_inert (h : Inert p) : p.LeavesOn bad := fun w _ => store_run_of_inert h w

/-- A program that never comes to such an outcome. -/
theorem of_never (hfail : p.Throws fun f => ¬bad (.error f)) (hok : p.Yields fun a => ¬bad (.ok a)) :
    p.LeavesOn bad := by
  intro w hbad
  cases houtcome : (p.run w).1 with
  | error f => exact absurd (houtcome ▸ hbad) (hfail.run houtcome)
  | ok a => exact absurd (houtcome ▸ hbad) (hok.run houtcome)

theorem of_succeeds (h : p.Succeeds fun a => ¬bad (.ok a)) : p.LeavesOn bad :=
  of_never (.of_succeeds h) h.yields

/-- What comes after writing nothing gets one of its results. -/
theorem after_inert_of_yields {R : α → Prop} {bad : Except Failure β → Prop} {g : α → Program β}
    (hp : Inert p) (hr : p.Yields R) (hg : ∀ a, R a → (g a).LeavesOn bad) : (p >>= g).LeavesOn bad := by
  intro w hbad
  have hstore := store_run_of_inert hp w
  rw [run_bind] at hbad ⊢
  rcases hrun : p.run w with ⟨f | a, w₁⟩
  · rw [hrun] at hstore
    exact hstore
  · rw [hrun] at hstore hbad
    exact (hg a (hr.run (by rw [hrun])) w₁ hbad).trans hstore

/-- What comes after writing nothing. -/
theorem after_inert {bad : Except Failure β → Prop} {g : α → Program β} (hp : Inert p)
    (hg : ∀ a, (g a).LeavesOn bad) : (p >>= g).LeavesOn bad :=
  after_inert_of_yields (R := fun _ => True) hp (fun _ _ _ => trivial) fun a _ => hg a

/-- A result that is only put into another form. -/
theorem map {bad : Except Failure β → Prop} {g : α → Program β} {f : α → β}
    (hg : ∀ a, g a = .done (f a)) (hp : p.LeavesOn fun outcome => bad (outcome.map f)) :
    (p >>= g).LeavesOn bad := by
  obtain rfl : g = fun a => .done (f a) := funext hg
  intro w hbad
  have hp := hp w
  rw [run_bind] at hbad ⊢
  rcases hrun : p.run w with ⟨e | a, w₁⟩
  · rw [hrun] at hp hbad
    exact hp hbad
  · rw [hrun] at hp hbad
    exact hp hbad

theorem guarded {o : Operation} {argument : Option Value} {subject : Subject} {body : Program α}
    (h : body.LeavesOn bad) : (o.guarded argument subject body).LeavesOn bad := by
  refine after_inert (.call trivial) fun message? => ?_
  cases message? with
  | some message => exact of_inert (.fail _)
  | none => exact h

end LeavesOn

/-- A loop that fails made the items in front of the one that fails. -/
theorem run_each_error {f : α → Program β} {items : List α} {w w' : World} {e : Failure}
    (h : (each f items).run w = (.error e, w')) :
    ∃ made bad rest bs w₁, items = made ++ bad :: rest ∧ (each f made).run w = (.ok bs, w₁)
      ∧ (f bad).run w₁ = (.error e, w') := by
  induction items generalizing w with
  | nil => cases h
  | cons a rest ih =>
    rw [each, run_bind] at h
    rcases ha : (f a).run w with ⟨e' | b, w₁⟩
    · rw [ha] at h
      cases h
      exact ⟨[], a, rest, [], w, rfl, rfl, ha⟩
    · rw [ha] at h
      simp only [run_bind] at h
      rcases hrest : (each f rest).run w₁ with ⟨e' | bs, w₂⟩
      · rw [hrest] at h
        cases h
        obtain ⟨made, bad, more, bs, w₂, rfl, hmade, hbad⟩ := ih hrest
        refine ⟨a :: made, bad, more, b :: bs, w₂, rfl, ?_, hbad⟩
        rw [each, run_bind_ok ha, run_bind_ok hmade]
        rfl
      · rw [hrest] at h
        cases h

end Program

/-! ## Rejections -/

/-- The action is rejected for its type, its parameters, or a date in them. -/
def Failure.isRejection : Failure → Bool
  | .unknownAction _ | .badParameters .. | .unparseableDate _ => true
  | _ => false

/-- The outcome is a rejection of the action. -/
def isRejected {α : Type} : Except Failure α → Bool
  | .ok _ => false
  | .error f => f.isRejection

theorem error_of_isRejected {α : Type} {outcome : Except Failure α}
    (h : isRejected outcome = true) : ∃ f, outcome = .error f ∧ f.isRejection = true := by
  cases outcome with
  | ok a => cases h
  | error f => exact ⟨f, rfl, h⟩

/-- A failure inside an executor rejects the action as itself, or not at all. -/
theorem Failure.isRejection_ofExecutor (f : Failure) : f.ofExecutor.isRejection = f.isRejection := by
  unfold ofExecutor
  cases f <;> rfl

variable {α β : Type}

/-- The program never rejects its action. -/
abbrev Accepts (p : Program α) : Prop := p.Throws fun f => f.isRejection = false

/-- No failure of the program is one of the engine itself. -/
abbrev Blameless (p : Program α) : Prop := p.Throws fun f => f.isOwn = false

/-- A run that rejects its action leaves the store as it was. -/
def RejectsFirst (p : Program α) : Prop :=
  ∀ w f, (p.run w).1 = .error f → f.isRejection = true → (p.run w).2.store = w.store

theorem rejectsFirst_iff {p : Program α} :
    RejectsFirst p ↔ p.LeavesOn fun outcome => isRejected outcome = true := by
  constructor
  · intro h w hbad
    obtain ⟨f, hf, hreject⟩ := error_of_isRejected hbad
    exact h w f hf hreject
  · intro h w f hf hreject
    exact h w (by rw [hf]; exact hreject)

namespace RejectsFirst

theorem of_accepts {p : Program α} (h : Accepts p) : RejectsFirst p := by
  refine rejectsFirst_iff.mpr (.of_never (h.mono fun f hf => ?_) fun _ _ _ => Bool.false_ne_true)
  exact ne_true_of_eq_false hf

theorem of_reads {p : Program α} (h : Reads p) : RejectsFirst p :=
  rejectsFirst_iff.mpr (.of_inert h.inert)

/-- What comes after reading alone. -/
theorem after_reads {p : Program α} {g : α → Program β} (hp : Reads p)
    (hg : ∀ a, RejectsFirst (g a)) : RejectsFirst (p >>= g) :=
  rejectsFirst_iff.mpr (.after_inert hp.inert fun a => rejectsFirst_iff.mp (hg a))

theorem guard {o : Operation} {argument : Option Value} {body : Program α} (h : RejectsFirst body) :
    RejectsFirst (o.guard argument body) := rejectsFirst_iff.mpr (.guarded (rejectsFirst_iff.mp h))

end RejectsFirst

end TaskAutomation
