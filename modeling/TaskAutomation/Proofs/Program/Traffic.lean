import Mathlib.Algebra.BigOperators.Ring.Finset
import Mathlib.Logic.Relation
import TaskAutomation.Proofs.Program.Log

/-!
# Traffic

* `Program.After p log q` : a program that has made the calls of a log is left with another;
  `After.ends` : as that one ends, so does the program;
* `Deed` : a call with its answer, who made it, and when;
* `Traffic` : a world, the programs under way in it, and all their deeds, the oldest first;
  `Traffic.log s i` : the calls of the program in place `i`; `Traffic.Settled s` : all have ended;
* `Traffic.Step prog d` : one of the programs `prog` starts, one of them makes its next call, or
  others change the world; `Traffic.Leads prog d` : any number of steps;
* `Traffic.sound` : each program is where its own calls have led it; `Traffic.sum_deeds` : what adds up
  over the calls of each program adds up to the same over all deeds;
* `Traffic.clear` : if others put nothing out of reach, then nothing ever was;
* `Traffic.play` : some programs take their turns in a given order.
-/

namespace TaskAutomation

namespace Program

variable {α : Type} {p q : Program α} {log : List Entry}

/-- The program has made the calls of a log, got the answers in it, and is left with another. -/
def After : Program α → List Entry → Program α → Prop
  | p, [], q => p = q
  | .ask c next, n :: rest, q => ∃ r, n = ⟨c, r⟩ ∧ (next r).After rest q
  | .done _, _ :: _, _ => False
  | .fail _, _ :: _, _ => False

@[simp] theorem after_nil : p.After [] q ↔ p = q := by
  cases p <;> exact Iff.rfl

namespace After

theorem call {c : Call} {next : c.Reply → Program α} (h : p.After log (.ask c next)) (r : c.Reply) :
    p.After (log ++ [⟨c, r⟩]) (next r) := by
  induction log generalizing p with
  | nil =>
    cases after_nil.mp h
    exact ⟨r, rfl, after_nil.mpr rfl⟩
  | cons n rest ih =>
    cases p with
    | done a => exact h.elim
    | fail f => exact h.elim
    | ask c' next' =>
      obtain ⟨r', hn, h⟩ := h
      exact ⟨r', hn, ih h⟩

theorem ends {more : List Entry} {result : Except Failure α} (h : p.After log q)
    (hq : q.Ends more result) : p.Ends (log ++ more) result := by
  induction log generalizing p with
  | nil =>
    cases after_nil.mp h
    exact hq
  | cons n rest ih =>
    cases p with
    | done a => exact h.elim
    | fail f => exact h.elim
    | ask c next =>
      obtain ⟨r, rfl, h⟩ := h
      exact ⟨r, rest ++ more, rfl, ih h⟩

/-- What is left may make the calls that the program may make. -/
theorem within {ok : Call → Prop} (hp : p.Within ok) (h : p.After log q) : q.Within ok := by
  induction log generalizing p with
  | nil => exact after_nil.mp h ▸ hp
  | cons n rest ih =>
    cases hp with
    | done a => exact h.elim
    | fail f => exact h.elim
    | ask hc hnext =>
      obtain ⟨r, rfl, h⟩ := h
      exact ih (hnext r) h

end After

/-- The program makes no more calls. -/
def isOver : Program α → Bool
  | .ask _ _ => false
  | _ => true

theorem ends_of_isOver (h : p.isOver = true) : ∃ result, p.Ends [] result := by
  cases p with
  | done a => exact ⟨.ok a, rfl, rfl⟩
  | fail f => exact ⟨.error f, rfl, rfl⟩
  | ask c next => cases h

end Program

/-- A call with its answer, the place of the program that made it, and the instant. -/
structure Deed where
  maker : Nat
  time : Int
  entry : Entry

/-- A world, the programs under way in it, each with what it is about, and their deeds so far. -/
structure Traffic (ι α : Type) where
  world : World
  flights : List (ι × Program α) := []
  deeds : List Deed := []

/-- What may happen in traffic: what programs may start, and how others may change the world. -/
structure Regime (ι : Type) where
  starts : ι → Prop
  others : World → World → Prop

namespace Traffic

variable {ι α : Type}

/-- The calls of the program in a place. -/
def log (s : Traffic ι α) (i : Nat) : List Entry :=
  (s.deeds.filter fun d => d.maker == i).map Deed.entry

/-- All that was under way has ended. -/
def Settled (s : Traffic ι α) : Prop := ∀ f ∈ s.flights, f.2.isOver = true

variable (prog : ι → Program α) (d : Regime ι)

/-- One step of traffic. -/
inductive Step : Traffic ι α → Traffic ι α → Prop where
  | start {s : Traffic ι α} {i : ι} (hi : d.starts i) :
    Step s { s with flights := s.flights ++ [(i, prog i)] }
  | call {s : Traffic ι α} {before after : List (ι × Program α)} {i : ι} {c : Call}
    {next : c.Reply → Program α} (hflights : s.flights = before ++ (i, .ask c next) :: after) :
    Step s ⟨(s.world.answer c).2, before ++ (i, next (s.world.answer c).1) :: after,
      s.deeds ++ [⟨before.length, s.world.clock.instant, ⟨c, (s.world.answer c).1⟩⟩]⟩
  | others {s : Traffic ι α} {w : World} (hw : d.others s.world w) : Step s { s with world := w }

/-- Any number of steps. -/
abbrev Leads : Traffic ι α → Traffic ι α → Prop := Relation.ReflTransGen (Step prog d)

variable {prog d} {s s' : Traffic ι α}

theorem Leads.induct {p : Traffic ι α → Prop} (h : Leads prog d s s') (hs : p s)
    (hstep : ∀ a b, p a → Step prog d a b → p b) : p s' := by
  induction h with
  | refl => exact hs
  | tail _ hbc ih => exact hstep _ _ ih hbc

/-! ## Each program by itself -/

/-- Each program has started, is where its own calls have led it, and there are no other deeds. -/
structure Sound (prog : ι → Program α) (d : Regime ι) (s : Traffic ι α) : Prop where
  started : ∀ f ∈ s.flights, d.starts f.1
  after : ∀ i f, s.flights[i]? = some f → (prog f.1).After (s.log i) f.2
  makers : ∀ x ∈ s.deeds, x.maker < s.flights.length

theorem log_append (w : World) (flights : List (ι × Program α)) (deeds : List Deed) (x : Deed)
    (i : Nat) : log ⟨w, flights, deeds ++ [x]⟩ i =
      if x.maker = i then log ⟨w, flights, deeds⟩ i ++ [x.entry] else log ⟨w, flights, deeds⟩ i := by
  unfold log
  rw [List.filter_append, List.map_append]
  by_cases h : x.maker = i
  · simp [h]
  · simp [h]

theorem Sound.step (h : Sound prog d s) (hstep : Step prog d s s') : Sound prog d s' := by
  cases hstep with
  | @start i hi =>
    refine ⟨?_, fun j f hf => ?_, fun x hx => ?_⟩
    · intro f hf
      rcases List.mem_append.mp hf with hf | hf
      · exact h.started f hf
      · cases List.mem_singleton.mp hf
        exact hi
    · rcases Nat.lt_or_ge j s.flights.length with hj | hj
      · rw [List.getElem?_append_left hj] at hf
        exact h.after j f hf
      · -- the new program has made no call: all makers are in earlier places
        rw [List.getElem?_append_right hj, List.getElem?_singleton] at hf
        have hnone : s.log j = [] := by
          unfold log
          rw [List.map_eq_nil_iff, List.filter_eq_nil_iff]
          intro x hx
          have := h.makers x hx
          simp only [beq_iff_eq]
          omega
        split at hf
        · cases hf
          show (prog i).After (s.log j) (prog i)
          rw [hnone]
          exact Program.after_nil.mpr rfl
        · cases hf
    · have := h.makers x hx
      simp only [List.length_append]
      omega
  | @call before after i c next hflights =>
    have hmakers : ∀ x ∈ s.deeds, x.maker < (before ++ (i, Program.ask c next) :: after).length :=
      hflights ▸ h.makers
    refine ⟨?_, fun j f hf => ?_, fun x hx => ?_⟩
    · intro f hf
      have hstarted := h.started
      rw [hflights] at hstarted
      rcases List.mem_append.mp hf with hf | hf
      · exact hstarted f (List.mem_append_left _ hf)
      · rcases List.mem_cons.mp hf with rfl | hf
        · exact hstarted (i, .ask c next) (List.mem_append_right _ List.mem_cons_self)
        · exact hstarted f (List.mem_append_right _ (List.mem_cons_of_mem _ hf))
    · have hafter := h.after j
      rw [hflights] at hafter
      rw [log_append]
      rcases Nat.lt_trichotomy j before.length with hj | rfl | hj
      · rw [if_neg (by simp; omega)]
        rw [List.getElem?_append_left hj] at hf hafter
        exact hafter f hf
      · rw [if_pos rfl]
        rw [List.getElem?_append_right (Nat.le_refl _), Nat.sub_self] at hf hafter
        cases hf
        exact (hafter _ rfl).call _
      · rw [if_neg (by simp; omega)]
        obtain ⟨k, rfl⟩ := Nat.exists_eq_add_of_lt hj
        rw [List.getElem?_append_right (by omega), show before.length + k + 1 - before.length = k + 1 by
          omega, List.getElem?_cons_succ] at hf hafter
        exact hafter f hf
    · rcases List.mem_append.mp hx with hx | hx
      · have := hmakers x hx
        simp only [List.length_append, List.length_cons] at this ⊢
        exact this
      · cases List.mem_singleton.mp hx
        simp
  | others hw => exact ⟨h.started, h.after, h.makers⟩

/-- Traffic that begins with no program and no deed is sound. -/
theorem sound (hflights : s.flights = []) (hdeeds : s.deeds = []) (h : Leads prog d s s') :
    Sound prog d s' := by
  have hstart : Sound prog d s := by
    refine ⟨fun f hf => ?_, fun i f hf => ?_, fun x hx => ?_⟩
    · rw [hflights] at hf
      cases hf
    · rw [hflights] at hf
      cases hf
    · rw [hdeeds] at hx
      cases hx
  exact h.induct hstart fun a b ha hstep => ha.step hstep

theorem Sound.ends (h : Sound prog d s) {i : Nat} {a : ι} {left : Program α}
    (hget : s.flights[i]? = some (a, left)) {more : List Entry} {result : Except Failure α}
    (hleft : left.Ends more result) : (prog a).Ends (s.log i ++ more) result :=
  (h.after i _ hget).ends hleft

/-- What adds up over the calls of each program adds up to the same over all deeds. -/
theorem sum_deeds (f : Entry → Int) {n : Nat} {deeds : List Deed} (h : ∀ x ∈ deeds, x.maker < n) :
    ∑ i ∈ Finset.range n, (((deeds.filter fun x => x.maker == i).map Deed.entry).map f).sum =
      ((deeds.map Deed.entry).map f).sum := by
  induction deeds with
  | nil => simp
  | cons x rest ih =>
    have hx : x.maker ∈ Finset.range n := Finset.mem_range.mpr (h x List.mem_cons_self)
    have hcons : ∀ i, ((((x :: rest).filter fun x => x.maker == i).map Deed.entry).map f).sum =
        (if x.maker = i then f x.entry else 0) +
          (((rest.filter fun x => x.maker == i).map Deed.entry).map f).sum := by
      intro i
      by_cases hi : x.maker = i
      · rw [List.filter_cons_of_pos (by simpa using hi), if_pos hi]
        rfl
      · rw [List.filter_cons_of_neg (by simpa using hi), if_neg hi, zero_add]
    rw [Finset.sum_congr rfl fun i _ => hcons i, Finset.sum_add_distrib, Finset.sum_ite_eq,
      if_pos hx, ih fun y hy => h y (List.mem_cons_of_mem x hy)]
    rfl

/-! ## Nothing out of reach -/

/-- Nothing is out of reach, and nothing that was entered was. -/
structure Clear (s : Traffic ι α) : Prop where
  reach : s.world.outages = []
  clean : Clean (s.deeds.map Deed.entry)

theorem Clear.step (hothers : ∀ w w', d.others w w' → w'.outages = []) (h : Clear s)
    (hstep : Step prog d s s') : Clear s' := by
  cases hstep with
  | start hi => exact ⟨h.reach, h.clean⟩
  | @call before after i c next hflights =>
    refine ⟨(World.answer_outages _ _).trans h.reach, ?_⟩
    rw [List.map_append]
    exact h.clean.append (clean_answer h.reach c)
  | others hw => exact ⟨hothers _ _ hw, h.clean⟩

/-- If others put nothing out of reach, then nothing ever was. -/
theorem clear (hothers : ∀ w w', d.others w w' → w'.outages = []) (hdeeds : s.deeds = [])
    (hreach : s.world.outages = []) (h : Leads prog d s s') : Clear s' := by
  have hstart : Clear s := by
    refine ⟨hreach, ?_⟩
    rw [hdeeds]
    exact .nil
  exact h.induct hstart fun a b ha hstep => ha.step hothers hstep

theorem Clear.log (h : Clear s) (i : Nat) : Clean (s.log i) := by
  refine h.clean.of_subset fun n hn => ?_
  obtain ⟨x, hx, rfl⟩ := List.mem_map.mp hn
  exact List.mem_map_of_mem (List.mem_filter.mp hx).1

/-! ## Turns -/

/-- The program in a place makes its next call. -/
def turn (i : Nat) (s : Traffic ι α) : Traffic ι α :=
  match s.flights[i]? with
  | some (a, .ask c next) =>
    ⟨(s.world.answer c).2, s.flights.take i ++ (a, next (s.world.answer c).1) :: s.flights.drop (i + 1),
      s.deeds ++ [⟨i, s.world.clock.instant, ⟨c, (s.world.answer c).1⟩⟩]⟩
  | _ => s

/-- Programs make their next calls in a given order. -/
def play (turns : List Nat) (s : Traffic ι α) : Traffic ι α := turns.foldl (fun s i => turn i s) s

theorem leads_turn (i : Nat) (s : Traffic ι α) : Leads prog d s (turn i s) := by
  unfold turn
  split
  · next a c next hflight =>
    obtain ⟨hi, hget⟩ := List.getElem?_eq_some_iff.mp hflight
    have hsplit : s.flights = s.flights.take i ++ (a, .ask c next) :: s.flights.drop (i + 1) := by
      rw [← hget, List.getElem_cons_drop, List.take_append_drop]
    have hlength : (s.flights.take i).length = i := List.length_take_of_le (Nat.le_of_lt hi)
    have hcall : Step prog d s _ := Step.call hsplit
    rw [hlength] at hcall
    exact .single hcall
  · exact .refl

theorem leads_play (turns : List Nat) (s : Traffic ι α) : Leads prog d s (play turns s) := by
  induction turns generalizing s with
  | nil => exact .refl
  | cons i rest ih => exact (leads_turn i s).trans (ih (turn i s))

end Traffic

end TaskAutomation
