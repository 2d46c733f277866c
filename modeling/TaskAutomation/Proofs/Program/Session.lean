import Mathlib.Logic.Relation
import TaskAutomation.Proofs.Program.Log

/-!
# Sessions

* `Flight` : a program under way, with what it is about;
* `Session` : a world, the programs under way in it, and all their calls so far, the oldest first;
* `Discipline` : which programs may start, which of them may make their next call, and how others
  may change the world;
* `Session.Step d` : one step of a session: a program starts, one of them makes its next call, or
  others change the world; `Session.Leads d` : any number of steps;
* `Session.alone i n` : a program that made some calls with no other step in between.

The calls of the programs under way come in any order.
-/

namespace TaskAutomation

/-- A program under way, with what it is about. -/
structure Flight (ι : Type) where
  about : ι
  rest : Program Unit

/-- A world, the programs under way in it, and their calls so far. -/
structure Session (ι : Type) where
  world : World
  flights : List (Flight ι) := []
  journal : List Entry := []

/-- What may happen in a session. -/
structure Discipline (ι : Type) where
  starts : World → Flight ι → Prop
  moves : World → ι → Prop
  others : World → World → Prop

namespace Session

variable {ι : Type} (d : Discipline ι)

/-- One step of a session. -/
inductive Step : Session ι → Session ι → Prop where
  | start {s : Session ι} {f : Flight ι} (hf : d.starts s.world f) :
    Step s { s with flights := s.flights ++ [f] }
  | call {s : Session ι} {before after : List (Flight ι)} {i : ι} {c : Call}
    {next : c.Reply → Program Unit} (hflights : s.flights = before ++ ⟨i, .ask c next⟩ :: after)
    (hi : d.moves s.world i) :
    Step s ⟨(s.world.answer c).2, before ++ ⟨i, next (s.world.answer c).1⟩ :: after,
      s.journal ++ [⟨c, (s.world.answer c).1⟩]⟩
  | others {s : Session ι} {w : World} (hw : d.others s.world w) : Step s { s with world := w }

/-- Any number of steps. -/
abbrev Leads : Session ι → Session ι → Prop := Relation.ReflTransGen (Step d)

/-- What holds at the start and is kept by every step holds at the end. -/
theorem Leads.induct {d : Discipline ι} {s t : Session ι} {p : Session ι → Prop} (h : Leads d s t)
    (hs : p s) (hstep : ∀ a b, p a → Step d a b → p b) : p t := by
  induction h with
  | refl => exact hs
  | tail _ hbc ih => exact hstep _ _ ih hbc

/-- A session of one program, after its next calls with no other step in between. -/
def alone (i : ι) : Nat → World → Program Unit → List Entry → Session ι
  | n + 1, w, .ask c next, journal =>
    alone i n (w.answer c).2 (next (w.answer c).1) (journal ++ [⟨c, (w.answer c).1⟩])
  | _, w, p, journal => ⟨w, [⟨i, p⟩], journal⟩

theorem leads_alone {d : Discipline ι} {i : ι} (hi : ∀ w, d.moves w i) (n : Nat) (w : World)
    (p : Program Unit) (journal : List Entry) :
    Leads d ⟨w, [⟨i, p⟩], journal⟩ (alone i n w p journal) := by
  induction n generalizing w p journal with
  | zero => cases p <;> exact .refl
  | succ n ih =>
    cases p with
    | done a => exact .refl
    | fail f => exact .refl
    | ask c next =>
      have hcall : Step d ⟨w, [⟨i, .ask c next⟩], journal⟩
          ⟨(w.answer c).2, [⟨i, next (w.answer c).1⟩], journal ++ [⟨c, (w.answer c).1⟩]⟩ :=
        @Step.call _ d _ [] [] i c next rfl (hi w)
      exact .head hcall (ih _ _ _)

end Session

end TaskAutomation
