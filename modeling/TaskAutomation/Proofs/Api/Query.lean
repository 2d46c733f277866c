import Mathlib.Data.List.Nodup
import TaskAutomation.Api.Service
import TaskAutomation.Proofs.Check.Numeral
import TaskAutomation.Proofs.Execution
import TaskAutomation.Proofs.Rule
import TaskAutomation.Proofs.Value.Fields

/-!
# Queries

A query gives some names values. Each name is written once.

* `Target.given names` : the query that gives the names that have a value; `Target.optional_given`,
  `Target.required_given` : a field of it is read from the value of its name;
* `Page.Offered p` : the pages that a query can ask for; `Page.ofFields_given` : it is read from the digits of its
  number and size; `Page.bounds_of_ofFields` : no other page is read;
* `RuleFilter.names`, `RuleFilter.ofFields_given` : a filter on rules is read from the texts of its parts.
-/

namespace TaskAutomation.Api

open Check

/-! ## Fields of a query -/

namespace Target

/-- The query that gives the names that have a value. -/
def given (names : List (String × Option String)) : List (String × String) :=
  names.filterMap fun (name, value) => value.map fun text => (name, text)

variable {names : List (String × Option String)} {name : String} {value : Option String}

theorem mem_given {text : String} : (name, text) ∈ given names ↔ (name, some text) ∈ names := by
  unfold given
  rw [List.mem_filterMap]
  constructor
  · rintro ⟨⟨other, value⟩, hmem, hvalue⟩
    obtain ⟨t, rfl, heq⟩ := Option.map_eq_some_iff.mp hvalue
    cases heq
    exact hmem
  · intro hmem
    exact ⟨(name, some text), hmem, rfl⟩

theorem map_fst_given_sublist (names : List (String × Option String)) :
    ((given names).map Prod.fst).Sublist (names.map Prod.fst) := by
  induction names with
  | nil => exact List.Sublist.slnil
  | cons field rest ih =>
    obtain ⟨name, _ | text⟩ := field
    · exact ih.cons name
    · exact ih.cons_cons name

/-- A name has the value that it is given, if any. -/
theorem get?_given (segments : List String) (honce : (names.map Prod.fst).Nodup)
    (hmem : (name, value) ∈ names) : (Target.fields ⟨segments, given names⟩).get? name = value.map .str := by
  unfold fields
  rw [Fields.get?_ofList]
  ext v
  rw [Fields.get?_eq_some_iff, List.mem_reverse, List.mem_map, Option.map_eq_some_iff]
  · constructor
    · rintro ⟨⟨k, text⟩, htext, heq⟩
      cases heq
      have hsame := List.inj_on_of_nodup_map honce hmem (mem_given.mp htext) rfl
      cases hsame
      exact ⟨text, rfl, rfl⟩
    · rintro ⟨text, rfl, rfl⟩
      exact ⟨(name, text), mem_given.mpr hmem, rfl⟩
  · rw [List.map_reverse, List.nodup_reverse, List.map_map]
    exact honce.sublist (map_fst_given_sublist names)

variable {α : Type} {segments : List String} {s : Setting} {check : Checker α} {a absent : α}

/-- A field that may be absent is read from the value of its name. -/
theorem optional_given (honce : (names.map Prod.fst).Nodup) (hmem : (name, value) ∈ names)
    (habsent : value = none → a = absent) (hgiven : ∀ text ∈ value, check s (.str text) = .ok a) :
    optional s (Target.fields ⟨segments, given names⟩) name absent check = .ok a := by
  have hfield := get?_given segments honce hmem
  cases value with
  | none =>
    unfold Check.optional
    rw [hfield, habsent rfl]
    rfl
  | some text => exact optional_of_get? hfield (hgiven text rfl)

/-- A value that a listing may be narrowed to is read from its text. -/
theorem optional_narrowing {β : Type} {read : Checker β} {x : Option β} (show' : β → String)
    (honce : (names.map Prod.fst).Nodup) (hmem : (name, x.map show') ∈ names)
    (hread : ∀ b, read s (.str (show' b)) = .ok b) :
    optional s (Target.fields ⟨segments, given names⟩) name none
      (fun s v => (read s v).map some) = .ok x := by
  cases x with
  | none => exact optional_given honce hmem (fun _ => rfl) nofun
  | some b =>
    refine optional_given honce hmem nofun ?_
    rintro _ ⟨⟩
    exact congrArg (Checked.map some) (hread b)

theorem required_given {text : String} (honce : (names.map Prod.fst).Nodup)
    (hmem : (name, some text) ∈ names) (ha : check s (.str text) = .ok a) :
    required s (Target.fields ⟨segments, given names⟩) name check = .ok a :=
  required_of_get? (get?_given _ honce hmem) ha

end Target

/-! ## Pages -/

namespace Page

variable {p : Page} {s : Setting} {f : Fields}

/-- The pages that a query can ask for: a numeral has at most so many digits. -/
structure Offered (p : Page) : Prop where
  number : 1 ≤ p.number
  numeral : p.number.toNat < 10 ^ Decimal.maxDigits
  size : 1 ≤ p.size
  most : p.size ≤ 100

/-- The number and the size of the page, in digits. -/
def names (p : Page) : List (String × Option String) :=
  [("page", some (toString p.number.toNat)), ("page_size", some (toString p.size.toNat))]

theorem ofFields_given {segments : List String} {more : List (String × Option String)}
    (h : p.Offered) (honce : ((p.names ++ more).map Prod.fst).Nodup) :
    ofFields s (Target.fields ⟨segments, Target.given (p.names ++ more)⟩) = .ok p := by
  obtain ⟨number, size⟩ := p
  obtain ⟨hnumber, hnumeral, hsize, hmost⟩ := h
  dsimp only at hnumber hnumeral hsize hmost
  obtain ⟨n, rfl⟩ := Int.eq_ofNat_of_zero_le (show 0 ≤ number by omega)
  obtain ⟨k, rfl⟩ := Int.eq_ofNat_of_zero_le (show 0 ≤ size by omega)
  have hk : k < 10 ^ Decimal.maxDigits :=
    lt_of_lt_of_le (show k < 10 ^ 3 by omega) (Nat.pow_le_pow_right (by decide) (by decide))
  have hpage : optional s (Target.fields ⟨segments, Target.given (names ⟨n, k⟩ ++ more)⟩) "page" 1
      (boundedInteger { least := some 1 }) = .ok (n : Int) := by
    refine Target.optional_given honce List.mem_cons_self nofun ?_
    rintro _ ⟨⟩
    refine boundedInteger_toString (n := n) (by omega) hnumeral ?_
    rw [broken?_least, if_pos hnumber]
  have hpageSize : optional s (Target.fields ⟨segments, Target.given (names ⟨n, k⟩ ++ more)⟩)
      "page_size" 20 (boundedInteger { least := some 1, most := some 100 }) = .ok (k : Int) := by
    refine Target.optional_given honce (List.mem_cons_of_mem _ List.mem_cons_self) nofun ?_
    rintro _ ⟨⟩
    exact boundedInteger_toString (n := k) (by omega) hk (broken?_between.mpr ⟨hsize, hmost⟩)
  unfold ofFields
  rw [hpage, hpageSize]
  rfl

/-- A page that is read has a number and a size within bounds. -/
theorem bounds_of_ofFields (h : ofFields s f = .ok p) :
    1 ≤ p.number ∧ 1 ≤ p.size ∧ p.size ≤ 100 := by
  obtain ⟨_, size, h₁, hsize, rfl⟩ := Checked.seq_eq_ok.mp h
  obtain ⟨number, hnumber, rfl⟩ := Checked.map_eq_ok.mp h₁
  have hleast : 1 ≤ number := by
    rcases optional_eq_ok hnumber with rfl | ⟨v, hv⟩
    · decide
    · exact le_of_boundedInteger hv
  refine ⟨hleast, ?_⟩
  rcases optional_eq_ok hsize with rfl | ⟨v, hv⟩
  · show (1 : Int) ≤ 20 ∧ (20 : Int) ≤ 100
    decide
  · exact broken?_between.mp (broken?_of_boundedInteger hv)

end Page

/-! ## What is asked for -/

namespace Service

variable {p : Page} {s : Setting}

namespace RuleFilter

/-- The page and the texts of the parts that are given. -/
def names (x : RuleFilter) : List (String × Option String) :=
  x.page.names ++ [("user_id", x.userId.map id), ("trigger", x.trigger.map Trigger.name),
    ("is_active", x.isActive.map toString), ("name_contains", x.nameContains.map id)]

theorem ofFields_given {x : RuleFilter} {segments : List String} (h : x.page.Offered) :
    ofFields s (Target.fields ⟨segments, Target.given x.names⟩) = .ok x := by
  have honce : (x.names.map Prod.fst).Nodup := by
    show ["page", "page_size", "user_id", "trigger", "is_active", "name_contains"].Nodup
    decide
  let f := Target.fields ⟨segments, Target.given x.names⟩
  have huser : optional s f "user_id" none (fun s v => (text s v).map some) = .ok x.userId :=
    Target.optional_narrowing id honce (by simp [names]) fun _ => rfl
  have htrigger : optional s f "trigger" none (fun s v => (Trigger.check s v).map some) = .ok x.trigger :=
    Target.optional_narrowing Trigger.name honce (by simp [names]) (Rule.trigger_check s)
  have hactive : optional s f "is_active" none (fun s v => (boolean s v).map some) = .ok x.isActive :=
    Target.optional_narrowing toString honce (by simp [names]) (by rintro (_ | _) <;> rfl)
  have hname : optional s f "name_contains" none (fun s v => (text s v).map some) = .ok x.nameContains :=
    Target.optional_narrowing id honce (by simp [names]) fun _ => rfl
  have hpage : Page.ofFields s f = .ok x.page := Page.ofFields_given h honce
  unfold ofFields
  rw [hpage, huser, htrigger, hactive, hname]
  rfl

end RuleFilter

end Service

end TaskAutomation.Api
