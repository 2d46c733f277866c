import TaskAutomation.Proofs.Calendar.Stamp
import TaskAutomation.Proofs.Rule
import TaskAutomation.Proofs.Scan.Days

/-!
# The text of a day

* `append_cons_inj`, `concat_append_inj` : a text is split in one way only at the first, and at the
  last, of a character;
* `Moment.dateText_injective` : dates differ in their texts;
* `DayRun.key_injective` : days of rules whose ids hold no colon differ in their texts, whatever the
  ids of their tasks hold.
-/

namespace TaskAutomation

/-! ## Splitting -/

/-- A list is split in one way only at the first of an item. -/
theorem append_cons_inj {α : Type} {c : α} {xs xs' ys ys' : List α} (hx : c ∉ xs) (hx' : c ∉ xs')
    (h : xs ++ c :: ys = xs' ++ c :: ys') : xs = xs' ∧ ys = ys' := by
  induction xs generalizing xs' with
  | nil => cases xs' with
    | nil => exact ⟨rfl, (List.cons.inj h).2⟩
    | cons a rest =>
      obtain ⟨rfl, -⟩ := List.cons.inj h
      exact absurd List.mem_cons_self hx'
  | cons a rest ih => cases xs' with
    | nil =>
      obtain ⟨rfl, -⟩ := List.cons.inj h
      exact absurd List.mem_cons_self hx
    | cons b rest' =>
      obtain ⟨rfl, htail⟩ := List.cons.inj h
      obtain ⟨rfl, hys⟩ := ih (fun hc => hx (List.mem_cons_of_mem a hc))
        (fun hc => hx' (List.mem_cons_of_mem a hc)) htail
      exact ⟨rfl, hys⟩

/-- A list is split in one way only at the last of an item. -/
theorem concat_append_inj {α : Type} {c : α} {xs xs' ys ys' : List α} (hy : c ∉ ys) (hy' : c ∉ ys')
    (h : xs ++ c :: ys = xs' ++ c :: ys') : xs = xs' ∧ ys = ys' := by
  have hreverse := congrArg List.reverse h
  simp only [List.reverse_append, List.reverse_cons, List.append_assoc, List.singleton_append]
    at hreverse
  obtain ⟨hys, hxs⟩ := append_cons_inj (by simpa using hy) (by simpa using hy') hreverse
  exact ⟨List.reverse_injective hxs, List.reverse_injective hys⟩

/-! ## Dates -/

theorem Moment.not_mem_digits {width n : Nat} {c : Char} (hc : c.isDigit = false) :
    c ∉ (digits width n).toList := by
  intro hmem
  rw [isDigit_of_mem_digits hmem] at hc
  cases hc

theorem Moment.toList_dateText (d : Date) : (dateText d).toList =
    (digits 4 d.year).toList ++ '-' :: ((digits 2 d.month).toList ++ '-' :: (digits 2 d.day).toList) := by
  simp [dateText]

theorem Moment.dateText_injective {d d' : Date} (h : dateText d = dateText d') : d = d' := by
  have hlist := congrArg String.toList h
  rw [toList_dateText, toList_dateText] at hlist
  obtain ⟨hyear, hrest⟩ := append_cons_inj (not_mem_digits rfl) (not_mem_digits rfl) hlist
  obtain ⟨hmonth, hday⟩ := append_cons_inj (not_mem_digits rfl) (not_mem_digits rfl) hrest
  have hy := digits_injective (String.toList_inj.mp hyear)
  have hm := digits_injective (String.toList_inj.mp hmonth)
  have hd := digits_injective (String.toList_inj.mp hday)
  cases d
  cases d'
  simp_all

theorem Moment.colon_not_mem_dateText (d : Date) : ':' ∉ (dateText d).toList := by
  rw [toList_dateText]
  simp only [List.mem_append, List.mem_cons, not_or]
  exact ⟨not_mem_digits rfl, by decide, not_mem_digits rfl, by decide, not_mem_digits rfl⟩

/-! ## Days -/

theorem Trigger.colon_not_mem_name (t : Trigger) : ':' ∉ t.name.toList := by
  cases t <;> decide

theorem DayRun.toList_key (d : DayRun) : d.key.toList = d.ruleId.toList ++ ':' ::
    (d.taskId.toList ++ ':' :: (d.event.name.toList ++ ':' :: (Moment.dateText d.date).toList)) := by
  simp [key]

/-- Days of rules whose ids hold no colon differ in their texts. -/
theorem DayRun.key_injective {d d' : DayRun} (hd : ':' ∉ d.ruleId.toList)
    (hd' : ':' ∉ d'.ruleId.toList) (h : d.key = d'.key) : d = d' := by
  have hlist := congrArg String.toList h
  rw [toList_key, toList_key] at hlist
  obtain ⟨hrule, hrest⟩ := append_cons_inj hd hd' hlist
  -- the id of the task may hold colons, so the rest is read from its end
  have hassoc : ∀ xs ys zs : List Char,
      xs ++ ':' :: (ys ++ ':' :: zs) = (xs ++ ':' :: ys) ++ ':' :: zs := by simp
  rw [hassoc, hassoc] at hrest
  obtain ⟨hfront, hdate⟩ := concat_append_inj (Moment.colon_not_mem_dateText _)
    (Moment.colon_not_mem_dateText _) hrest
  obtain ⟨htask, hevent⟩ := concat_append_inj (Trigger.colon_not_mem_name _)
    (Trigger.colon_not_mem_name _) hfront
  have hr := String.toList_inj.mp hrule
  have ht := String.toList_inj.mp htask
  have he := Trigger.name_injective (String.toList_inj.mp hevent)
  have hd := Moment.dateText_injective (String.toList_inj.mp hdate)
  cases d
  cases d'
  simp_all

end TaskAutomation
