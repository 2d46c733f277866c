import TaskAutomation.Scope
import TaskAutomation.Proofs.Value.Fields

/-!
# Where paths lead

* `Path.segments_append_dot` : the segments on both sides of a dot; `Path.segments_flatMap`,
  `Path.eq_flatMap_of_segments` : a path is its segments with dots between them;
* `Value.resolve_field` : a path that starts with the name of a field leads on from its value;
* `Value.Inherited` : what lists hand on to their items, and objects to their fields;
  `Value.Inherited.resolve` : it is handed on to all that a path leads to;
* `Scope.get?_task`, `Scope.get?_beside` : the fields of a scope.
-/

namespace TaskAutomation

namespace Path

/-- A path has a first segment. -/
theorem segments_ne_nil (path : List Char) : segments path ≠ [] := by
  cases path with
  | nil => exact List.cons_ne_nil _ _
  | cons c rest =>
    unfold segments
    split
    · exact List.cons_ne_nil _ _
    · split <;> exact List.cons_ne_nil _ _

/-- The segments of two paths with a dot between them. -/
theorem segments_append_dot (path rest : List Char) :
    segments (path ++ '.' :: rest) = segments path ++ segments rest := by
  induction path with
  | nil => rfl
  | cons c path ih =>
    rw [List.cons_append, segments, segments]
    by_cases hdot : (c == '.') = true
    · rw [if_pos hdot, if_pos hdot, ih, List.cons_append]
    · rw [if_neg hdot, if_neg hdot, ih]
      cases hsegments : segments path with
      | nil => exact absurd hsegments (segments_ne_nil path)
      | cons seg segs => rfl

/-- A path without dots is its only segment. -/
theorem segments_of_not_mem {name : List Char} (h : '.' ∉ name) : segments name = [name] := by
  induction name with
  | nil => rfl
  | cons c name ih =>
    rw [List.mem_cons, not_or] at h
    rw [segments, if_neg fun heq => h.1 (eq_of_beq heq).symm, ih h.2]

/-- Names without dots, with a dot in front of each but the first, are the segments of their path. -/
theorem segments_flatMap {name : List Char} {names : List (List Char)} (hname : '.' ∉ name)
    (hnames : ∀ n ∈ names, '.' ∉ n) :
    segments (name ++ names.flatMap ('.' :: ·)) = name :: names := by
  induction names generalizing name with
  | nil => rw [List.flatMap_nil, List.append_nil, segments_of_not_mem hname]
  | cons n names ih =>
    have hrest := ih (hnames n List.mem_cons_self) fun m hm => hnames m (List.mem_cons_of_mem n hm)
    rw [List.flatMap_cons, List.cons_append, segments_append_dot, segments_of_not_mem hname, hrest,
      List.singleton_append]

/-- A path is its segments, with a dot in front of each but the first. -/
theorem eq_flatMap_of_segments {path name : List Char} {names : List (List Char)}
    (h : segments path = name :: names) : path = name ++ names.flatMap ('.' :: ·) := by
  induction path generalizing name names with
  | nil =>
    cases h
    rfl
  | cons c path ih =>
    rw [segments] at h
    split at h
    · next hdot =>
      cases h
      cases hsegments : segments path with
      | nil => exact absurd hsegments (segments_ne_nil path)
      | cons seg segs =>
        rw [eq_of_beq hdot, ih hsegments, List.nil_append, List.flatMap_cons, List.cons_append]
    · split at h
      · next seg segs hsegments =>
        cases h
        rw [ih hsegments, List.cons_append]
      · next hsegments => exact absurd hsegments (segments_ne_nil path)

/-- The characters of a segment are characters of the path, and none of them is a dot. -/
theorem mem_of_mem_segments {path seg : List Char} {c : Char} (hseg : seg ∈ segments path)
    (hc : c ∈ seg) : c ∈ path ∧ c ≠ '.' := by
  induction path generalizing seg with
  | nil =>
    obtain rfl := List.mem_singleton.mp hseg
    cases hc
  | cons d path ih =>
    rw [segments] at hseg
    split at hseg
    · rcases List.mem_cons.mp hseg with rfl | hseg
      · cases hc
      · exact (ih hseg hc).imp_left (List.mem_cons_of_mem d)
    · next hdot =>
      split at hseg
      · next first segs hsegments =>
        rw [hsegments] at ih
        rcases List.mem_cons.mp hseg with rfl | hseg
        · rcases List.mem_cons.mp hc with rfl | hc
          · exact ⟨List.mem_cons_self, fun heq => hdot (by rw [heq]; rfl)⟩
          · exact (ih List.mem_cons_self hc).imp_left (List.mem_cons_of_mem d)
        · exact (ih (List.mem_cons_of_mem first hseg) hc).imp_left (List.mem_cons_of_mem d)
      · next hsegments => exact absurd hsegments (segments_ne_nil path)

end Path

namespace Value

/-- A path that starts with the name of a field leads on from the value of the field. -/
theorem resolve_field (fields : Fields) {name : String} (hname : '.' ∉ name.toList)
    (rest : List Char) : (Value.obj fields).resolve (name.toList ++ '.' :: rest) =
      (fields.get? name).bind fun v => v.walk (Path.segments rest) := by
  have hpath : (name.toList ++ '.' :: rest).isEmpty = false := by
    cases name.toList <;> rfl
  rw [resolve, hpath, if_neg Bool.false_ne_true, Path.segments_append_dot,
    Path.segments_of_not_mem hname, List.singleton_append, walk, step?, String.ofList_toList]

/-- Lists hand the property on to their items, and objects to the values of their fields. -/
structure Inherited (P : Value → Prop) : Prop where
  item : ∀ {items : List Value} {v : Value}, P (.list items) → v ∈ items → P v
  field : ∀ {fields : Fields} {key : String} {v : Value}, P (.obj fields) → (key, v) ∈ fields → P v

namespace Inherited
variable {P : Value → Prop} (hP : Inherited P) {v w : Value}
include hP

theorem step {seg : List Char} (h : P v) (hstep : v.step? seg = some w) : P w := by
  cases v with
  | obj fields => exact hP.field h (Fields.mem_of_get? hstep)
  | list items =>
    obtain ⟨i, -, hitem⟩ := Option.bind_eq_some_iff.mp hstep
    unfold item? at hitem
    split at hitem
    · exact hP.item h (List.mem_of_getElem? hitem)
    · split at hitem
      · exact hP.item h (List.mem_of_getElem? hitem)
      · cases hitem
  | _ => cases hstep

theorem walk {segs : List (List Char)} (h : P v) (hwalk : v.walk segs = some w) : P w := by
  induction segs generalizing v with
  | nil =>
    cases hwalk
    exact h
  | cons seg segs ih =>
    obtain ⟨next, hstep, hrest⟩ := Option.bind_eq_some_iff.mp hwalk
    exact ih (hP.step h hstep) hrest

/-- What a path leads to has what is handed on. -/
theorem resolve {path : List Char} (h : P v) (hresolve : v.resolve path = some w) : P w := by
  unfold Value.resolve at hresolve
  split at hresolve
  · cases hresolve
  · exact hP.walk h hresolve

end Inherited

end Value

namespace Scope
variable (task context : Fields)

theorem get?_task : (fields task context).get? "task" = some (.obj task) := by
  rw [fields, Fields.get?_put_ne _ _ (by decide), Fields.get?_put_self]

/-- Beside the task and the context, a scope has the fields of the context. -/
theorem get?_beside {name : String} (htask : name ≠ "task") (hcontext : name ≠ "context") :
    (fields task context).get? name = context.get? name := by
  rw [fields, Fields.get?_put_ne _ _ hcontext, Fields.get?_put_ne _ _ htask]

end Scope

end TaskAutomation
