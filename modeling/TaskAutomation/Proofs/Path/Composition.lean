import TaskAutomation.Proofs.Path
import TaskAutomation.Task

/-!
# Paths in two parts

A path that is put together with a dot leads first where its first part leads, and from there where
its second part does.

* `Value.walk_append`, `Value.resolve_append_dot` : so it is in every value;
* `Task.resolve_append_dot` : and where the task is not shown as an object first;
* `Scope.Mirrored task context q` : beside the task and the context, a path leads in the scope where it
  leads in the context; `Scope.mirrored` : so it is, whatever the names of the context's fields are;
* `Path.resolution_composes` : all of this for any two paths.
-/

namespace TaskAutomation

namespace Value

variable {path rest : List Char}

theorem walk_append (v : Value) (segs more : List (List Char)) :
    v.walk (segs ++ more) = (v.walk segs).bind fun w => w.walk more := by
  induction segs generalizing v with
  | nil => rfl
  | cons seg segs ih =>
    rw [List.cons_append, walk, walk, Option.bind_assoc]
    exact Option.bind_congr fun w _ => ih w

theorem resolve_of_ne_nil (v : Value) (h : path ≠ []) : v.resolve path = v.walk (Path.segments path) := by
  rw [resolve, if_neg (mt List.isEmpty_iff.mp h)]

/-- A path in two parts leads on from where its first part leads. -/
theorem resolve_append_dot (v : Value) (hpath : path ≠ []) (hrest : rest ≠ []) :
    v.resolve (path ++ '.' :: rest) = (v.resolve path).bind fun w => w.resolve rest := by
  rw [resolve_of_ne_nil v (List.append_ne_nil_of_left_ne_nil hpath _), Path.segments_append_dot,
    walk_append, resolve_of_ne_nil v hpath]
  exact Option.bind_congr fun w _ => (resolve_of_ne_nil w hrest).symm

/-- A path that starts with the name of a field leads on from the value of the field. -/
theorem resolve_field_dot (fields : Fields) (name : String) (hname : '.' ∉ name.toList) (hrest : rest ≠ []) :
    (Value.obj fields).resolve (name.toList ++ '.' :: rest) =
      (fields.get? name).bind fun v => v.resolve rest := by
  rw [resolve_field fields hname]
  exact Option.bind_congr fun v _ => (resolve_of_ne_nil v hrest).symm

/-- The name of a field leads to its value. -/
theorem resolve_name (fields : Fields) {name : String} (hname : '.' ∉ name.toList) (hne : name ≠ "") :
    (Value.obj fields).resolve name.toList = fields.get? name := by
  have hpath : name.toList ≠ [] := fun h => hne (String.toList_inj.mp h)
  rw [resolve_of_ne_nil _ hpath, Path.segments_of_not_mem hname, walk, step?, String.ofList_toList]
  cases fields.get? name <;> rfl

/-- Two objects that have the same under the first segment of a path have the same at the path. -/
theorem resolve_congr {fields fields' : Fields} (hpath : path ≠ [])
    (h : ∀ seg ∈ (Path.segments path).head?,
      fields.get? (String.ofList seg) = fields'.get? (String.ofList seg)) :
    (Value.obj fields).resolve path = (Value.obj fields').resolve path := by
  rw [resolve_of_ne_nil _ hpath, resolve_of_ne_nil _ hpath]
  cases hsegments : Path.segments path with
  | nil => exact absurd hsegments (Path.segments_ne_nil path)
  | cons seg segs =>
    rw [hsegments] at h
    rw [walk, walk, step?, step?, h seg rfl]

end Value

namespace Task

variable {path rest : List Char}

/-- Beside the name of its only field, a path of a single segment leads nowhere in an object. -/
theorem resolve_single {seg : List Char} (v : Value) (h : Path.segments path = [seg])
    (hpath : path ≠ "task".toList) : (Value.obj [("task", v)]).resolve path = none := by
  have hseg : path = seg := by
    rw [Path.eq_flatMap_of_segments h, List.flatMap_nil, List.append_nil]
  have hname : String.ofList seg ≠ "task" := by
    intro heq
    rw [← hseg] at heq
    exact hpath (by rw [← heq, String.toList_ofList])
  unfold Value.resolve
  split
  · rfl
  · rw [h, Value.walk, Value.step?, Fields.get?, List.lookup_cons, beq_false_of_ne hname]
    rfl

/-- In two parts, a path to the task leads on from its attributes, and any other from where its first
part leads. -/
theorem resolve_append_dot (t : Task) (hpath : path ≠ []) (hrest : rest ≠ []) :
    t.resolve (path ++ '.' :: rest) =
      if path = "task".toList then (Value.obj t.attributes).resolve rest
      else (t.resolve path).bind fun w => w.resolve rest := by
  have hjoined : t.resolve (path ++ '.' :: rest) =
      ((Value.obj [("task", .obj t.attributes)]).resolve path).bind fun w => w.resolve rest := by
    rw [← Value.resolve_append_dot _ hpath hrest]
    unfold resolve
    rw [Path.segments_append_dot]
    cases hfront : Path.segments path with
    | nil => exact absurd hfront (Path.segments_ne_nil path)
    | cons seg segs =>
      cases hback : Path.segments rest with
      | nil => exact absurd hback (Path.segments_ne_nil rest)
      | cons seg' segs' => cases segs <;> rfl
  rw [hjoined]
  split
  · next htask =>
    rw [htask, Value.resolve_name _ (by decide) (by decide)]
    rfl
  · next htask =>
    unfold resolve
    split
    · next hsingle => rw [resolve_single _ hsingle htask, resolve_single _ hsingle htask]
    · rfl

end Task

namespace Scope

/-- Of a path beside the task and the context, the scope has what the context has; the task and the
context are those that it was built of. -/
structure Mirrored (task context : Fields) (q : List Char) : Prop where
  beside : (Path.segments q).head? ≠ some "task".toList →
    (Path.segments q).head? ≠ some "context".toList →
    (build task context).resolve q = (build task context).resolve ("context.".toList ++ q)
  isTask : (build task context).resolve "task".toList = some (.obj task)
  isContext : (build task context).resolve "context".toList = some (.obj context)
  inTask : (build task context).resolve ("task.".toList ++ q) = (Value.obj task).resolve q
  inContext : (build task context).resolve ("context.".toList ++ q) = (Value.obj context).resolve q

theorem mirrored (task context : Fields) {q : List Char} (hq : q ≠ []) : Mirrored task context q := by
  have hcontext : (fields task context).get? "context" = some (.obj context) := Fields.get?_put_self _ _
  have hinContext : (build task context).resolve ("context.".toList ++ q) =
      (Value.obj context).resolve q := by
    have hresolve := Value.resolve_field_dot (fields task context) "context" (by decide) hq
    rwa [hcontext] at hresolve
  have hinTask : (build task context).resolve ("task.".toList ++ q) = (Value.obj task).resolve q := by
    have hresolve := Value.resolve_field_dot (fields task context) "task" (by decide) hq
    rwa [get?_task] at hresolve
  refine ⟨fun htask hcontext' => ?_, ?_, ?_, hinTask, hinContext⟩
  · rw [hinContext]
    refine Value.resolve_congr hq fun seg hseg => get?_beside task context ?_ ?_
    · rintro heq
      exact htask (by rw [← heq, String.toList_ofList]; exact hseg)
    · rintro heq
      exact hcontext' (by rw [← heq, String.toList_ofList]; exact hseg)
  · exact (Value.resolve_name _ (by decide) (by decide)).trans (get?_task task context)
  · exact (Value.resolve_name _ (by decide) (by decide)).trans hcontext

end Scope

namespace Path

/-- A path in two parts leads nowhere if its first part does not, and otherwise from where that leads to
where its second part leads from there; so, in the scope of any task and any context, what is under the
context is also beside it, and no field of the context stands in the way of either. -/
theorem resolution_composes {p q : List Char} (hp : p ≠ []) (hq : q ≠ []) :
    (∀ v : Value, v.resolve (p ++ '.' :: q) = (v.resolve p).bind fun w => w.resolve q) ∧
      (∀ t : Task, t.resolve (p ++ '.' :: q) =
        if p = "task".toList then (Value.obj t.attributes).resolve q
        else (t.resolve p).bind fun w => w.resolve q) ∧
      ∀ task context, Scope.Mirrored task context q :=
  ⟨fun v => v.resolve_append_dot hp hq, fun t => t.resolve_append_dot hp hq,
    fun task context => Scope.mirrored task context hq⟩

/-- A task with two tags, in a context that has a task, a context and tags of its own. -/
def taggedTask : Fields := [("tags", .list [.str "a", .str "b"])]

def rivalContext : Fields := [("task", .null), ("context", .null), ("tags", .list [.str "c"])]

/-- The last tag of the task is found in two parts, and that of the context is what is beside it. -/
theorem resolution_composes_of_tags : "task.tags".toList ≠ [] ∧ "tags.-1".toList ≠ [] ∧
    (Scope.build taggedTask rivalContext).resolve "task.tags.-1".toList = some (.str "b") ∧
    (Scope.build taggedTask rivalContext).resolve "context.tags.-1".toList = some (.str "c") ∧
    Scope.Mirrored taggedTask rivalContext "tags.-1".toList := by
  have htags : "task.tags".toList ≠ [] := by decide
  have hlast : "-1".toList ≠ [] := by decide
  have hq : "tags.-1".toList ≠ [] := by decide
  have hmirrored := (resolution_composes htags hq).2.2 taggedTask rivalContext
  refine ⟨htags, hq, ?_, hmirrored.inContext, hmirrored⟩
  exact (resolution_composes htags hlast).1 (Scope.build taggedTask rivalContext)

end Path

end TaskAutomation
