import TaskAutomation.Path

/-!
# The scope of conditions and templates

* `Scope.build task context` : an object with the task under `task`, the context under `context`,
  and every field of the context beside them; the real task and context win over fields of these
  names.
-/

namespace TaskAutomation.Scope

/-- The fields of a scope. -/
def fields (task context : Fields) : Fields :=
  (context.put "task" (.obj task)).put "context" (.obj context)

/-- The scope of a task and a context. -/
def build (task context : Fields) : Value := .obj (fields task context)

end TaskAutomation.Scope
