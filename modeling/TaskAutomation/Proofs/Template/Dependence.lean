import TaskAutomation.Proofs.Template.Placeholders

/-!
# What templates depend on

A template is filled in text by text, at any depth, and the names of its fields are not looked at. So two
scopes that give the same text for every placeholder in it cannot be told apart by what it becomes.

* `Template.TextOf s v` : the text is the value itself, or a text of an item or of the value of a field;
* `Template.Occurs path v` : the placeholder of the path occurs in a text of the value;
  `Template.mem_paths_iff` : these are the placeholders that are looked for;
* `Template.Alike v w` : the values differ in their texts only.
-/

namespace TaskAutomation.Template

/-- The text is the value, or one of its texts at any depth; the names of fields do not count. -/
inductive TextOf (s : String) : Value → Prop where
  | self : TextOf s (.str s)
  | item {items : List Value} {v : Value} (hmem : v ∈ items) (h : TextOf s v) : TextOf s (.list items)
  | field {fields : Fields} {key : String} {v : Value} (hmem : (key, v) ∈ fields) (h : TextOf s v) :
    TextOf s (.obj fields)

/-- The placeholder of the path occurs in a text of the value. -/
def Occurs (path : List Char) (v : Value) : Prop :=
  IsDotted path ∧ ∃ s, TextOf s v ∧ source path <:+: s.toList

/-- The values differ in their texts only: they have the same fields in the same order, lists of the same
lengths, and the same leaves that are no texts. -/
inductive Alike : Value → Value → Prop where
  | null : Alike .null .null
  | bool (b : Bool) : Alike (.bool b) (.bool b)
  | int (n : Int) : Alike (.int n) (.int n)
  | float (x : Float) : Alike (.float x) (.float x)
  | text (s t : String) : Alike (.str s) (.str t)
  | list {items items' : List Value} (h : List.Forall₂ Alike items items') :
    Alike (.list items) (.list items')
  | obj {fields fields' : Fields} (hkeys : fields.map Prod.fst = fields'.map Prod.fst)
      (h : List.Forall₂ Alike (fields.map Prod.snd) (fields'.map Prod.snd)) :
    Alike (.obj fields) (.obj fields')

variable {path : List Char}

/-! ## Texts at any depth -/

mutual

theorem mem_paths : ∀ v : Value, path ∈ paths v ↔ ∃ s, TextOf s v ∧ path ∈ placeholders s
  | .null | .bool _ | .int _ | .float _ => by
    simp only [paths]
    constructor
    · rintro ⟨⟩
    · rintro ⟨s, ⟨⟩, -⟩
  | .str s => by
    rw [paths]
    constructor
    · exact fun h => ⟨s, .self, h⟩
    · rintro ⟨_, ⟨⟩, h⟩
      exact h
  | .list items => by
    rw [paths, mem_pathsItems items]
    constructor
    · rintro ⟨v, hmem, s, htext, h⟩
      exact ⟨s, .item hmem htext, h⟩
    · rintro ⟨s, htext, h⟩
      cases htext with
      | item hmem htext => exact ⟨_, hmem, s, htext, h⟩
  | .obj fields => by
    rw [paths, mem_pathsFields fields]
    constructor
    · rintro ⟨key, v, hmem, s, htext, h⟩
      exact ⟨s, .field hmem htext, h⟩
    · rintro ⟨s, htext, h⟩
      cases htext with
      | field hmem htext => exact ⟨_, _, hmem, s, htext, h⟩

/-- `mem_paths` for items. -/
theorem mem_pathsItems : ∀ items : List Value,
    path ∈ pathsItems items ↔ ∃ v ∈ items, ∃ s, TextOf s v ∧ path ∈ placeholders s
  | [] => by simp [pathsItems]
  | v :: rest => by
    rw [pathsItems, List.mem_append, mem_paths v, mem_pathsItems rest, List.exists_mem_cons_iff]

/-- `mem_paths` for fields. -/
theorem mem_pathsFields : ∀ fields : Fields, path ∈ pathsFields fields ↔
    ∃ key v, (key, v) ∈ fields ∧ ∃ s, TextOf s v ∧ path ∈ placeholders s
  | [] => by simp [pathsFields]
  | (key, v) :: rest => by
    rw [pathsFields, List.mem_append, mem_paths v, mem_pathsFields rest]
    constructor
    · rintro (h | ⟨key', w, hmem, h⟩)
      · exact ⟨key, v, List.mem_cons_self, h⟩
      · exact ⟨key', w, List.mem_cons_of_mem _ hmem, h⟩
    · rintro ⟨key', w, hmem, h⟩
      rcases List.mem_cons.mp hmem with heq | hmem
      · cases heq
        exact .inl h
      · exact .inr ⟨key', w, hmem, h⟩

end

/-- The paths that are looked for are those of the placeholders that occur. -/
theorem mem_paths_iff {v : Value} : path ∈ paths v ↔ Occurs path v := by
  rw [mem_paths]
  constructor
  · rintro ⟨s, htext, h⟩
    obtain ⟨hdotted, hoccurs⟩ := mem_placeholders_iff.mp h
    exact ⟨hdotted, s, htext, hoccurs⟩
  · rintro ⟨hdotted, s, htext, hoccurs⟩
    exact ⟨s, htext, mem_placeholders_iff.mpr ⟨hdotted, hoccurs⟩⟩

/-! ## Shapes -/

section
variable (scope : Value)

theorem keys_interpolateFields (fields : Fields) :
    (interpolateFields scope fields).map Prod.fst = fields.map Prod.fst := by
  induction fields with
  | nil => rw [interpolateFields]
  | cons field rest ih => rw [interpolateFields, List.map_cons, List.map_cons, ih]

mutual

/-- Filling in a template changes its texts only. -/
theorem alike_interpolate : ∀ v : Value, Alike v (interpolate scope v)
  | .null => by
    simp only [interpolate]
    exact .null
  | .bool b => by
    simp only [interpolate]
    exact .bool b
  | .int n => by
    simp only [interpolate]
    exact .int n
  | .float x => by
    simp only [interpolate]
    exact .float x
  | .str s => by
    rw [interpolate]
    exact .text s _
  | .list items => by
    rw [interpolate]
    exact .list (forall₂_interpolateItems items)
  | .obj fields => by
    rw [interpolate]
    exact .obj (keys_interpolateFields scope fields).symm (forall₂_interpolateFields fields)

/-- `alike_interpolate` for items. -/
theorem forall₂_interpolateItems : ∀ items : List Value,
    List.Forall₂ Alike items (interpolateItems scope items)
  | [] => by
    rw [interpolateItems]
    exact .nil
  | v :: rest => by
    rw [interpolateItems]
    exact .cons (alike_interpolate v) (forall₂_interpolateItems rest)

/-- `alike_interpolate` for the values of fields. -/
theorem forall₂_interpolateFields : ∀ fields : Fields,
    List.Forall₂ Alike (fields.map Prod.snd) ((interpolateFields scope fields).map Prod.snd)
  | [] => by
    rw [interpolateFields]
    exact .nil
  | (_, v) :: rest => by
    rw [interpolateFields]
    exact .cons (alike_interpolate v) (forall₂_interpolateFields rest)

end

end

/-! ## Two scopes -/

/-- What a template becomes depends only on what the placeholders that occur in it are rendered as. It
keeps its shape, and where none of them leads anywhere, or there are none, it stays as it is. -/
theorem determined_by_placeholders (template : Value) :
    (∀ scope scope' : Value,
        (∀ path, Occurs path template →
          (scope.resolve path).map render = (scope'.resolve path).map render) →
        interpolate scope template = interpolate scope' template)
    ∧ (∀ scope, Alike template (interpolate scope template))
    ∧ (∀ scope : Value, (∀ path, Occurs path template → scope.resolve path = none) →
        interpolate scope template = template)
    ∧ ((∀ s, TextOf s template → hasPlaceholder s = false) →
        ∀ scope, interpolate scope template = template) := by
  have hcongr : ∀ scope scope' : Value,
      (∀ path, Occurs path template → filling scope path = filling scope' path) →
      interpolate scope template = interpolate scope' template :=
    fun scope scope' h => interpolate_congr template fun path hpath => h path (mem_paths_iff.mp hpath)
  have hnowhere : ∀ scope : Value, (∀ path, Occurs path template → scope.resolve path = none) →
      interpolate scope template = template := by
    intro scope h
    refine (hcongr scope .null fun path hpath => ?_).trans (interpolate_null template)
    rw [filling, filling, h path hpath, resolve_null]
  refine ⟨hcongr, fun scope => alike_interpolate scope template, hnowhere, fun h scope => ?_⟩
  refine hnowhere scope fun path hpath => ?_
  obtain ⟨s, htext, hmem⟩ := (mem_paths template).mp (mem_paths_iff.mpr hpath)
  have hnone := h s htext
  rw [hasPlaceholder, Bool.not_eq_false', List.isEmpty_iff] at hnone
  rw [hnone] at hmem
  cases hmem

/-- Null is rendered as the empty text is, and true as its name. -/
theorem interpolate_of_same_rendering :
    interpolate (Scope.build [("title", .null)] [("user", .bool true)])
        (.obj [("title", .str "\x7btask.title\x7d!"), ("more", .list [.int 3, .str "\x7buser\x7d"])]) =
      interpolate (Scope.build [("title", .str "")] [("user", .str "true")])
        (.obj [("title", .str "\x7btask.title\x7d!"), ("more", .list [.int 3, .str "\x7buser\x7d"])]) := by
  refine (determined_by_placeholders _).1 _ _ fun path hpath => ?_
  have hmem := mem_paths_iff.mpr hpath
  have hpaths : paths (.obj [("title", .str "\x7btask.title\x7d!"),
      ("more", .list [.int 3, .str "\x7buser\x7d"])]) = ["task.title".toList, "user".toList] := by
    decide +kernel
  rw [hpaths] at hmem
  rcases List.mem_pair.mp hmem with rfl | rfl <;> rfl

end TaskAutomation.Template
