import Mathlib.Data.List.Basic
import TaskAutomation.Template
import TaskAutomation.Proofs.Path

/-!
# Filling in templates

* `Template.paths v` : the paths of the placeholders in the texts of a value, at any depth;
* `Template.filling scope path` : what a placeholder is filled in with; `Template.interpolate_congr` : a
  template depends on the scope only through the fillings of its paths;
* `Template.interpolate_null` : with nothing to fill in, a value stays as it is, and so it does
  where it has no placeholders (`Template.interpolateFields_of_not_mentions`).
-/

namespace TaskAutomation.Template

/-! ## Texts -/

/-- A placeholder is read up to its closing brace. -/
theorem placeholderAt?_eq_some {cs path : List Char} (h : placeholderAt? cs = some path) :
    path ++ '\x7d' :: cs.drop (path.length + 1) = cs := by
  unfold placeholderAt? at h
  dsimp only at h
  split at h
  · next hclose =>
    split at h
    · cases h
      have hsplit := List.prefix_iff_eq_append.mp (List.takeWhile_prefix (l := cs) isPathChar)
      generalize cs.takeWhile isPathChar = path at hsplit hclose ⊢
      cases hrest : cs.drop path.length with
      | nil =>
        rw [hrest] at hclose
        cases hclose
      | cons c rest =>
        rw [hrest] at hclose
        have hc : c = '\x7d' := Option.some.inj (eq_of_beq hclose)
        rw [← List.drop_drop, hrest, ← hc]
        rw [hrest] at hsplit
        exact hsplit
    · cases h
  · cases h

/-- With nothing to fill in, a text stays as it is. -/
theorem fill_none (cs : List Char) : fill (fun _ => none) cs = cs := by
  unfold fill
  induction cs using pieces.induct with
  | case1 => rw [pieces, List.flatMap_nil]
  | case2 c rest hc path hpath ih =>
    rw [pieces, if_pos hc, hpath]
    dsimp only
    rw [List.flatMap_cons, ih, fillPiece, source, eq_of_beq hc, List.cons_append, List.cons_append,
      List.append_assoc]
    exact congrArg (List.cons _) (placeholderAt?_eq_some hpath)
  | case3 c rest hc hpath ih =>
    rw [pieces, if_pos hc, hpath]
    exact congrArg (List.cons c) ih
  | case4 c rest hc ih =>
    rw [pieces, if_neg hc]
    exact congrArg (List.cons c) ih

theorem mem_placeholders {s : String} {path : List Char} :
    path ∈ placeholders s ↔ .placeholder path ∈ pieces s.toList := by
  unfold placeholders
  rw [List.mem_filterMap]
  constructor
  · rintro ⟨c | path', hmem, heq⟩
    · cases heq
    · cases heq
      exact hmem
  · intro hmem
    exact ⟨_, hmem, rfl⟩

/-- What the placeholder of a path is filled in with, if the path leads anywhere. -/
def filling (scope : Value) (path : List Char) : Option String := (scope.resolve path).map render

theorem fillPiece_placeholder (scope : Value) (path : List Char) :
    fillPiece scope.resolve (.placeholder path) =
      ((filling scope path).map String.toList).getD (source path) := by
  rw [fillPiece, filling]
  cases scope.resolve path <;> rfl

/-- A text depends on the scope only through what its placeholders are filled in with. -/
theorem fillText_congr {scope scope' : Value} {s : String}
    (h : ∀ path ∈ placeholders s, filling scope path = filling scope' path) :
    fillText scope s = fillText scope' s := by
  unfold fillText fill
  refine congrArg String.ofList (List.flatMap_congr fun piece hpiece => ?_)
  cases piece with
  | char c => rfl
  | placeholder path =>
    rw [fillPiece_placeholder, fillPiece_placeholder, h path (mem_placeholders.mpr hpiece)]

/-- There is nothing below null. -/
theorem resolve_null (path : List Char) : Value.null.resolve path = none := by
  unfold Value.resolve
  split
  · rfl
  · cases hsegments : Path.segments path with
    | nil => exact absurd hsegments (Path.segments_ne_nil path)
    | cons seg segs => rfl

theorem fillText_null (s : String) : fillText .null s = s := by
  have hlook : Value.null.resolve = fun _ => none := funext resolve_null
  rw [fillText, hlook, fill_none, String.ofList_toList]

/-! ## Values -/

mutual

/-- The paths of the placeholders in the texts of a value. -/
def paths : Value → List (List Char)
  | .str s => placeholders s
  | .list items => pathsItems items
  | .obj fields => pathsFields fields
  | _ => []

/-- The paths of the placeholders in the texts of some items. -/
def pathsItems : List Value → List (List Char)
  | [] => []
  | v :: rest => paths v ++ pathsItems rest

/-- The paths of the placeholders in the texts of some fields. -/
def pathsFields : List (String × Value) → List (List Char)
  | [] => []
  | (_, v) :: rest => paths v ++ pathsFields rest

end

section

variable {scope scope' : Value}

mutual

/-- A value depends on the scope only through what its placeholders are filled in with. -/
theorem interpolate_congr : ∀ v : Value,
    (∀ path ∈ paths v, filling scope path = filling scope' path) →
    interpolate scope v = interpolate scope' v
  | .null, _ | .bool _, _ | .int _, _ | .float _, _ => by simp only [interpolate]
  | .str s, h => by
    rw [paths] at h
    rw [interpolate, interpolate, fillText_congr h]
  | .list items, h => by
    rw [paths] at h
    rw [interpolate, interpolate, interpolateItems_congr items h]
  | .obj fields, h => by
    rw [paths] at h
    rw [interpolate, interpolate, interpolateFields_congr fields h]

/-- `interpolate_congr` for items. -/
theorem interpolateItems_congr : ∀ items : List Value,
    (∀ path ∈ pathsItems items, filling scope path = filling scope' path) →
    interpolateItems scope items = interpolateItems scope' items
  | [], _ => by rw [interpolateItems, interpolateItems]
  | v :: rest, h => by
    rw [pathsItems] at h
    rw [interpolateItems, interpolateItems, interpolate_congr v fun path hpath =>
      h path (List.mem_append_left _ hpath), interpolateItems_congr rest fun path hpath =>
      h path (List.mem_append_right _ hpath)]

/-- `interpolate_congr` for fields. -/
theorem interpolateFields_congr : ∀ fields : List (String × Value),
    (∀ path ∈ pathsFields fields, filling scope path = filling scope' path) →
    interpolateFields scope fields = interpolateFields scope' fields
  | [], _ => by rw [interpolateFields, interpolateFields]
  | (k, v) :: rest, h => by
    rw [pathsFields] at h
    rw [interpolateFields, interpolateFields, interpolate_congr v fun path hpath =>
      h path (List.mem_append_left _ hpath), interpolateFields_congr rest fun path hpath =>
      h path (List.mem_append_right _ hpath)]

end

end

mutual

/-- With nothing to fill in, a value stays as it is. -/
theorem interpolate_null : ∀ v : Value, interpolate .null v = v
  | .null | .bool _ | .int _ | .float _ => by simp only [interpolate]
  | .str s => by rw [interpolate, fillText_null]
  | .list items => by rw [interpolate, interpolateItems_null items]
  | .obj fields => by rw [interpolate, interpolateFields_null fields]

/-- `interpolate_null` for items. -/
theorem interpolateItems_null : ∀ items : List Value, interpolateItems .null items = items
  | [] => by rw [interpolateItems]
  | v :: rest => by rw [interpolateItems, interpolate_null v, interpolateItems_null rest]

/-- `interpolate_null` for fields. -/
theorem interpolateFields_null :
    ∀ fields : List (String × Value), interpolateFields .null fields = fields
  | [] => by rw [interpolateFields]
  | (k, v) :: rest => by rw [interpolateFields, interpolate_null v, interpolateFields_null rest]

end

mutual

theorem paths_of_not_mentions : ∀ v : Value, mentions v = false → paths v = []
  | .null, _ | .bool _, _ | .int _, _ | .float _, _ => by simp only [paths]
  | .str s, h => by
    rw [mentions, hasPlaceholder, Bool.not_eq_false'] at h
    rw [paths, List.isEmpty_iff.mp h]
  | .list items, h => by
    rw [mentions] at h
    rw [paths, pathsItems_of_not_mentions items h]
  | .obj fields, h => by
    rw [mentions] at h
    rw [paths, pathsFields_of_not_mentions fields h]

/-- `paths_of_not_mentions` for items. -/
theorem pathsItems_of_not_mentions :
    ∀ items : List Value, mentionsItems items = false → pathsItems items = []
  | [], _ => by rw [pathsItems]
  | v :: rest, h => by
    rw [mentionsItems, Bool.or_eq_false_iff] at h
    rw [pathsItems, paths_of_not_mentions v h.1, pathsItems_of_not_mentions rest h.2, List.nil_append]

/-- `paths_of_not_mentions` for fields. -/
theorem pathsFields_of_not_mentions :
    ∀ fields : List (String × Value), mentionsFields fields = false → pathsFields fields = []
  | [], _ => by rw [pathsFields]
  | (k, v) :: rest, h => by
    rw [mentionsFields, Bool.or_eq_false_iff] at h
    rw [pathsFields, paths_of_not_mentions v h.1, pathsFields_of_not_mentions rest h.2,
      List.nil_append]

end

/-- Fields are filled in one by one. -/
theorem get?_interpolateFields (scope : Value) (fields : Fields) (name : String) :
    Fields.get? (interpolateFields scope fields) name = (fields.get? name).map (interpolate scope) := by
  induction fields with
  | nil =>
    rw [interpolateFields]
    rfl
  | cons field rest ih =>
    rw [interpolateFields, Fields.get?_cons, Fields.get?_cons, ih]
    split <;> rfl

/-- Without placeholders, a text stays as it is. -/
theorem interpolate_of_not_hasPlaceholder (scope : Value) {s : String} (h : hasPlaceholder s = false) :
    interpolate scope (.str s) = .str s := by
  have hpaths : paths (.str s) = [] := paths_of_not_mentions (.str s) (by rw [mentions, h])
  refine (interpolate_congr _ fun path hpath => ?_).trans (interpolate_null _)
  rw [hpaths] at hpath
  cases hpath

/-- Without placeholders, there are none in the value of a field. -/
theorem mentions_of_get? {fields : Fields} {name : String} {v : Value}
    (h : mentionsFields fields = false) (hv : fields.get? name = some v) : mentions v = false := by
  induction fields with
  | nil => cases hv
  | cons field rest ih =>
    obtain ⟨k, w⟩ := field
    rw [mentionsFields, Bool.or_eq_false_iff] at h
    unfold Fields.get? at hv
    rw [List.lookup_cons] at hv
    split at hv
    · cases hv
      exact h.1
    · exact ih h.2 hv

/-- Without placeholders, fields stay as they are. -/
theorem interpolateFields_of_not_mentions (scope : Value) {fields : List (String × Value)}
    (h : mentionsFields fields = false) : interpolateFields scope fields = fields := by
  have hpaths := pathsFields_of_not_mentions fields h
  refine (interpolateFields_congr fields fun path hpath => ?_).trans (interpolateFields_null fields)
  rw [hpaths] at hpath
  cases hpath

end TaskAutomation.Template
