import TaskAutomation.Proofs.Template

/-!
# Placeholders in texts

Between the braces of a placeholder there is no other brace. So no two placeholders overlap, and a text
that is cut behind a closing brace or in front of an opening one is not cut inside a placeholder.

* `Template.IsDotted path` : what may stand between the braces; `Template.placeholderAt?_eq_some_iff` : the
  search behind an opening brace finds just that;
* `Template.Scans cs ps` : a text read from left to right, a placeholder wherever one starts, and otherwise
  the next character; `Template.scans_iff` : these are the pieces of the text;
* `Template.Scans.append` : texts that meet at a brace are read one after the other;
  `Template.mem_placeholders_iff` : the placeholders of a text are all that occur in it;
* `Template.single_pass` : what becomes of texts when they are filled in.
-/

namespace TaskAutomation.Template

/-! ## Paths -/

/-- What may stand between the braces of a placeholder: an ASCII letter or an underscore, then word
characters, and then any number of words with a dot in front of each. -/
def IsDotted (path : List Char) : Prop :=
  ∃ (c : Char) (name : List Char) (names : List (List Char)),
    path = c :: name ++ names.flatMap ('.' :: ·)
      ∧ (('A' ≤ c ∧ c ≤ 'Z') ∨ ('a' ≤ c ∧ c ≤ 'z') ∨ c = '_')
      ∧ (∀ x ∈ name, Text.isWord x = true)
      ∧ ∀ n ∈ names, n ≠ [] ∧ ∀ x ∈ n, Text.isWord x = true

variable {path path' cs as bs rest : List Char} {ps qs : List Piece}

theorem isAlpha_iff (c : Char) : c.isAlpha = true ↔ ('A' ≤ c ∧ c ≤ 'Z') ∨ ('a' ≤ c ∧ c ≤ 'z') := by
  have hupper : c.isUpper = true ↔ 'A' ≤ c ∧ c ≤ 'Z' := decide_eq_true_iff
  have hlower : c.isLower = (decide ('a' ≤ c) && decide (c ≤ 'z')) := rfl
  show (c.isUpper || c.isLower) = true ↔ _
  rw [Bool.or_eq_true, hupper, hlower, Bool.and_eq_true, decide_eq_true_iff, decide_eq_true_iff]

theorem isStart_iff (c : Char) :
    isStart c = true ↔ ('A' ≤ c ∧ c ≤ 'Z') ∨ ('a' ≤ c ∧ c ≤ 'z') ∨ c = '_' := by
  rw [isStart, Bool.or_eq_true, isAlpha_iff, or_assoc, beq_iff_eq]

theorem isWord_of_isStart {c : Char} (h : isStart c = true) : Text.isWord c = true := by
  have hsmall : c.toNat < 128 := by
    rcases (isStart_iff c).mp h with ⟨-, hZ⟩ | ⟨-, hz⟩ | rfl
    · exact Nat.lt_of_le_of_lt (UInt32.le_iff_toNat_le.mp hZ) (by decide)
    · exact Nat.lt_of_le_of_lt (UInt32.le_iff_toNat_le.mp hz) (by decide)
    · decide
  rw [isStart, Bool.or_eq_true] at h
  rw [Text.isWord, if_pos hsmall, Bool.or_eq_true, Char.isAlphanum, Bool.or_eq_true]
  exact h.imp_left .inl

theorem not_isWord_dot : Text.isWord '.' = false := by decide

theorem isPathChar_of_isWord {c : Char} (h : Text.isWord c = true) : isPathChar c = true := by
  rw [isPathChar, h, Bool.true_or]

/-- A word has no dot. -/
theorem dot_not_mem_of_word {word : List Char} (h : ∀ x ∈ word, Text.isWord x = true) : '.' ∉ word := by
  intro hdot
  have := h '.' hdot
  rw [not_isWord_dot] at this
  cases this

/-- The paths of placeholders are told by their characters and their segments. -/
theorem isDotted_iff : IsDotted path ↔ isPath path = true ∧ ∀ x ∈ path, isPathChar x = true := by
  constructor
  · rintro ⟨c, name, names, rfl, hstart, hname, hnames⟩
    have hc : isStart c = true := (isStart_iff c).mpr hstart
    have hfirst : ∀ x ∈ c :: name, Text.isWord x = true := by
      intro x hx
      rcases List.mem_cons.mp hx with rfl | hx
      · exact isWord_of_isStart hc
      · exact hname x hx
    have hsegments : Path.segments (c :: name ++ names.flatMap ('.' :: ·)) = (c :: name) :: names :=
      Path.segments_flatMap (dot_not_mem_of_word hfirst) fun n hn => dot_not_mem_of_word (hnames n hn).2
    constructor
    · rw [isPath, hsegments]
      simp [hc]
      exact fun n hn => (hnames n hn).1
    · intro x hx
      rcases List.mem_append.mp hx with hx | hx
      · exact isPathChar_of_isWord (hfirst x hx)
      · obtain ⟨n, hn, hx⟩ := List.mem_flatMap.mp hx
        rcases List.mem_cons.mp hx with rfl | hx
        · decide
        · exact isPathChar_of_isWord ((hnames n hn).2 x hx)
  · rintro ⟨hpath, hchars⟩
    rw [isPath, Bool.and_eq_true, List.all_eq_true] at hpath
    obtain ⟨hstart, hfilled⟩ := hpath
    have hword : ∀ seg ∈ Path.segments path, ∀ x ∈ seg, Text.isWord x = true := by
      intro seg hseg x hx
      obtain ⟨hmem, hdot⟩ := Path.mem_of_mem_segments hseg hx
      have := hchars x hmem
      rw [isPathChar, Bool.or_eq_true, beq_iff_eq] at this
      exact this.resolve_right hdot
    cases hsegments : Path.segments path with
    | nil => exact absurd hsegments (Path.segments_ne_nil path)
    | cons name names =>
      rw [hsegments] at hfilled hword
      have heq := Path.eq_flatMap_of_segments hsegments
      cases name with
      | nil =>
        have := hfilled [] List.mem_cons_self
        cases this
      | cons c name =>
        rw [heq] at hstart
        refine ⟨c, name, names, heq, (isStart_iff c).mp hstart, fun x hx => ?_, fun n hn => ⟨?_, ?_⟩⟩
        · exact hword _ List.mem_cons_self x (List.mem_cons_of_mem c hx)
        · rintro rfl
          have := hfilled [] (List.mem_cons_of_mem _ hn)
          cases this
        · exact hword n (List.mem_cons_of_mem _ hn)

/-- There is no brace in a path. -/
theorem IsDotted.ne_brace (h : IsDotted path) {x : Char} (hx : x ∈ path) :
    x ≠ '\x7b' ∧ x ≠ '\x7d' := by
  have hchar := (isDotted_iff.mp h).2 x hx
  constructor
  · rintro rfl
    exact absurd hchar (by decide)
  · rintro rfl
    exact absurd hchar (by decide)

/-- No brace opens behind the one in front. -/
theorem IsDotted.not_mem_open (h : IsDotted path) : '\x7b' ∉ path ++ ['\x7d'] := by
  intro hmem
  rcases List.mem_append.mp hmem with hmem | hmem
  · exact (h.ne_brace hmem).1 rfl
  · exact absurd (List.mem_singleton.mp hmem) (by decide)

/-- Behind an opening brace the search finds a path if its closing brace follows it. -/
theorem placeholderAt?_eq_some_iff :
    placeholderAt? cs = some path ↔ IsDotted path ∧ path ++ ['\x7d'] <+: cs := by
  constructor
  · intro h
    have hprefix : path ++ ['\x7d'] <+: cs :=
      ⟨cs.drop (path.length + 1), by rw [List.append_assoc]; exact placeholderAt?_eq_some h⟩
    unfold placeholderAt? at h
    dsimp only at h
    split at h
    · split at h
      · next hpath =>
        cases h
        exact ⟨isDotted_iff.mpr ⟨hpath, List.all_eq_true.mp List.all_takeWhile⟩, hprefix⟩
      · cases h
    · cases h
  · rintro ⟨hdotted, rest, rfl⟩
    obtain ⟨hpath, hchars⟩ := isDotted_iff.mp hdotted
    have htake : (path ++ ['\x7d'] ++ rest).takeWhile isPathChar = path := by
      rw [List.append_assoc, List.takeWhile_append_of_pos hchars]
      exact List.append_nil path
    have hdrop : (path ++ ['\x7d'] ++ rest).drop path.length = '\x7d' :: rest := by
      rw [List.append_assoc, List.drop_left]
      rfl
    unfold placeholderAt?
    dsimp only
    rw [htake, hdrop, List.head?_cons, if_pos (by decide), if_pos hpath]

/-! ## Placeholders from left to right -/

/-- A text read from left to right: a placeholder wherever one starts, and otherwise the next character. -/
inductive Scans : List Char → List Piece → Prop where
  | done : Scans [] []
  | placeholder {path rest : List Char} {ps : List Piece} (hpath : IsDotted path) (h : Scans rest ps) :
    Scans (source path ++ rest) (.placeholder path :: ps)
  | char {c : Char} {rest : List Char} {ps : List Piece}
      (hnone : ∀ path, IsDotted path → ¬ source path <+: c :: rest) (h : Scans rest ps) :
    Scans (c :: rest) (.char c :: ps)

theorem source_prefix_iff {c : Char} :
    source path <+: c :: rest ↔ c = '\x7b' ∧ path ++ ['\x7d'] <+: rest := by
  rw [source, List.cons_append, List.cons_prefix_cons, eq_comm]

/-- A text is read as its pieces. -/
theorem scans_pieces (cs : List Char) : Scans cs (pieces cs) := by
  induction cs using pieces.induct with
  | case1 =>
    rw [pieces]
    exact .done
  | case2 c rest hc path hpath ih =>
    have hsplit : source path ++ rest.drop (path.length + 1) = c :: rest := by
      rw [source, List.append_assoc, List.cons_append, eq_of_beq hc]
      exact congrArg (List.cons _) (placeholderAt?_eq_some hpath)
    rw [pieces, if_pos hc, hpath, ← hsplit]
    exact .placeholder (placeholderAt?_eq_some_iff.mp hpath).1 ih
  | case3 c rest hc hpath ih =>
    rw [pieces, if_pos hc, hpath]
    refine .char (fun path hdotted hprefix => ?_) ih
    have hfound := placeholderAt?_eq_some_iff.mpr ⟨hdotted, (source_prefix_iff.mp hprefix).2⟩
    rw [hpath] at hfound
    cases hfound
  | case4 c rest hc ih =>
    rw [pieces, if_neg hc]
    refine .char (fun path _ hprefix => hc ?_) ih
    rw [(source_prefix_iff.mp hprefix).1]
    rfl

/-- Two placeholders that start at the same place are the same. -/
theorem eq_of_prefix_source (h : IsDotted path) (h' : IsDotted path') (hp : source path <+: cs)
    (hp' : source path' <+: cs) : path = path' := by
  cases cs with
  | nil => cases List.prefix_nil.mp hp
  | cons c rest =>
    have hfound := placeholderAt?_eq_some_iff.mpr ⟨h, (source_prefix_iff.mp hp).2⟩
    have hfound' := placeholderAt?_eq_some_iff.mpr ⟨h', (source_prefix_iff.mp hp').2⟩
    exact Option.some.inj (hfound.symm.trans hfound')

/-- There is one way to read a text. -/
theorem Scans.unique (h : Scans cs ps) (h' : Scans cs qs) : ps = qs := by
  induction h generalizing qs with
  | done =>
    generalize hcs : ([] : List Char) = cs at h'
    cases h' with
    | done => rfl
    | placeholder => cases hcs
    | char => cases hcs
  | @placeholder path rest ps hpath h ih =>
    generalize hcs : source path ++ rest = cs at h'
    cases h' with
    | done => cases hcs
    | @placeholder path' rest' qs hpath' h' =>
      have heq : path = path' :=
        eq_of_prefix_source hpath hpath' (List.prefix_append _ rest) (hcs ▸ List.prefix_append _ rest')
      subst heq
      rw [ih (List.append_cancel_left hcs ▸ h')]
    | char hnone => exact absurd (hcs ▸ List.prefix_append _ rest) (hnone path hpath)
  | @char c rest ps hnone h ih =>
    generalize hcs : c :: rest = cs at h'
    cases h' with
    | done => cases hcs
    | @placeholder path' rest' qs hpath' h' =>
      exact absurd (hcs ▸ List.prefix_append _ rest') (hnone path' hpath')
    | char _ h' =>
      cases hcs
      rw [ih h']

theorem scans_iff : Scans cs ps ↔ ps = pieces cs :=
  ⟨fun h => h.unique (scans_pieces cs), fun h => h ▸ scans_pieces cs⟩

/-! ## Cutting texts -/

/-- Two texts meet at a brace: behind one that closes, or in front of one that opens. Where one of them is
empty there is nothing to cut. -/
def Seam (as bs : List Char) : Prop :=
  (∀ c ∈ as.getLast?, c = '\x7d') ∨ ∀ c ∈ bs.head?, c = '\x7b'

theorem Seam.of_append (h : Seam (cs ++ as) bs) : Seam as bs := by
  refine h.imp_left fun hlast c hc => hlast c ?_
  rw [List.getLast?_append, Option.mem_def.mp hc]
  rfl

/-- A placeholder does not reach over a seam. -/
theorem Seam.source_prefix (h : Seam as bs) (has : as ≠ []) (hpath : IsDotted path)
    (hp : source path <+: as ++ bs) : source path <+: as := by
  cases as with
  | nil => exact absurd rfl has
  | cons c as =>
    rw [List.cons_append, source_prefix_iff] at hp
    obtain ⟨hopen, tail, htail⟩ := hp
    rw [source_prefix_iff]
    refine ⟨hopen, ?_⟩
    rcases List.append_eq_append_iff.mp htail with ⟨more, hmore, -⟩ | ⟨more, hmore, hbs⟩
    · exact ⟨more, hmore.symm⟩
    · -- what the placeholder would have behind the seam is empty, or the seam is inside its braces
      cases more with
      | nil =>
        rw [List.append_nil] at hmore
        exact ⟨[], by rw [List.append_nil, hmore]⟩
      | cons x more =>
        exfalso
        rcases h with hlast | hhead
        · have hclose : '\x7d' ∈ as := by
            cases hend : as.getLast? with
            | none =>
              have hsole : c = '\x7d' := hlast c (by rw [List.getLast?_cons, hend]; rfl)
              exact absurd (hopen.symm.trans hsole) (by decide)
            | some y =>
              have hy : y = '\x7d' := hlast y (by rw [List.getLast?_cons, hend]; rfl)
              exact hy ▸ List.mem_of_getLast? hend
          have hinner : path = as ++ (x :: more).dropLast := by
            rw [← List.dropLast_append_cons, ← hmore, List.dropLast_concat]
          have hmem : '\x7d' ∈ path := hinner ▸ List.mem_append_left _ hclose
          exact (hpath.ne_brace hmem).2 rfl
        · have hx : x = '\x7b' := hhead x (by rw [hbs]; rfl)
          refine hpath.not_mem_open ?_
          rw [hmore, hx]
          exact List.mem_append_right _ List.mem_cons_self

/-- Texts that meet at a brace are read one after the other. -/
theorem Scans.append (h : Scans as ps) (h' : Scans bs qs) (hseam : Seam as bs) :
    Scans (as ++ bs) (ps ++ qs) := by
  induction h with
  | done => exact h'
  | @placeholder path rest ps hpath h ih =>
    rw [List.append_assoc, List.cons_append]
    exact .placeholder hpath (ih hseam.of_append)
  | @char c rest ps hnone h ih =>
    refine .char (fun path hpath hp => ?_) (ih ?_)
    · exact hnone path hpath (hseam.source_prefix (List.cons_ne_nil c rest) hpath hp)
    · exact (show Seam ([c] ++ rest) bs from hseam).of_append

/-- Texts that meet at a brace are filled in one after the other. -/
theorem fill_append (look : List Char → Option Value) (hseam : Seam as bs) :
    fill look (as ++ bs) = fill look as ++ fill look bs := by
  have hpieces := scans_iff.mp ((scans_pieces as).append (scans_pieces bs) hseam)
  rw [fill, ← hpieces, List.flatMap_append]
  rfl

/-- The text of a placeholder is read as this placeholder. -/
theorem IsDotted.scans_source (h : IsDotted path) : Scans (source path) [.placeholder path] := by
  have := Scans.placeholder h .done
  rwa [List.append_nil] at this

/-! ## Occurrences -/

/-- The placeholders that a text is read with are those that occur in it. -/
theorem Scans.mem_iff (h : Scans cs ps) :
    .placeholder path ∈ ps ↔ IsDotted path ∧ source path <:+: cs := by
  induction h with
  | done => simp [source]
  | @placeholder path' rest ps hpath h ih =>
    rw [List.mem_cons, ih]
    constructor
    · rintro (heq | ⟨hdotted, hrest⟩)
      · cases heq
        exact ⟨hpath, (List.prefix_append _ rest).isInfix⟩
      · exact ⟨hdotted, hrest.trans (List.suffix_append _ rest).isInfix⟩
    · rintro ⟨hdotted, front, tail, hsplit⟩
      rw [List.append_assoc] at hsplit
      rcases List.append_eq_append_iff.mp hsplit with ⟨mid, hmid, hrest⟩ | ⟨mid, -, hrest⟩
      · cases front with
        | nil =>
          have hp : source path <+: source path' ++ rest := ⟨tail, hsplit⟩
          exact .inl (congrArg _ (eq_of_prefix_source hdotted hpath hp (List.prefix_append _ rest)))
        | cons x front =>
          cases mid with
          | nil => exact .inr ⟨hdotted, [], tail, hrest⟩
          | cons y mid =>
            -- a placeholder that started inside would open a brace there
            have hy : '\x7b' = y := (List.cons.inj hrest).1
            have hinner : path' ++ ['\x7d'] = front ++ y :: mid := (List.cons.inj hmid).2
            refine absurd ?_ hpath.not_mem_open
            rw [hinner, ← hy]
            exact List.mem_append_right _ List.mem_cons_self
      · exact .inr ⟨hdotted, mid, tail, by rw [List.append_assoc]; exact hrest.symm⟩
  | @char c rest ps hnone h ih =>
    rw [List.mem_cons, ih, List.infix_cons_iff]
    constructor
    · rintro (heq | ⟨hpath, hrest⟩)
      · cases heq
      · exact ⟨hpath, .inr hrest⟩
    · rintro ⟨hpath, hp | hrest⟩
      · exact absurd hp (hnone path hpath)
      · exact .inr ⟨hpath, hrest⟩

theorem mem_placeholders_iff {s : String} :
    path ∈ placeholders s ↔ IsDotted path ∧ source path <:+: s.toList :=
  mem_placeholders.trans (scans_pieces s.toList).mem_iff

/-! ## Filling in texts -/

variable (scope : Value)

theorem fillText_append {a b : String} (hseam : Seam a.toList b.toList) :
    fillText scope (a ++ b) = fillText scope a ++ fillText scope b := by
  unfold fillText
  rw [String.toList_append, fill_append _ hseam, String.ofList_append]

theorem toList_fillText {s : String} (h : Scans s.toList ps) :
    (fillText scope s).toList = ps.flatMap (fillPiece scope.resolve) := by
  rw [fillText, String.toList_ofList, fill, scans_iff.mp h]

/-- A placeholder is filled in, or left as it is. -/
theorem fillText_source (h : IsDotted path) : fillText scope (.ofList (source path)) =
    (filling scope path).getD (.ofList (source path)) := by
  have hscans : Scans (String.ofList (source path)).toList [.placeholder path] := by
    rw [String.toList_ofList]
    exact h.scans_source
  rw [← String.toList_inj, toList_fillText scope hscans, List.flatMap_singleton, fillPiece_placeholder]
  cases filling scope path with
  | none => exact String.toList_ofList.symm
  | some t => rfl

/-- A text in which no placeholder occurs stays as it is. -/
theorem fillText_of_none {s : String} (h : ∀ path, IsDotted path → ¬ source path <:+: s.toList) :
    fillText scope s = s := by
  have hplain : ∀ path ∈ placeholders s, filling scope path = filling .null path := by
    intro path hpath
    obtain ⟨hdotted, hoccurs⟩ := mem_placeholders_iff.mp hpath
    exact absurd hoccurs (h path hdotted)
  exact (fillText_congr hplain).trans (fillText_null s)

/-- The value of a placeholder is put between what the texts on both sides of it become, whatever braces
it has. -/
theorem fillText_between (a b : String) {v : Value} (h : IsDotted path)
    (hv : scope.resolve path = some v) :
    fillText scope (a ++ .ofList (source path) ++ b) =
      fillText scope a ++ render v ++ fillText scope b := by
  have hopen : Seam a.toList (String.ofList (source path)).toList := by
    rw [String.toList_ofList]
    right
    rintro c ⟨⟩
    rfl
  have hclose : Seam (a ++ String.ofList (source path)).toList b.toList := by
    rw [String.toList_append, String.toList_ofList, source, ← List.append_assoc]
    left
    intro c hc
    rw [List.getLast?_concat] at hc
    cases hc
    rfl
  rw [fillText_append scope hclose, fillText_append scope hopen, fillText_source scope h, filling, hv]
  rfl

/-- Texts are filled in in a single pass. A text that is cut at a brace is filled in part by part; a
placeholder becomes its value, or stays where there is none; other texts stay as they are. So a text is
read from left to right, each placeholder is filled in on its own, all other characters are copied, and
the text that comes from a value is not looked at again. -/
theorem single_pass :
    (∀ s : String, interpolate scope (.str s) = .str (fillText scope s))
    ∧ (∀ a b : String, a.toList.getLast? = some '\x7d' ∨ b.toList.head? = some '\x7b' →
        fillText scope (a ++ b) = fillText scope a ++ fillText scope b)
    ∧ (∀ path, IsDotted path →
        (∀ v, scope.resolve path = some v → fillText scope (.ofList (source path)) = render v)
          ∧ (scope.resolve path = none →
            fillText scope (.ofList (source path)) = .ofList (source path)))
    ∧ (∀ s : String, (∀ path, IsDotted path → ¬ source path <:+: s.toList) → fillText scope s = s)
    ∧ (∀ s : String, (∃! ps, Scans s.toList ps)
        ∧ ∀ ps, Scans s.toList ps → (fillText scope s).toList = ps.flatMap (fillPiece scope.resolve))
    ∧ ∀ (a b : String) (path : List Char) (v : Value), IsDotted path → scope.resolve path = some v →
        fillText scope (a ++ .ofList (source path) ++ b) =
          fillText scope a ++ render v ++ fillText scope b := by
  refine ⟨fun s => by rw [interpolate], fun a b hseam => ?_, fun path hpath => ⟨fun v hv => ?_, ?_⟩,
    fun s => fillText_of_none scope, fun s => ⟨⟨_, scans_pieces _, ?_⟩, ?_⟩, ?_⟩
  · refine fillText_append scope (hseam.imp (fun hlast c hc => ?_) fun hhead c hc => ?_)
    · exact Option.some.inj (hc.symm.trans hlast)
    · exact Option.some.inj (hc.symm.trans hhead)
  · rw [fillText_source scope hpath, filling, hv]
    rfl
  · intro hnone
    rw [fillText_source scope hpath, filling, hnone]
    rfl
  · exact fun ps => scans_iff.mp
  · exact fun ps => toList_fillText scope
  · exact fun a b path v => fillText_between scope a b

/-- A title that looks like a placeholder is not filled in, although there is a value for it. -/
theorem fillText_title_of_braces :
    fillText (Scope.build [("title", .str "\x7buser\x7d")] [("user", .str "u_1")])
        "<\x7btask.title\x7d\x7b" = "<\x7buser\x7d\x7b" := by
  obtain ⟨-, -, -, hplain, -, hbetween⟩ :=
    single_pass (Scope.build [("title", .str "\x7buser\x7d")] [("user", .str "u_1")])
  have hpath : IsDotted "task.title".toList :=
    isDotted_iff.mpr ⟨by decide +kernel, List.all_eq_true.mp (by decide +kernel)⟩
  have hshort : ∀ s : String, s.length ≤ 1 →
      ∀ path, IsDotted path → ¬ source path <:+: s.toList := by
    intro s hs path _ hoccurs
    have hlength := hoccurs.length_le
    rw [String.length_toList, source, List.length_append, List.length_cons, List.length_singleton] at hlength
    omega
  have htitle := hbetween "<" "\x7b" "task.title".toList (.str "\x7buser\x7d") hpath rfl
  rw [hplain "<" (hshort "<" (by decide)), hplain "\x7b" (hshort "\x7b" (by decide))] at htitle
  exact htitle

end TaskAutomation.Template
