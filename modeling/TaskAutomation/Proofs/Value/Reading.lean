import Mathlib.Data.List.Infix
import Mathlib.Data.List.TakeWhile
import TaskAutomation.Value.Reader

/-!
# Why a text cannot be read as JSON

Beyond the grammar there are two limits: integers have so many digits at most, and lists and objects are
nested only so deeply.

* `opens cs`, `LongRun n cs` : the brackets of a text that open lists and objects, and a run of digits in
  it that is too long;
* `Explained depth cs r` : a reader goes on with what is left of its text, or it fails for a reason that is
  in the text; `explained_readString`, `explained_readScalar` : so do the readers that do not nest;
* `explained_readers` : and so do those that nest, given two steps for each character: the fuel is enough;
* `read_error` : why a text is not read; `read_digits`, `read_brackets` : both limits are reached.
-/

namespace TaskAutomation.Json

open Decimal

/-- How many lists and objects a text opens; brackets within texts count as well. -/
def opens (cs : List Char) : Nat := cs.countP fun c => c == '[' || c == '\x7b'

/-- A text has a run of digits that is too long for an integer. -/
def LongRun (n : Nat) (cs : List Char) : Prop :=
  maxDigits < n ∧ ∃ ds, ds <:+: cs ∧ (∀ c ∈ ds, c.isDigit = true) ∧ ds.length = n

variable {α β : Type} {depth : Nat} {cs cs' : List Char}

/-- A reader of a text with some levels of nesting left goes on with what is left of the text, or it
fails for a reason that is in the text. -/
def Explained (depth : Nat) (cs : List Char) : Except Fault (α × Cursor) → Prop
  | .ok (_, after) => after.rest <:+ cs ∧ after.rest.length < cs.length
  | .error (.invalid _) => True
  | .error (.digits n) => LongRun n cs
  | .error .depth => depth < opens cs

theorem opens_cons {c : Char} (hc : (c == '[' || c == '\x7b') = true) :
    opens (c :: cs) = opens cs + 1 := List.countP_cons_of_pos hc

theorem opens_le (h : cs' <:+ cs) : opens cs' ≤ opens cs := h.sublist.countP_le

namespace Explained

variable {r : Except Fault (α × Cursor)}

theorem of_suffix (h : Explained depth cs' r) (hsuffix : cs' <:+ cs) : Explained depth cs r := by
  rcases r with (_ | n | _) | ⟨a, after⟩
  · trivial
  · obtain ⟨hmany, ds, hds, hdigits⟩ := h
    exact ⟨hmany, ds, hds.trans hsuffix.isInfix, hdigits⟩
  · exact h.trans_le (opens_le hsuffix)
  · exact ⟨h.1.trans hsuffix, h.2.trans_le hsuffix.length_le⟩

/-- What is read after a part of the text. -/
theorem bind {g : α × Cursor → Except Fault (β × Cursor)} (h : Explained depth cs r)
    (hg : ∀ a after, after.rest <:+ cs → after.rest.length < cs.length →
      Explained depth cs (g (a, after))) : Explained depth cs (r >>= g) := by
  rcases r with (_ | n | _) | ⟨a, after⟩
  · exact h
  · exact h
  · exact h
  · exact hg a after h.1 h.2

/-- What is read is put into something. -/
theorem map (f : α → β) (h : Explained depth cs r) : Explained depth cs (do
    let (a, after) ← r
    return (f a, after)) :=
  h.bind fun _ _ hafter hless => ⟨hafter, hless⟩

/-- What is read within a list or an object. -/
theorem nest {c : Char} (hc : (c == '[' || c == '\x7b') = true)
    (h : Explained (depth - 1) cs r) : Explained depth (c :: cs) r := by
  rcases r with (_ | n | _) | ⟨a, after⟩
  · trivial
  · obtain ⟨hmany, ds, hds, hdigits⟩ := h
    exact ⟨hmany, ds, hds.trans (List.suffix_cons c cs).isInfix, hdigits⟩
  · have hless : depth - 1 < opens cs := h
    show depth < opens (c :: cs)
    rw [opens_cons hc]
    omega
  · exact ⟨h.1.trans (List.suffix_cons c cs), h.2.trans (Nat.lt_succ_self _)⟩

end Explained

/-! ## Texts, numbers and words -/

theorem explained_readString (start p : Nat) (cs : List Char) :
    Explained depth cs (readString start p cs) := by
  fun_induction readString start p cs with
  | case2 p rest => exact ⟨List.suffix_cons _ _, Nat.lt_succ_self _⟩
  | case6 _ _ _ _ _ _ _ _ _ _ _ _ _ _ _ _ _ ih =>
    exact (ih.of_suffix (List.suffix_append [_, _, _, _, _, _, _, _, _, _, _, _] _)).map _
  | case10 _ _ _ _ _ _ _ _ _ _ _ ih =>
    exact (ih.of_suffix (List.suffix_append [_, _, _, _, _, _] _)).map _
  | case13 _ _ _ _ _ _ _ ih => exact (ih.of_suffix (List.suffix_append [_, _] _)).map _
  | case15 _ _ _ _ _ _ _ _ _ ih => exact (ih.of_suffix (List.suffix_cons _ _)).map _
  | _ => trivial

theorem skipSpace_suffix (p : Nat) (cs : List Char) : (skipSpace p cs).rest <:+ cs := by
  induction cs generalizing p with
  | nil => exact List.suffix_refl _
  | cons c rest ih =>
    unfold skipSpace
    split
    · exact (ih (p + 1)).trans (List.suffix_cons c rest)
    · exact List.suffix_refl _

theorem Cursor.skip_suffix (c : Cursor) : c.skip.rest <:+ c.rest := skipSpace_suffix _ _

theorem Cursor.advance_suffix (c : Cursor) (n : Nat) : (c.advance n).rest <:+ c.rest := List.drop_suffix _ _

theorem wholeOf_prefix (cs : List Char) : wholeOf cs <+: cs := by
  unfold wholeOf
  split
  · exact List.prefix_append ['0'] _
  · exact List.takeWhile_prefix _

theorem isDigit_of_mem_wholeOf {c : Char} (h : c ∈ wholeOf cs) : c.isDigit = true := by
  unfold wholeOf at h
  split at h
  · rw [List.mem_singleton.mp h]
    decide
  · exact List.mem_takeWhile_imp h

/-- What is left after some characters of a text that has some. -/
theorem Cursor.advance_left {cur : Cursor} {n : Nat} (hn : 0 < n) (hrest : 0 < cur.rest.length) :
    (cur.advance n).rest <:+ cur.rest ∧ (cur.advance n).rest.length < cur.rest.length := by
  refine ⟨cur.advance_suffix n, ?_⟩
  show (cur.rest.drop n).length < _
  rw [List.length_drop]
  omega

/-- What stands after the first character, and blanks. -/
theorem Cursor.inner_suffix {cur : Cursor} {c : Char} {rest : List Char} (h : cur.rest = c :: rest) :
    (cur.advance 1).skip.rest <:+ rest := by
  have hsuffix := (cur.advance 1).skip_suffix
  rwa [show (cur.advance 1).rest = rest by rw [Cursor.advance, h]; rfl] at hsuffix

theorem Cursor.inner_lt {cur : Cursor} {c : Char} {rest : List Char} (h : cur.rest = c :: rest) :
    (cur.advance 1).skip.rest.length < cur.rest.length := by
  rw [h]
  exact Nat.lt_succ_of_le (Cursor.inner_suffix h).length_le

/-- A number takes a character at least, and only a long run of digits cannot be read. -/
theorem explained_readNumber (cur : Cursor) : Explained depth cur.rest (readNumber cur) := by
  unfold readNumber
  extract_lets signLength body whole fraction exponent length after negative
  have hfront : whole <+: body := wholeOf_prefix body
  have hbody : body <:+ cur.rest := List.drop_suffix _ _
  split
  · trivial
  · next hsome =>
    have hwhole : 0 < whole.length := by
      rw [List.isEmpty_iff] at hsome
      exact List.length_pos_iff.mpr hsome
    have hleft : after.rest <:+ cur.rest ∧ after.rest.length < cur.rest.length :=
      Cursor.advance_left (show 0 < signLength + (whole.length + fraction + exponent) by omega)
        (hwhole.trans_le (hfront.length_le.trans hbody.length_le))
    split
    · split
      · next hmany =>
        exact ⟨hmany, whole, hfront.isInfix.trans hbody.isInfix, fun c => isDigit_of_mem_wholeOf, rfl⟩
      · exact hleft
    · split
      · exact hleft
      · trivial

theorem explained_readScalar (cur : Cursor) : Explained depth cur.rest (readScalar cur) := by
  unfold readScalar
  split
  · next w v hword =>
    have hlength : ∀ x ∈ words, 0 < x.1.length := by decide
    have hfront : w.toList <+: cur.rest := List.isPrefixOf_iff_prefix.mp
      (List.find?_some (p := fun x : String × Value => x.1.toList.isPrefixOf cur.rest) hword)
    have hpos : 0 < w.length := hlength _ (List.mem_of_find?_eq_some hword)
    exact Cursor.advance_left hpos (hpos.trans_le hfront.length_le)
  · exact explained_readNumber cur

/-! ## Lists and objects -/

section Step

variable {fuel : Nat} {cur : Cursor}

/-- A list or an object ends. -/
theorem explained_closed {x : Char} {tail : List Char} {a : α} (hcur : cur.rest <:+ cs)
    (hrest : cur.rest = x :: tail) : Explained depth cs (.ok (a, cur.advance 1)) := by
  have hpos : 0 < cur.rest.length := by
    rw [hrest]
    exact Nat.succ_pos _
  obtain ⟨hafter, hless⟩ := Cursor.advance_left Nat.one_pos hpos
  exact ⟨hafter.trans hcur, hless.trans_le hcur.length_le⟩

/-- What is read after a mark between items or fields. -/
theorem explained_more {x : Char} {tail : List Char} {r : Except Fault (α × Cursor)} (f : α → β)
    (hcur : cur.rest <:+ cs) (hrest : cur.rest = x :: tail)
    (h : Explained depth (cur.advance 1).skip.rest r) : Explained depth cs (do
      let (a, after) ← r
      return (f a, after)) := by
  have hsuffix := (Cursor.inner_suffix hrest).trans (List.suffix_cons x tail)
  rw [← hrest] at hsuffix
  exact (h.of_suffix (hsuffix.trans hcur)).map f

theorem explained_depth {c : Char} {rest : List Char} (hc : (c == '[' || c == '\x7b') = true) :
    Explained 0 (c :: rest) (.error .depth : Except Fault (α × Cursor)) := by
  show 0 < opens (c :: rest)
  rw [opens_cons hc]
  exact Nat.succ_pos _

/-- A value, where what is in lists and objects is read with one step less. -/
theorem explained_readValue
    (hitems : ∀ depth cur, 2 * cur.rest.length + 3 ≤ fuel →
      Explained depth cur.rest (readItems fuel depth cur))
    (hfields : ∀ depth cur, 2 * cur.rest.length + 3 ≤ fuel →
      Explained depth cur.rest (readFields fuel depth cur))
    (hfuel : 2 * cur.rest.length + 2 ≤ fuel + 1) :
    Explained depth cur.rest (readValue (fuel + 1) depth cur) := by
  unfold readValue
  split
  · next rest hrest =>
    rw [hrest]
    exact ((explained_readString _ _ rest).of_suffix (List.suffix_cons _ _)).map fun cs =>
      Value.str (String.ofList cs)
  · next rest hrest =>
    have hinner := Cursor.inner_suffix hrest
    have hless := Cursor.inner_lt hrest
    split
    · next hdepth =>
      rw [hrest, hdepth]
      exact explained_depth rfl
    · rw [hrest]
      dsimp only
      split
      · next tail htail => exact explained_closed (hinner.trans (List.suffix_cons _ _)) htail
      · exact (((hitems _ _ (by omega)).of_suffix hinner).nest rfl).map Value.list
  · next rest hrest =>
    have hinner := Cursor.inner_suffix hrest
    have hless := Cursor.inner_lt hrest
    split
    · next hdepth =>
      rw [hrest, hdepth]
      exact explained_depth rfl
    · rw [hrest]
      dsimp only
      split
      · next tail htail => exact explained_closed (hinner.trans (List.suffix_cons _ _)) htail
      · exact (((hfields _ _ (by omega)).of_suffix hinner).nest rfl).map fun fields =>
          Value.obj (Fields.ofList fields)
  · exact explained_readScalar cur

/-- The items of a list, where each is read with one step less. -/
theorem explained_readItems
    (hvalue : ∀ depth cur, 2 * cur.rest.length + 2 ≤ fuel →
      Explained depth cur.rest (readValue fuel depth cur))
    (hitems : ∀ depth cur, 2 * cur.rest.length + 3 ≤ fuel →
      Explained depth cur.rest (readItems fuel depth cur))
    (hfuel : 2 * cur.rest.length + 3 ≤ fuel + 1) :
    Explained depth cur.rest (readItems (fuel + 1) depth cur) := by
  unfold readItems
  refine (hvalue depth cur (by omega)).bind fun v after hafter hless => ?_
  have hskip := after.skip_suffix
  have hlength := hskip.length_le
  dsimp only
  split
  · next tail htail => exact explained_closed (hskip.trans hafter) htail
  · next tail htail =>
    have hinner := Cursor.inner_lt htail
    exact explained_more _ (hskip.trans hafter) htail (hitems depth _ (by omega))
  · trivial

/-- The fields of an object, where each is read with one step less. -/
theorem explained_readFields
    (hvalue : ∀ depth cur, 2 * cur.rest.length + 2 ≤ fuel →
      Explained depth cur.rest (readValue fuel depth cur))
    (hfields : ∀ depth cur, 2 * cur.rest.length + 3 ≤ fuel →
      Explained depth cur.rest (readFields fuel depth cur))
    (hfuel : 2 * cur.rest.length + 3 ≤ fuel + 1) :
    Explained depth cur.rest (readFields (fuel + 1) depth cur) := by
  unfold readFields
  split
  · next rest hrest =>
    have hkey : Explained depth cur.rest (readString cur.position (cur.position + 1) rest) := by
      rw [hrest]
      exact (explained_readString _ _ rest).of_suffix (List.suffix_cons _ _)
    refine hkey.bind fun key colon hcolon hless => ?_
    have hskip := colon.skip_suffix
    have hlength := hskip.length_le
    dsimp only
    split
    · next tail htail =>
      have hinner := Cursor.inner_lt htail
      have hsuffix := (Cursor.inner_suffix htail).trans (List.suffix_cons ':' tail)
      rw [← htail] at hsuffix
      refine ((hvalue depth _ (by omega)).of_suffix (hsuffix.trans (hskip.trans hcolon))).bind
        fun v after hafter hless => ?_
      have hskip := after.skip_suffix
      have hlength := hskip.length_le
      dsimp only
      split
      · next tail htail => exact explained_closed (hskip.trans hafter) htail
      · next tail htail =>
        have hinner := Cursor.inner_lt htail
        exact explained_more _ (hskip.trans hafter) htail (hfields depth _ (by omega))
      · trivial
    · trivial
  · trivial

end Step

/-- With two steps for each character readers come to the end of what they read, or they fail for a
reason that is in the text: they never run out of steps. -/
theorem explained_readers (fuel : Nat) :
    (∀ depth cur, 2 * cur.rest.length + 2 ≤ fuel →
      Explained depth cur.rest (readValue fuel depth cur))
    ∧ (∀ depth cur, 2 * cur.rest.length + 3 ≤ fuel →
      Explained depth cur.rest (readItems fuel depth cur))
    ∧ ∀ depth cur, 2 * cur.rest.length + 3 ≤ fuel →
      Explained depth cur.rest (readFields fuel depth cur) := by
  induction fuel with
  | zero => exact ⟨fun _ _ h => by omega, fun _ _ h => by omega, fun _ _ h => by omega⟩
  | succ fuel ih =>
    obtain ⟨hvalue, hitems, hfields⟩ := ih
    exact ⟨fun _ _ => explained_readValue hitems hfields, fun _ _ => explained_readItems hvalue hitems,
      fun _ _ => explained_readFields hvalue hfields⟩

/-! ## Whole texts -/

/-- A text that is read as JSON without a value departs from the grammar, or it has an integer of too many
digits, or it opens more lists and objects than can be nested. -/
theorem read_error {s : String} {fault : Fault} (h : read s = .error fault) :
    (∃ p, fault = .invalid p) ∨ (∃ n, fault = .digits n ∧ LongRun n s.toList)
      ∨ fault = .depth ∧ maxDepth < opens s.toList := by
  unfold read at h
  dsimp only at h
  split at h
  · cases h
    exact .inl ⟨_, rfl⟩
  · have hskip := Cursor.skip_suffix ⟨s.toList, 0⟩
    have hlength : (Cursor.skip ⟨s.toList, 0⟩).rest.length ≤ s.toList.length := hskip.length_le
    have hexplained := ((explained_readers (2 * s.toList.length + 2)).1 maxDepth
      (Cursor.skip ⟨s.toList, 0⟩) (by omega)).of_suffix hskip
    generalize readValue _ _ _ = r at h hexplained
    rcases r with (p | n | _) | ⟨v, after⟩
    · cases h
      exact .inl ⟨p, rfl⟩
    · cases h
      exact .inr (.inl ⟨n, rfl, hexplained⟩)
    · cases h
      exact .inr (.inr ⟨rfl, hexplained⟩)
    · rcases hlast : after.skip with ⟨_ | ⟨c, rest⟩, p⟩
      · simp only [bind, Except.bind, hlast] at h
        cases h
      · simp only [bind, Except.bind, hlast] at h
        cases h
        exact .inl ⟨p, rfl⟩

section Digits

variable {c : Char} {rest : List Char} {p : Nat}

theorem ne_of_isDigit {x : Char} (hc : c.isDigit = true) (hx : x.isDigit = false) : c ≠ x := by
  rintro rfl
  rw [hc] at hx
  cases hx

/-- A number of too many digits, and nothing else. -/
theorem readNumber_digits (hdigits : ∀ d ∈ c :: rest, d.isDigit = true) (hzero : c ≠ '0')
    (hmany : maxDigits < (c :: rest).length) :
    readNumber ⟨c :: rest, p⟩ = .error (.digits (c :: rest).length) := by
  have hc : c.isDigit = true := hdigits c List.mem_cons_self
  have hdigitsOf : wholeOf (c :: rest) = c :: rest := by
    unfold wholeOf
    split
    · next h => exact absurd (List.cons.inj h).1 hzero
    · exact List.takeWhile_eq_self_iff.mpr hdigits
  unfold readNumber
  extract_lets signLength body whole fraction exponent length after negative
  have hsign : signLength = 0 := by
    unfold signLength
    split
    · next h => exact absurd (List.cons.inj h).1 (ne_of_isDigit hc rfl)
    · rfl
  have hbody : body = c :: rest := by
    unfold body
    rw [hsign, List.drop_zero]
  have hwhole : whole = c :: rest := by
    unfold whole
    rw [hbody, hdigitsOf]
  have hfraction : fraction = 0 := by
    unfold fraction
    rw [hbody, hwhole, List.drop_length]
    rfl
  have hexponent : exponent = 0 := by
    unfold exponent
    rw [hbody, hwhole, hfraction, Nat.add_zero, List.drop_length]
    rfl
  rw [hfraction, hexponent, hwhole, if_neg (by simp), if_pos (by decide), if_pos hmany]

/-- An integer of too many digits is not read. -/
theorem read_digits (hdigits : ∀ d ∈ c :: rest, d.isDigit = true) (hzero : c ≠ '0')
    (hmany : maxDigits < (c :: rest).length) :
    read (String.ofList (c :: rest)) = .error (.digits (c :: rest).length) := by
  have hne : ∀ x : Char, x.isDigit = false → c ≠ x := fun x =>
    ne_of_isDigit (hdigits c List.mem_cons_self)
  have hbeq : ∀ x : Char, x.isDigit = false → (x == c) = false := fun x hx =>
    beq_eq_false_iff_ne.mpr (hne x hx).symm
  have hword : ∀ x ∈ words, ¬ x.1.toList.isPrefixOf (c :: rest) = true := by
    have hfirst : ∀ x ∈ words, (x.1.toList.head?.map Char.isDigit) = some false := by decide
    intro x hx
    have hx := hfirst x hx
    cases hw : x.1.toList with
    | nil =>
      rw [hw] at hx
      cases hx
    | cons y ys =>
      rw [hw] at hx
      simp only [List.isPrefixOf, hbeq y (Option.some.inj hx), Bool.false_and]
      exact Bool.false_ne_true
  have hspace : Cursor.skip ⟨c :: rest, 0⟩ = ⟨c :: rest, 0⟩ := by
    have hc : isSpace c = false := by
      simp [isSpace, hne]
    unfold Cursor.skip skipSpace
    rw [hc, if_neg Bool.false_ne_true]
  have hvalue : ∀ fuel depth, readValue (fuel + 1) depth ⟨c :: rest, 0⟩ =
      .error (.digits (c :: rest).length) := by
    intro fuel depth
    unfold readValue
    dsimp only
    split
    · next h => exact absurd (List.cons.inj h).1 (hne _ rfl)
    · next h => exact absurd (List.cons.inj h).1 (hne _ rfl)
    · next h => exact absurd (List.cons.inj h).1 (hne _ rfl)
    · unfold readScalar
      split
      · next w v hfound =>
        have hstart : w.toList.isPrefixOf (c :: rest) = true :=
          List.find?_some (p := fun x : String × Value => x.1.toList.isPrefixOf (c :: rest)) hfound
        exact absurd hstart (hword (w, v) (List.mem_of_find?_eq_some hfound))
      · exact readNumber_digits hdigits hzero hmany
  have hmark : ((c :: rest).head? == some (Char.ofNat 0xfeff)) = false := by
    have hc := hne (Char.ofNat 0xfeff) (by decide)
    simpa using hc
  unfold read
  dsimp only
  rw [String.toList_ofList, hmark, if_neg Bool.false_ne_true, hspace, hvalue]
  rfl

end Digits

theorem skip_replicate (n p : Nat) :
    Cursor.skip ⟨List.replicate n '[', p⟩ = ⟨List.replicate n '[', p⟩ := by
  cases n with
  | zero => rfl
  | succ n => rfl

/-- Brackets that open more lists than can be nested, with any steps and levels left. -/
theorem readValue_brackets (fuel : Nat) {depth n : Nat} (p : Nat) (h : depth < n) :
    readValue fuel depth ⟨List.replicate n '[', p⟩ = .error .depth := by
  induction depth generalizing fuel n p with
  | zero =>
    obtain ⟨n, rfl⟩ : ∃ k, n = k + 1 := ⟨n - 1, by omega⟩
    cases fuel with
    | zero => rw [readValue]
    | succ fuel =>
      rw [List.replicate_succ, readValue]
      rfl
  | succ depth ih =>
    obtain ⟨n, rfl⟩ : ∃ k, n = k + 2 := ⟨n - 2, by omega⟩
    cases fuel with
    | zero => rw [readValue]
    | succ fuel =>
      have hinner : (Cursor.advance ⟨List.replicate (n + 2) '[', p⟩ 1).skip =
          ⟨List.replicate (n + 1) '[', p + 1⟩ := skip_replicate (n + 1) (p + 1)
      have hitems : readItems fuel depth ⟨List.replicate (n + 1) '[', p + 1⟩ = .error .depth := by
        cases fuel with
        | zero => rw [readItems]
        | succ fuel =>
          rw [readItems, ih fuel (p + 1) (by omega)]
          rfl
      rw [readValue, List.replicate_succ]
      dsimp only
      rw [if_neg (Nat.succ_ne_zero depth), ← List.replicate_succ, hinner, List.replicate_succ]
      dsimp only
      rw [← List.replicate_succ, Nat.succ_sub_one, hitems]
      rfl

/-- Brackets that open more lists than can be nested are not read. -/
theorem read_brackets {n : Nat} (h : maxDepth < n) :
    read (String.ofList (List.replicate n '[')) = .error .depth := by
  have hmark : ((List.replicate n '[').head? == some (Char.ofNat 0xfeff)) = false := by
    cases n <;> rfl
  unfold read
  dsimp only
  rw [String.toList_ofList, hmark, if_neg Bool.false_ne_true, skip_replicate, readValue_brackets _ _ h]
  rfl

end TaskAutomation.Json
