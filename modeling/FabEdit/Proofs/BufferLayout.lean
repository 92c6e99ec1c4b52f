import FabEdit.Buffer

/-!
# Where the lines of a buffer stand

A buffer is described in three ways: by its lines, by its text, and by the offsets of its lines in
that text. Here they are shown to be descriptions of one layout, whatever has been replaced.

Shape of the argument:

* A line stands in the text behind what is `above` it and in front of what is `below` it
  (`text_eq`), and the length of what is above is its offset (`length_above`). So the line is read
  off the text at its offset, and a newline or the end of the text follows it (`standsAt_lineAt`).
* To put another line in the place of line `k` changes the layout from the end of that line on
  (`offsetAt_set_of_le`, `offsetAt_set_of_lt`).
* Replacements one after the other leave at each index what was last put there
  (`get_replaceAll`), and the offsets are right again, for they are right in every buffer.
-/

namespace FabEdit

namespace Buffer

/-! ## What is read at a line that is there -/

theorem inRange_natCast {b : Buffer} {k : Nat} (h : k < b.count) : b.InRange k :=
  ⟨Int.natCast_nonneg k, Int.ofNat_lt.2 h⟩

theorem InRange.exists_natCast {b : Buffer} {i : Int} (h : b.InRange i) :
    ∃ k : Nat, i = k ∧ k < b.count := by
  obtain ⟨k, rfl⟩ := Int.eq_ofNat_of_zero_le h.1
  exact ⟨k, rfl, Int.ofNat_lt.1 h.2⟩

section Read

variable {b : Buffer} {k : Nat} (hk : k < b.count)
include hk

theorem get_natCast : b.get k = .ok (b.lineAt k) := if_pos (inRange_natCast hk)

theorem offset_natCast : b.offset k = .ok (b.offsetAt k) := if_pos (inRange_natCast hk)

theorem replace_natCast (l : Text) : b.replace k l = .ok (b.set k l) := if_pos (inRange_natCast hk)

theorem column_natCast {tab : Int} (htab : 0 < tab) :
    b.column tab k = .ok (FabEdit.column tab (b.lineAt k)) := by
  rw [column, get_natCast hk]
  simp only [measure?_of_pos htab, FabEdit.column]

end Read

theorem lineAt_eq_getElem {b : Buffer} {k : Nat} (h : k < b.lines.length) :
    b.lineAt k = b.lines[k] := by
  simp [lineAt, List.getD, h]

/-! ## The text around a line -/

/-- The text above line `k`, each line with its newline. -/
def above (b : Buffer) (k : Nat) : Text := (b.lines.take k).flatMap fun l => l ++ ['\n']

/-- The text below line `k`, each line behind its newline. -/
def below (b : Buffer) (k : Nat) : Text := (b.lines.drop (k + 1)).flatMap fun l => '\n' :: l

theorem length_above (b : Buffer) (k : Nat) : (b.above k).length = b.offsetAt k := by
  rw [above, offsetAt]
  induction b.lines.take k with
  | nil => rfl
  | cons l ls ih =>
    rw [List.flatMap_cons, List.length_append, ih]
    simp

theorem above_succ {b : Buffer} {k : Nat} (h : k < b.count) :
    b.above (k + 1) = b.above k ++ (b.lineAt k ++ ['\n']) := by
  have hlen : k < b.lines.length := h
  rw [above, above, lineAt_eq_getElem hlen, ← List.take_append_getElem hlen, List.flatMap_append,
    List.flatMap_singleton]

private theorem ofLines_cons (l : Text) (ls : List Text) :
    Text.ofLines (l :: ls) = l ++ ls.flatMap fun m => '\n' :: m := by
  induction ls generalizing l with
  | nil => simp
  | cons m ls ih => rw [Text.ofLines_cons_cons, ih, List.flatMap_cons, List.cons_append]

private theorem ofLines_append_cons (above : List Text) (l : Text) (below : List Text) :
    Text.ofLines (above ++ l :: below) =
      (above.flatMap fun l => l ++ ['\n']) ++ Text.ofLines (l :: below) := by
  induction above with
  | nil => rfl
  | cons x above ih =>
    obtain ⟨y, ys, hy⟩ : ∃ y ys, above ++ l :: below = y :: ys :=
      List.exists_cons_of_ne_nil (by simp)
    rw [List.cons_append, hy, Text.ofLines_cons_cons, ← hy, ih]
    simp

/-- A line stands in the text between what is above it and what is below it. -/
theorem text_eq {b : Buffer} {k : Nat} (h : k < b.count) :
    b.text = b.above k ++ (b.lineAt k ++ b.below k) := by
  have hlen : k < b.lines.length := h
  have hlines : b.lines = b.lines.take k ++ b.lineAt k :: b.lines.drop (k + 1) := by
    rw [lineAt_eq_getElem hlen, List.getElem_cons_drop, List.take_append_drop]
  rw [text, hlines, ofLines_append_cons, ofLines_cons, above, below]

/-- Below the last line there is nothing. -/
theorem below_of_last {b : Buffer} {k : Nat} (h : k + 1 = b.count) : b.below k = [] := by
  have hlen : b.lines.length ≤ k + 1 := Nat.le_of_eq h.symm
  rw [below, List.drop_eq_nil_of_le hlen, List.flatMap_nil]

/-- Below any other line there is a newline and the next line. -/
theorem head?_below {b : Buffer} {k : Nat} (h : k + 1 < b.count) :
    (b.below k).head? = some '\n' := by
  have hlen : k + 1 < b.lines.length := h
  rw [below, ← List.getElem_cons_drop hlen, List.flatMap_cons]
  rfl

/-- The text ends after a line or goes on with a newline. -/
theorem exists_text_eq {b : Buffer} {k : Nat} (h : k < b.count) :
    ∃ rest, b.text = b.above k ++ (b.lineAt k ++ rest) ∧ ∀ c ∈ rest.head?, c = '\n' := by
  refine ⟨b.below k, text_eq h, fun c hc => ?_⟩
  rcases Nat.lt_or_eq_of_le (Nat.succ_le_of_lt h) with hlt | hlast
  · rw [head?_below hlt] at hc
    exact (Option.some.inj hc).symm
  · rw [below_of_last hlast] at hc
    cases hc

/-! ## Text and lines -/

theorem not_mem_of_mem_ofText {t l : Text} (h : l ∈ (ofText t).lines) : '\n' ∉ l := by
  have hlines : ∀ l ∈ List.splitOn '\n' t, '\n' ∉ l := by
    clear h
    induction t with
    | nil => simp
    | cons c t ih =>
      obtain ⟨m, ms, hm⟩ := List.exists_cons_of_ne_nil (List.splitOn_ne_nil '\n' t)
      rw [hm] at ih
      rw [List.splitOn_cons_eq_if_modifyHead, hm]
      by_cases hc : c = '\n'
      · simpa [hc] using ih
      · simpa [hc, Ne.symm hc] using ih
  exact hlines l h

theorem text_ofText (t : Text) : (ofText t).text = t := List.intercalate_splitOn '\n'

theorem ofText_text {b : Buffer} (hne : b.lines ≠ []) (h : ∀ l ∈ b.lines, '\n' ∉ l) :
    ofText b.text = b :=
  congrArg Buffer.mk (List.splitOn_intercalate '\n' h hne)

/-! ## Lines at their offsets -/

/-- The line at index `i` is `l`, and the text has it at offset `p`: the characters from there on
are those of the line, and behind them stands the newline in front of the next line, or nothing if
there is no next line. -/
structure StandsAt (b : Buffer) (i : Int) (l : Text) (p : Nat) : Prop where
  get_eq : b.get i = .ok l
  offset_eq : b.offset i = .ok p
  slice : (b.text.drop p).take l.length = l
  newline : i + 1 < b.count → b.text[p + l.length]? = some '\n'
  ending : i + 1 = b.count → p + l.length = b.text.length

theorem standsAt_lineAt {b : Buffer} {k : Nat} (h : k < b.count) :
    b.StandsAt k (b.lineAt k) (b.offsetAt k) := by
  have htext := text_eq h
  have hdrop : b.text.drop (b.offsetAt k) = b.lineAt k ++ b.below k := by
    rw [htext, ← length_above, List.drop_left]
  refine ⟨get_natCast h, offset_natCast h, ?_, fun hnext => ?_, fun hlast => ?_⟩
  · rw [hdrop, List.take_left]
  · have hbelow : (b.below k).head? = some '\n' := head?_below (by omega)
    rw [← List.getElem?_drop, hdrop, List.getElem?_append_right (Nat.le_refl _), Nat.sub_self,
      ← List.head?_eq_getElem?, hbelow]
  · have hbelow : b.below k = [] := below_of_last (by omega)
    rw [htext, hbelow, List.append_nil, List.length_append, length_above]

/-! ## Offsets after a replacement -/

theorem offsetAt_succ {b : Buffer} {k : Nat} (h : k < b.count) :
    b.offsetAt (k + 1) = b.offsetAt k + (b.lineAt k).length + 1 := by
  rw [← length_above, above_succ h, List.length_append, length_above, List.length_append,
    List.length_singleton, Nat.add_assoc]

/-- Down to the line itself nothing moves. -/
theorem offsetAt_set_of_le (b : Buffer) {j k : Nat} (h : j ≤ k) (l : Text) :
    (b.set k l).offsetAt j = b.offsetAt j := by
  have htake : (b.lines.set k l).take j = b.lines.take j := List.take_set_of_le h
  rw [offsetAt, offsetAt, set, htake]

/-- Every line below moves by as much as the line has become longer or shorter. -/
theorem offsetAt_set_of_lt {b : Buffer} {j k : Nat} (hkj : k < j) (hj : j ≤ b.count) (l : Text) :
    (b.set k l).offsetAt j + (b.lineAt k).length = b.offsetAt j + l.length := by
  induction j with
  | zero => cases hkj
  | succ j ih =>
    -- either the line in front of this offset is the new one, or it has only moved
    rw [offsetAt_succ (by rwa [count_set]), offsetAt_succ hj]
    rcases Nat.lt_or_eq_of_le (Nat.le_of_lt_succ hkj) with hlt | rfl
    · rw [lineAt_set_of_ne (Nat.ne_of_lt hlt)]
      have hbefore := ih hlt (Nat.le_of_succ_le hj)
      omega
    · rw [lineAt_set_self hj, offsetAt_set_of_le b (Nat.le_refl k)]
      omega

/-- What it means that `b'` is `b` with the line at index `i` replaced by `l`. -/
structure Replaced (b : Buffer) (i : Int) (l : Text) (b' : Buffer) : Prop where
  count_eq : b'.count = b.count
  get_self : b'.get i = .ok l
  get_of_ne : ∀ j, j ≠ i → b'.get j = b.get j
  offset_of_le : ∀ j, j ≤ i → b'.offset j = b.offset j
  /-- An offset below grows by the new length less the old one. -/
  offset_of_lt : ∀ j, i < j → b.InRange j → ∃ old p p',
    b.get i = .ok old ∧ b.offset j = .ok p ∧ b'.offset j = .ok p' ∧
      (p' : Int) = p + (l.length - old.length)

theorem inRange_congr {b b' : Buffer} (h : b'.count = b.count) (i : Int) :
    b'.InRange i ↔ b.InRange i := by
  rw [InRange, InRange, h]

theorem replaced_set {b : Buffer} {k : Nat} (hk : k < b.count) (l : Text) :
    b.Replaced k l (b.set k l) := by
  have hcount : (b.set k l).count = b.count := count_set b k l
  have hrange := inRange_congr hcount
  refine ⟨hcount, ?_, fun j hne => ?_, fun j hle => ?_, fun j hlt hj => ?_⟩
  · rw [get_natCast (by rwa [hcount]), lineAt_set_self hk]
  · by_cases hj : b.InRange j
    · obtain ⟨n, rfl, hn⟩ := hj.exists_natCast
      have hkn : k ≠ n := fun h => hne (congrArg Nat.cast h.symm)
      rw [get_natCast hn, get_natCast (by rwa [hcount]), lineAt_set_of_ne hkn]
    · rw [get, get, if_neg hj, if_neg (mt (hrange j).1 hj)]
  · by_cases hj : b.InRange j
    · obtain ⟨n, rfl, hn⟩ := hj.exists_natCast
      rw [offset_natCast hn, offset_natCast (by rwa [hcount]),
        offsetAt_set_of_le b (Int.ofNat_le.1 hle)]
    · rw [offset, offset, if_neg hj, if_neg (mt (hrange j).1 hj)]
  · obtain ⟨n, rfl, hn⟩ := hj.exists_natCast
    have hmoved := offsetAt_set_of_lt (Int.ofNat_lt.1 hlt) (Nat.le_of_lt hn) l
    refine ⟨b.lineAt k, b.offsetAt n, (b.set k l).offsetAt n, get_natCast hk, offset_natCast hn,
      offset_natCast (by rwa [hcount]), ?_⟩
    omega

theorem inRange_of_replace {b b' : Buffer} {i : Int} {l : Text} (h : b.replace i l = .ok b') :
    b.InRange i := by
  by_cases hi : b.InRange i
  · exact hi
  · rw [replace, if_neg hi] at h
    cases h

theorem replaced_of_replace {b b' : Buffer} {i : Int} {l : Text} (h : b.replace i l = .ok b') :
    b.Replaced i l b' := by
  obtain ⟨k, rfl, hk⟩ := (inRange_of_replace h).exists_natCast
  rw [replace_natCast hk] at h
  cases h
  exact replaced_set hk l

/-! ## Replacements one after the other -/

/-- The buffer after some replacements, each of which has to find its line. -/
def replaceAll (b : Buffer) (edits : List (Int × Text)) : Except Fault Buffer :=
  edits.foldlM (fun b e => b.replace e.1 e.2) b

/-- What was last put at an index, and what was there before if nothing was. -/
def lastAt (edits : List (Int × Text)) (i : Int) (before : Text) : Text :=
  edits.foldl (fun l e => if e.1 = i then e.2 else l) before

/-- A replacement is seen at its own index and at no other. -/
theorem get_replace {b b' : Buffer} {i : Int} {l : Text} (h : b.replace i l = .ok b') (j : Int) :
    b'.get j = (b.get j).map fun old => if i = j then l else old := by
  have hreplaced := replaced_of_replace h
  obtain ⟨k, hk, hlt⟩ := (inRange_of_replace h).exists_natCast
  by_cases hij : i = j
  · subst hij
    rw [hreplaced.get_self, hk, get_natCast hlt]
    exact congrArg Except.ok (if_pos rfl).symm
  · rw [hreplaced.get_of_ne j (Ne.symm hij)]
    simp only [if_neg hij]
    cases b.get j <;> rfl

/-- After any number of replacements each index has what was last put there. -/
theorem get_replaceAll {b b' : Buffer} {edits : List (Int × Text)}
    (h : b.replaceAll edits = .ok b') (i : Int) : b'.get i = (b.get i).map (lastAt edits i) := by
  induction edits generalizing b with
  | nil =>
    cases h
    cases b'.get i <;> rfl
  | cons e edits ih =>
    rw [replaceAll, List.foldlM_cons] at h
    cases hfirst : b.replace e.1 e.2 with
    | error fault =>
      rw [hfirst] at h
      cases h
    | ok b₁ =>
      rw [hfirst] at h
      rw [ih h, get_replace hfirst]
      cases b.get i <;> rfl

/-- Lines, text and offsets are three descriptions of one layout. A text is cut into lines without
newlines and put together again, and so are lines without newlines, if there are any. Whatever a
buffer was made from, after any number of replacements the text has each line, as it was last put
there, at its offset, and a newline or the end of the text behind it. A replacement succeeds exactly
at the indices of the buffer; it changes that line, moves the lines below by the difference of the
lengths, and leaves everything else as it was. -/
theorem lines_stand_at_offsets (t : Text) (b : Buffer) :
    ((ofText t).text = t ∧ ∀ l ∈ (ofText t).lines, '\n' ∉ l) ∧
    (b.lines ≠ [] → (∀ l ∈ b.lines, '\n' ∉ l) → (ofText b.text).lines = b.lines) ∧
    (∀ (edits : List (Int × Text)) (b' : Buffer), b.replaceAll edits = .ok b' →
      ∀ i, b'.InRange i →
        ∃ before p, b.get i = .ok before ∧ b'.StandsAt i (lastAt edits i before) p) ∧
    (∀ (i : Int) (l : Text), (∃ b', b.replace i l = .ok b') ↔ b.InRange i) ∧
    ∀ (i : Int) (l : Text) (b' : Buffer), b.replace i l = .ok b' → b.Replaced i l b' := by
  refine ⟨⟨text_ofText t, fun l hl => not_mem_of_mem_ofText hl⟩,
    fun hne hlines => congrArg Buffer.lines (ofText_text hne hlines),
    fun edits b' hedits i hi => ?_, fun i l => ⟨fun ⟨b', h⟩ => inRange_of_replace h, fun hi => ?_⟩,
    fun i l b' h => replaced_of_replace h⟩
  · obtain ⟨k, rfl, hk⟩ := hi.exists_natCast
    have hstands := standsAt_lineAt hk
    have hget := get_replaceAll hedits k
    rw [hstands.get_eq] at hget
    cases hbefore : b.get k with
    | error e =>
      rw [hbefore] at hget
      cases hget
    | ok before =>
      rw [hbefore] at hget
      have hline : b'.lineAt k = lastAt edits k before := Except.ok.inj hget
      exact ⟨before, b'.offsetAt k, rfl, hline ▸ hstands⟩
  · exact ⟨b.set i.toNat l, if_pos hi⟩

/-- Three lines, of which the middle one is empty. -/
private def sheet : Buffer := ⟨["ab", "", "cde"].map String.toList⟩

/-- Two replacements of the last line, with one of the first line between them. -/
private def patches : List (Int × Text) := [(2, "x".toList), (0, []), (2, "wxyz".toList)]

/-- With the first line emptied, the last line stands behind two newlines, as it was put there
last. -/
theorem standsAt_patched :
    sheet.lines ≠ [] ∧ (∀ l ∈ sheet.lines, '\n' ∉ l) ∧ (ofText sheet.text).lines = sheet.lines ∧
    ∃ b₁ b₃ : Buffer,
      sheet.replace 0 [] = .ok b₁ ∧ sheet.Replaced 0 [] b₁ ∧
      sheet.replaceAll patches = .ok b₃ ∧ b₃.InRange 2 ∧ b₃.StandsAt 2 "wxyz".toList 2 := by
  obtain ⟨-, hlines, hedits, -, hreplaced⟩ := lines_stand_at_offsets [] sheet
  have hne : sheet.lines ≠ [] := by decide
  have hplain : ∀ l ∈ sheet.lines, '\n' ∉ l := by decide
  refine ⟨hne, hplain, hlines hne hplain, ⟨[[], [], "cde".toList]⟩, ⟨[[], [], "wxyz".toList]⟩, rfl,
    hreplaced 0 [] _ rfl, rfl, by decide, ?_⟩
  obtain ⟨before, p, -, hstands⟩ := hedits patches ⟨[[], [], "wxyz".toList]⟩ rfl 2 (by decide)
  have hp : p = 2 := Except.ok.inj (hstands.offset_eq.symm.trans rfl)
  have hline : lastAt patches 2 before = "wxyz".toList := rfl
  rwa [hp, hline] at hstands

end Buffer

end FabEdit
