import FabEdit.Proofs.CheckedEngine

/-!
# Line by line

A region can be indented in one pass, or by requests for one line after the other, each of them made
on the lines as they are by then. On the way the two see different lines: the pass empties a blank
line, while a request puts it where it belongs, as white space in front of nothing. Once that white
space is taken away again the results are the same.

Shape of the argument:

* `Buffer.SameBarBlanks` says that two buffers agree but for the blank lines among some rows. A
  blank line opens no block, so it does not count for the lines below it, and both buffers put every
  line at the same column (`SameBarBlanks.columnFor_eq`). Indenting one of the rows on either way
  keeps the agreement (`sameBarBlanks_indentAlone`), and so does indenting all of them
  (`sameBarBlanks_foldl`).
* A request fails if its line cannot be written where it belongs in the result
  (`aloneFault?_eq_findSome?`), and so does the pass, but only at a line that is not blank
  (`rowsFault?_eq_findSome?`). So the two fail at the same lines and for the same reason, except
  that only a request can fail at a blank line.
* A request takes plain lines and drops their line ends. Lines that have none keep having none, so
  the requests see the lines as they are (`Checked.foldlM_indentAlone_eq`).
-/

namespace FabEdit

namespace Buffer

/-- Two buffers that agree but for what the blank lines among some rows are made of. -/
structure SameBarBlanks (rows : List Nat) (b b' : Buffer) : Prop where
  count_eq : b.count = b'.count
  content_eq : ∀ k, (b.lineAt k).content = (b'.lineAt k).content
  lineAt_eq : ∀ k, (k ∈ rows → (b.lineAt k).content ≠ []) → b.lineAt k = b'.lineAt k

namespace SameBarBlanks

variable {rows : List Nat} {b b' : Buffer}

theorem refl (rows : List Nat) (b : Buffer) : SameBarBlanks rows b b :=
  ⟨rfl, fun _ => rfl, fun _ _ => rfl⟩

/-- Blank lines are no openers, so they do not count. -/
theorem sameAbove (h : SameBarBlanks rows b b') (layout : Layout) {k : Nat} (hk : k ≤ b.count) :
    SameAbove layout b b' k where
  le_count := hk
  le_count' := h.count_eq ▸ hk
  core j _ := Text.core_congr (h.content_eq j)
  column j _ hsource _ := by rw [h.lineAt_eq j fun _ => content_ne_nil_of_source hsource]

theorem columnFor_eq (h : SameBarBlanks rows b b') (c : Config) {k : Nat} (hk : k < b.count) :
    c.columnFor b .fresh k = c.columnFor b' .fresh k :=
  Config.columnFor_congr (h.sameAbove c.layout (Nat.le_of_lt hk)) hk (h.count_eq ▸ hk)
    (Text.core_congr (h.content_eq k))

end SameBarBlanks

end Buffer

namespace Config

/-! ## One line on either way -/

/-- The buffer with line `k` replaced by what a request for it gives. -/
def indentAlone (c : Config) (b : Buffer) (k : Nat) : Buffer := b.set k (c.indentLine b .fresh k)

section Alone

variable {c : Config} {b b' : Buffer} {k : Nat} {rows : List Nat}

theorem indentLine_natCast (hk : k < b.count) :
    c.indentLine b .fresh k = c.reindent (c.columnFor b .fresh k) (b.lineAt k) :=
  if_pos (Buffer.inRange_natCast hk)

theorem count_indentAlone (c : Config) (b : Buffer) (k : Nat) :
    (c.indentAlone b k).count = b.count :=
  Buffer.count_set b k _

theorem lt_count_indentAlone (h : ∀ j ∈ rows, j < b.count) :
    ∀ j ∈ rows, j < (c.indentAlone b k).count := by
  rwa [count_indentAlone]

theorem Trimmed.indentAlone (h : Trimmed b) (hk : k < b.count) : Trimmed (c.indentAlone b k) := by
  apply h.set
  rw [indentLine_natCast hk]
  exact dropEnd_reindent c _ (h.lineAt k)

/-- A request for a line and the pass at that line agree, unless the line is blank. -/
theorem sameBarBlanks_indentAlone (h : b.SameBarBlanks rows b') (hrow : k ∈ rows)
    (hk : k < b.count) : (c.indentAlone b k).SameBarBlanks rows (c.indentRow b' k) := by
  have hk' : k < b'.count := h.count_eq ▸ hk
  have hself : (c.indentAlone b k).lineAt k =
      c.reindent (c.columnFor b .fresh k) (b.lineAt k) := by
    rw [indentAlone, Buffer.lineAt_set_self hk, indentLine_natCast hk]
  have hself' : (c.indentRow b' k).lineAt k = c.rowText b' k := by
    rw [indentRow_eq_set, Buffer.lineAt_set_self hk']
  have hother : ∀ j, k ≠ j → (c.indentAlone b k).lineAt j = b.lineAt j ∧
      (c.indentRow b' k).lineAt j = b'.lineAt j := by
    intro j hj
    rw [indentRow_eq_set]
    exact ⟨Buffer.lineAt_set_of_ne hj _, Buffer.lineAt_set_of_ne hj _⟩
  refine ⟨?_, fun j => ?_, fun j hline => ?_⟩
  · rw [count_indentAlone, count_indentRow, h.count_eq]
  · by_cases hj : k = j
    · subst hj
      rw [hself, hself', content_rowText, reindent, content_reindent, h.content_eq]
    · rw [(hother j hj).1, (hother j hj).2, h.content_eq]
  · by_cases hj : k = j
    · subst hj
      have hcontent : (b.lineAt k).content ≠ [] := by
        have := hline hrow
        rwa [hself, reindent, content_reindent] at this
      rw [hself, hself', rowText, if_neg (h.content_eq k ▸ hcontent), h.columnFor_eq c hk,
        h.lineAt_eq k fun _ => hcontent]
    · rw [(hother j hj).1] at hline ⊢
      rw [(hother j hj).2]
      exact h.lineAt_eq j hline

end Alone

/-! ## All lines on either way -/

/-- The first fault met when some rows are replaced one after the other by what requests for them
give. -/
def aloneFault? (room : Nat) (c : Config) : Buffer → List Nat → Option RunFault
  | _, [] => none
  | b, k :: rows =>
    match c.lineFault? room b .fresh k with
    | some e => some e
    | none => c.aloneFault? room (c.indentAlone b k) rows

section Rows

variable {c : Config} {b b' : Buffer} {all rows : List Nat}

theorem sameBarBlanks_foldl (h : b.SameBarBlanks all b') (hall : ∀ k ∈ rows, k ∈ all)
    (hrows : ∀ k ∈ rows, k < b.count) :
    (rows.foldl c.indentAlone b).SameBarBlanks all (rows.foldl c.indentRow b') := by
  induction rows generalizing b b' with
  | nil => exact h
  | cons k rows ih =>
    obtain ⟨hmem, hall⟩ := List.forall_mem_cons.1 hall
    obtain ⟨hk, hrows⟩ := List.forall_mem_cons.1 hrows
    exact ih (sameBarBlanks_indentAlone h hmem hk) hall (lt_count_indentAlone hrows)

/-- The requests meet the first fault that a row has where it belongs in the result of the pass. -/
theorem aloneFault?_eq_findSome? (room : Nat) (h : b.SameBarBlanks all b')
    (hall : ∀ k ∈ rows, k ∈ all) (hsorted : rows.Pairwise (· < ·))
    (hrows : ∀ k ∈ rows, k < b.count) :
    c.aloneFault? room b rows =
      rows.findSome? fun k : Nat => c.lineFault? room (rows.foldl c.indentRow b') .fresh k := by
  induction rows generalizing b b' with
  | nil => rfl
  | cons k rows ih =>
    obtain ⟨hmem, hall⟩ := List.forall_mem_cons.1 hall
    obtain ⟨hfirst, hsorted⟩ := List.pairwise_cons.1 hsorted
    obtain ⟨hk, hrows⟩ := List.forall_mem_cons.1 hrows
    have hk' : k < b'.count := h.count_eq ▸ hk
    -- The first row is placed by what lies above it, which no later row changes.
    have hsame := c.sameBut_foldl_indentRow b' (k :: rows)
    have hcolumn : c.columnFor b' .fresh k =
        c.columnFor ((k :: rows).foldl c.indentRow b') .fresh k :=
      columnFor_congr (hsame.sameAbove hfirst (Nat.le_of_lt hk')) hk' (hsame.count_eq ▸ hk')
        (Text.core_congr (hsame.content_eq k))
    have hfault : c.lineFault? room b .fresh k =
        c.lineFault? room ((k :: rows).foldl c.indentRow b') .fresh k := by
      rw [lineFault?_natCast room c hk, lineFault?_natCast room c (hsame.count_eq ▸ hk'),
        h.columnFor_eq c hk, hcolumn]
    rw [aloneFault?, hfault, List.findSome?_cons, List.foldl_cons,
      ih (sameBarBlanks_indentAlone h hmem hk) hall hsorted (lt_count_indentAlone hrows)]
    cases c.lineFault? room _ .fresh k <;> rfl

end Rows

end Config

/-! ## Requests for plain lines -/

namespace Checked

variable (room : Nat) (c : Config)

/-- The lines with line `k` replaced by what a request for it gives. -/
def indentAlone (ls : List Text) (k : Nat) : Except EngineFault (List Text) := do
  let l ← indentLine room c (.ofLines ls) .fresh k
  return ls.set k l

/-- The lines of a region replaced from top to bottom by what requests for them give. -/
def lineByLine (ls : List Text) (start : Int) (stop : Option Int) :
    Except EngineFault (List Text) :=
  (Config.regionRows ls.length start stop).foldlM (indentAlone room c) ls

theorem foldlM_indentAlone_eq {b : Buffer} (h : Config.Trimmed b) {rows : List Nat}
    (hrows : ∀ k ∈ rows, k < b.count) :
    rows.foldlM (indentAlone room c) b.lines =
      answer (c.aloneFault? room b rows) (rows.foldl c.indentAlone b).lines := by
  induction rows generalizing b with
  | nil => rfl
  | cons k rows ih =>
    obtain ⟨hk, hrows⟩ := List.forall_mem_cons.1 hrows
    rw [List.foldlM_cons, indentAlone, h.ofLines_lines, indentLine_eq, Config.aloneFault?,
      List.foldl_cons]
    cases c.lineFault? room b .fresh k with
    | some e => rfl
    | none => exact ih (h.indentAlone hk) (Config.lt_count_indentAlone hrows)

end Checked

namespace Config

/-- The lines with the blank lines of a region emptied. -/
def emptyBlanks (start : Int) (stop : Option Int) (ls : List Text) : List Text :=
  ls.mapIdx fun k l => if k ∈ regionRows ls.length start stop ∧ l.content = [] then [] else l

/-- Emptying the blank lines of a region takes away all in which the two ways differ. -/
theorem emptyBlanks_eq {c : Config} {b a : Buffer} {start : Int} {stop : Option Int}
    (h : a.SameBarBlanks (regionRows b.count start stop) (c.indentRegion b start stop)) :
    emptyBlanks start stop a.lines = (c.indentRegion b start stop).lines := by
  have hcount : a.count = b.count := h.count_eq.trans (c.count_indentRegion b _ _)
  have hlength : (emptyBlanks start stop a.lines).length = a.count := List.length_mapIdx
  apply List.ext_getElem (hlength.trans h.count_eq)
  intro k hk hk'
  have hka : k < a.lines.length := by rwa [hlength] at hk
  have hrow : (emptyBlanks start stop a.lines)[k] =
      if k ∈ regionRows b.count start stop ∧ (a.lineAt k).content = [] then []
      else a.lineAt k := by
    rw [← hcount, Buffer.lineAt_eq_getElem hka]
    exact List.getElem_mapIdx
  rw [hrow, ← Buffer.lineAt_eq_getElem hk']
  split
  next hblank =>
    have hsettled : c.Settled (c.indentRegion b start stop) k := settled_indentRegion hblank.1
    rw [hsettled, rowText, if_pos (h.content_eq k ▸ hblank.2)]
  next hline => exact h.lineAt_eq k fun hmem hnil => hline ⟨hmem, hnil⟩

/-- Each blank line of a region could be written where it belongs. -/
def BlanksFit (room : Nat) (c : Config) (b : Buffer) (start : Int) (stop : Option Int) : Prop :=
  ∀ (k : Nat) (l : Text), (c.indentRegion b start stop).lines[k]? = some l →
    InRegion start stop k → l.content = [] →
    c.Fits room (c.columnFor (c.indentRegion b start stop) .fresh k)

section Plain

variable {room : Nat} {c : Config} {ls : List Text} (h : ∀ l ∈ ls, l.dropEnd Buffer.isLineEnd = l)
include h

theorem emptyBlanks_foldl_indentAlone (c : Config) (start : Int) (stop : Option Int) :
    emptyBlanks start stop
        ((regionRows ls.length start stop).foldl c.indentAlone (.ofLines ls)).lines =
      (c.indentRegion (.ofLines ls) start stop).lines := by
  have hplain : Buffer.ofLines ls = ⟨ls⟩ := Trimmed.ofLines_lines h
  rw [hplain]
  exact emptyBlanks_eq (sameBarBlanks_foldl (.refl _ _) (fun _ hk => hk)
    fun k hk => (mem_regionRows.1 hk).2)

/-- Requests line by line give their lines, unless there is a line of the region that cannot be
written where it belongs in the result. -/
theorem lineByLine_eq (room : Nat) (c : Config) (start : Int) (stop : Option Int) :
    Checked.lineByLine room c ls start stop =
      Checked.answer
        ((regionRows ls.length start stop).findSome? fun k : Nat =>
          c.lineFault? room (c.indentRegion (.ofLines ls) start stop) .fresh k)
        ((regionRows ls.length start stop).foldl c.indentAlone (.ofLines ls)).lines := by
  have hplain : Buffer.ofLines ls = ⟨ls⟩ := Trimmed.ofLines_lines h
  have hrows : ∀ k ∈ regionRows ls.length start stop, k < (Buffer.mk ls).count :=
    fun k hk => (mem_regionRows.1 hk).2
  have hfault := aloneFault?_eq_findSome? (c := c) room
    (.refl (regionRows ls.length start stop) ⟨ls⟩) (fun _ hk => hk) List.pairwise_lt_range' hrows
  rw [hplain]
  exact (Checked.foldlM_indentAlone_eq room c h hrows).trans (congrArg (Checked.answer · _) hfault)

end Plain

/-- If the blank lines can be written, the pass is held up exactly where the requests are. -/
theorem regionFault?_of_blanksFit {room : Nat} {c : Config} {b : Buffer} {start : Int}
    {stop : Option Int} (hfit : c.BlanksFit room b start stop) :
    c.regionFault? room b start stop =
      (regionRows b.count start stop).findSome? fun k : Nat =>
        c.lineFault? room (c.indentRegion b start stop) .fresh k := by
  have hfault : ∀ k ∈ regionRows b.count start stop,
      c.rowFault? room (c.indentRegion b start stop) k =
        c.lineFault? room (c.indentRegion b start stop) .fresh k := by
    intro k hk
    obtain ⟨hl, hregion⟩ := (c.getElem?_indentRegion_eq_some_iff b start stop k _).2 ⟨hk, rfl⟩
    rw [rowFault?_eq]
    split
    next hblank =>
      exact (lineFault?_eq_none_iff.2 fun _ => hfit k _ hl hregion hblank).symm
    next => rfl
  rw [regionFault?_eq_findSome?, ← List.head?_filterMap, List.filterMap_congr hfault,
    List.head?_filterMap]

/-- If a blank line cannot be written, a request fails, because of a line of the region that cannot
be written where it belongs. -/
theorem lineByLine_of_not_blanksFit {room : Nat} {c : Config} {ls : List Text} {start : Int}
    {stop : Option Int} (h : ∀ l ∈ ls, l.dropEnd Buffer.isLineEnd = l)
    (hfit : ¬ c.BlanksFit room (.ofLines ls) start stop) :
    ∃ (e : RunFault) (k : Nat), k ∈ regionRows ls.length start stop ∧
      e.Explains room
        (c.padding (c.columnFor (c.indentRegion (.ofLines ls) start stop) .fresh k)) ∧
      Checked.lineByLine room c ls start stop = .error (.run e) := by
  have hcount : (Buffer.ofLines ls).count = ls.length := Buffer.count_ofLines ls
  have hrows : ∀ k ∈ regionRows ls.length start stop,
      k < (c.indentRegion (.ofLines ls) start stop).count := by
    intro k hk
    rw [count_indentRegion, hcount]
    exact (mem_regionRows.1 hk).2
  rw [lineByLine_eq h]
  cases hfault : (regionRows ls.length start stop).findSome? fun k : Nat =>
      c.lineFault? room (c.indentRegion (.ofLines ls) start stop) .fresh k with
  | none =>
    refine absurd (fun k l hl hregion _ => ?_) hfit
    have hk : k ∈ regionRows ls.length start stop := by
      rw [← hcount]
      exact ((c.getElem?_indentRegion_eq_some_iff _ start stop k l).1 ⟨hl, hregion⟩).1
    exact lineFault?_eq_none_iff.1 (List.findSome?_eq_none_iff.1 hfault k hk)
      (Buffer.inRange_natCast (hrows k hk))
  | some e =>
    obtain ⟨k, hk, hline⟩ := List.exists_of_findSome?_eq_some hfault
    rw [lineFault?_natCast room c (hrows k hk)] at hline
    exact ⟨e, k, hk, explains_of_columnFault? hline, rfl⟩

/-- One pass over a region gives what requests line by line give, once the blank lines of the region
are emptied. Whatever the room, if each blank line could be written where it belongs, the requests
fail exactly where the pass fails and for the same reason, or both give their lines. If some blank
line could not, the requests fail; the pass, which writes no blank line at all, fails only if a line
that is not blank cannot be written. White space can be written at least up to the room, as far as a
word can count it. -/
theorem indentRegion_eq_lineByLine (room : Nat) (c : Config) (ls : List Text)
    (h : ∀ l ∈ ls, l.dropEnd Buffer.isLineEnd = l) (start : Int) (stop : Option Int) :
    emptyBlanks start stop
        ((regionRows ls.length start stop).foldl c.indentAlone (.ofLines ls)).lines =
      (c.indentRegion (.ofLines ls) start stop).lines ∧
    (c.BlanksFit room (.ofLines ls) start stop →
      (Checked.lineByLine room c ls start stop).map (emptyBlanks start stop) =
        (Checked.indentRegion room c (.ofLines ls) start stop).map Buffer.lines) ∧
    (¬ c.BlanksFit room (.ofLines ls) start stop →
      ∃ (e : RunFault) (k : Nat), k ∈ regionRows ls.length start stop ∧
        e.Explains room
          (c.padding (c.columnFor (c.indentRegion (.ofLines ls) start stop) .fresh k)) ∧
        Checked.lineByLine room c ls start stop = .error (.run e)) ∧
    (c.RegionFits room (.ofLines ls) start stop →
      Checked.indentRegion room c (.ofLines ls) start stop =
        .ok (c.indentRegion (.ofLines ls) start stop)) ∧
    (¬ c.RegionFits room (.ofLines ls) start stop → ∃ e : RunFault,
      c.RegionFault room (.ofLines ls) start stop e ∧
      Checked.indentRegion room c (.ofLines ls) start stop = .error (.run e)) ∧
    ∀ col : Int, 0 ≤ col → FitsWord col → col ≤ room → c.Fits room col := by
  have hlines := emptyBlanks_foldl_indentAlone h c start stop
  refine ⟨hlines, fun hfit => ?_, lineByLine_of_not_blanksFit h, checked_indentRegion_of_fits,
    checked_indentRegion_of_not_fits, fun _ => fits_of_le⟩
  have hcount : (Buffer.ofLines ls).count = ls.length := Buffer.count_ofLines ls
  rw [lineByLine_eq h, Checked.indentRegion_eq, regionFault?_of_blanksFit hfit, hcount]
  cases (regionRows ls.length start stop).findSome? fun k : Nat =>
      c.lineFault? room (c.indentRegion (.ofLines ls) start stop) .fresh k with
  | some e => rfl
  | none => exact congrArg Except.ok hlines

/-- A function with blank lines above, inside and below a branch, and a comment. -/
private def airy : List Text :=
  [" ", "fn f()", "\t ", "if x", "", "/* if", "  */", "else", "\x0c", "y"].map String.toList

private theorem blanksFit_airy : Config.default.BlanksFit 8 (.ofLines airy) 2 (some 9) := by
  have hcolumns : ∀ k ∈ regionRows (Buffer.ofLines airy).count 2 (some 9),
      Config.default.columnFault? 8 (Config.default.columnFor
        (Config.default.indentRegion (.ofLines airy) 2 (some 9)) .fresh k) = none := by
    decide +kernel
  intro k l hl hregion _
  have hk := (Config.default.getElem?_indentRegion_eq_some_iff _ 2 (some 9) k l).1 ⟨hl, hregion⟩
  exact columnFault?_eq_none_iff.1 (hcolumns k hk.1)

/-- The blank lines of the region come out empty on both ways, those around it stay. -/
theorem lineByLine_airy :
    (∀ l ∈ airy, l.dropEnd Buffer.isLineEnd = l) ∧
    Config.default.BlanksFit 8 (.ofLines airy) 2 (some 9) ∧
    (Checked.lineByLine 8 .default airy 2 (some 9)).map (emptyBlanks 2 (some 9)) =
      (Checked.indentRegion 8 .default (.ofLines airy) 2 (some 9)).map Buffer.lines ∧
    Checked.indentRegion 8 .default (.ofLines airy) 2 (some 9) =
      .ok (Config.default.indentRegion (.ofLines airy) 2 (some 9)) ∧
    (Config.default.indentRegion (.ofLines airy) 2 (some 9)).lines =
      [" ", "fn f()", "", "    if x", "", "        /* if", "        */", "    else", "", "y"].map
        String.toList := by
  have hairy : ∀ l ∈ airy, l.dropEnd Buffer.isLineEnd = l := by decide
  obtain ⟨-, hsame, -, hgiven, -⟩ := indentRegion_eq_lineByLine 8 .default airy hairy 2 (some 9)
  exact ⟨hairy, blanksFit_airy, hsame blanksFit_airy,
    hgiven (regionFault?_eq_none_iff.1 (by decide +kernel)), by decide +kernel⟩

/-- Levels so wide that a word cannot count the columns of one. -/
private def vast : Config :=
  { Config.default with indentWidth := .columns 18446744073709551616 (by decide) }

private def scant : List Text := ["fn f()", ""].map String.toList

private theorem not_blanksFit_scant (room : Nat) :
    ¬ vast.BlanksFit room (.ofLines scant) 0 none := by
  intro hfit
  have hcolumn : vast.columnFor (vast.indentRegion (.ofLines scant) 0 none) .fresh 1 =
      18446744073709551616 := by
    decide +kernel
  have hfault : vast.columnFault? room 18446744073709551616 = some .uncountable := by rfl
  have hfits := hfit 1 [] (by decide +kernel) ⟨by decide, by simp⟩ rfl
  rw [Int.natCast_one, hcolumn] at hfits
  exact not_fits_of_columnFault? hfault hfits

private theorem regionFits_scant (room : Nat) : vast.RegionFits room (.ofLines scant) 0 none := by
  have hcolumns : ∀ l ∈ (vast.indentRegion (.ofLines scant) 0 none).lines,
      column vast.tabWidth.toInt l = 0 := by
    decide +kernel
  intro k l hl _ _
  rw [hcolumns l (List.mem_of_getElem? hl)]
  exact fits_of_le (by decide) (by decide) (Int.natCast_nonneg room)

/-- Under settings that ask for such levels, no machine performs the request for the blank line
below an opener, and every machine performs the pass. -/
theorem lineByLine_vast :
    ∃ c, Config.ofSetting (.table [("indent_width".toList, .int 18446744073709551616)]) = .ok c ∧
      (∀ l ∈ scant, l.dropEnd Buffer.isLineEnd = l) ∧
      ¬ ∃ room : Nat, (Checked.lineByLine room c scant 0 none).map (emptyBlanks 0 none) =
        (Checked.indentRegion room c (.ofLines scant) 0 none).map Buffer.lines := by
  have hscant : ∀ l ∈ scant, l.dropEnd Buffer.isLineEnd = l := by decide
  refine ⟨vast, rfl, hscant, ?_⟩
  rintro ⟨room, hsame⟩
  obtain ⟨e, -, -, -, hrefused⟩ := lineByLine_of_not_blanksFit hscant (not_blanksFit_scant room)
  rw [hrefused, checked_indentRegion_of_fits (regionFits_scant room)] at hsame
  cases hsame

end Config

end FabEdit
