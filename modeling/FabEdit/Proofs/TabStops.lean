import FabEdit.Text.Tabs
import FabEdit.Proofs.Measure

/-!
# Columns and tab stops

The column of a line is counted on the way through its leading blanks, and the remainder by the tab
width says how far the next stop is. Elsewhere tabs are not counted but expanded: `Text.expandTabs`
writes the spaces that lead to the stop. Here the two are shown to agree, for leads of any blanks in
any order.

Shape of the argument:

* `Text.plain` writes blanks as tabs and spaces, without those that take no room. One blank takes
  the column as far as its plain form is wide (`advance_tab`, `advance_of_roomless`,
  `advance_of_room`), and by induction so do many (`foldl_advance_eq`).
* `columnAfter` is the column on the way. A tab takes it to the next stop (`columnAfter_tab`), and
  it never goes back (`columnAfter_mono`).
-/

namespace FabEdit

/-! ## Blanks as tabs and spaces -/

/-- Whether a blank takes no room. -/
def isRoomless (c : Char) : Bool := c == '\x0c' || c == '\x0b' || c == '\r'

namespace Text

/-- Blanks as tabs and spaces: those that take no room are left out, and every other one but the tab
is a space. -/
def plain (t : Text) : Text :=
  (t.filter fun c => !isRoomless c).map fun c => if c = '\t' then '\t' else ' '

theorem plain_nil : plain [] = [] := rfl

theorem plain_cons_tab (t : Text) : plain ('\t' :: t) = '\t' :: plain t := rfl

theorem plain_cons_of_roomless {c : Char} (h : isRoomless c = true) (t : Text) :
    plain (c :: t) = plain t := by
  simp [plain, h]

theorem plain_cons_of_room {c : Char} (h : isRoomless c = false) (htab : c ≠ '\t') (t : Text) :
    plain (c :: t) = ' ' :: plain t := by
  simp [plain, h, htab]

end Text

/-! ## One blank -/

/-- A tab goes on to the next stop. -/
theorem advance_tab (width col : Nat) :
    advance width col '\t' = col + (width - (col % width : Nat) : Int) := by
  rw [advance, if_pos rfl, Int.fmod_eq_emod_of_nonneg _ (Int.natCast_nonneg width),
    Int.natCast_emod]

theorem advance_of_roomless {c : Char} (h : isRoomless c = true) (tab col : Int) :
    advance tab col c = col := by
  have hc : c = '\x0c' ∨ c = '\x0b' ∨ c = '\r' := by simpa [isRoomless, or_assoc] using h
  have htab : c ≠ '\t' := by
    rintro rfl
    exact absurd h (by decide)
  rw [advance, if_neg htab, if_pos hc]

theorem advance_of_room {c : Char} (h : isRoomless c = false) (htab : c ≠ '\t') (tab col : Int) :
    advance tab col c = col + 1 := by
  have hc : ¬ (c = '\x0c' ∨ c = '\x0b' ∨ c = '\r') := by
    rintro (rfl | rfl | rfl) <;> exact absurd h (by decide)
  rw [advance, if_neg htab, if_neg hc]

/-! ## Many blanks -/

/-- Counting columns and expanding tabs come to the same, from any column on. The induction is on
the blanks, the column being that in front of the ones that are left. -/
theorem foldl_advance_eq {width : Nat} (hwidth : 0 < width) (t : Text) (col : Nat) :
    t.foldl (advance width) col = col + (Text.expandTabsFrom width col t.plain).length := by
  induction t generalizing col with
  | nil => simp [Text.plain_nil, Text.expandTabsFrom]
  | cons c t ih =>
    rw [List.foldl_cons]
    by_cases htab : c = '\t'
    · subst htab
      have hmod : col % width < width := Nat.mod_lt col hwidth
      have hstop : advance width col '\t' = (col + (width - col % width) : Nat) := by
        rw [advance_tab]
        omega
      rw [hstop, ih, Text.plain_cons_tab, Text.expandTabsFrom, if_pos rfl, List.length_append,
        List.length_replicate]
      omega
    · cases hroom : isRoomless c with
      | true => rw [advance_of_roomless hroom, ih, Text.plain_cons_of_roomless hroom]
      | false =>
        have hnext : advance width col c = (col + 1 : Nat) := advance_of_room hroom htab width col
        -- a newline is a space here, so it does not start a new line for the expansion
        rw [hnext, ih, Text.plain_cons_of_room hroom htab, Text.expandTabsFrom,
          if_neg (by decide), if_neg (by decide), List.length_cons]
        omega

theorem foldl_advance_zero {tab : Int} (htab : 0 < tab) (t : Text) :
    t.foldl (advance tab) 0 = (t.plain.expandTabs tab.toNat).length := by
  obtain ⟨width, rfl⟩ := Int.eq_ofNat_of_zero_le (Int.le_of_lt htab)
  have hcount := foldl_advance_eq (Int.ofNat_lt.1 htab) t 0
  rw [Int.natCast_zero, Int.zero_add] at hcount
  exact hcount

/-! ## On the way -/

/-- The column after `n` of the leading blanks of a line. -/
def columnAfter (tab : Int) (l : Text) (n : Nat) : Int := (l.lead.take n).foldl (advance tab) 0

theorem columnAfter_succ {tab : Int} {l : Text} {n : Nat} {c : Char} (h : l.lead[n]? = some c) :
    columnAfter tab l (n + 1) = advance tab (columnAfter tab l n) c := by
  rw [columnAfter, List.take_add_one, h, List.foldl_append]
  rfl

theorem columnAfter_nonneg {tab : Int} (htab : 0 < tab) (l : Text) (n : Nat) :
    0 ≤ columnAfter tab l n :=
  le_foldl_advance htab 0 _

/-- The column never goes back. -/
theorem columnAfter_mono {tab : Int} (htab : 0 < tab) (l : Text) {m n : Nat} (h : m ≤ n) :
    columnAfter tab l m ≤ columnAfter tab l n := by
  induction n, h using Nat.le_induction with
  | base => exact Int.le_refl _
  | succ n _ ih =>
    refine Int.le_trans ih ?_
    cases hc : l.lead[n]? with
    | none =>
      rw [columnAfter, columnAfter, List.take_add_one, hc]
      exact Int.le_of_eq (congrArg _ (List.append_nil _).symm)
    | some c =>
      rw [columnAfter_succ hc]
      exact le_advance htab _ c

/-- Behind a tab the column is the next stop, which is never the first column. -/
theorem columnAfter_tab {tab : Int} (htab : 0 < tab) {l : Text} {n : Nat}
    (h : l.lead[n]? = some '\t') :
    ∃ k, 0 < k ∧ columnAfter tab l (n + 1) = tab * k ∧
      columnAfter tab l n < columnAfter tab l (n + 1) ∧
      columnAfter tab l (n + 1) ≤ columnAfter tab l n + tab := by
  have hdiv : 0 ≤ (columnAfter tab l n).fdiv tab :=
    Int.fdiv_nonneg (columnAfter_nonneg htab l n) (Int.le_of_lt htab)
  have hlow : 0 ≤ (columnAfter tab l n).fmod tab := Int.fmod_nonneg_of_pos _ htab
  have hhigh : (columnAfter tab l n).fmod tab < tab := Int.fmod_lt_of_pos _ htab
  have hsum := Int.mul_fdiv_add_fmod (columnAfter tab l n) tab
  refine ⟨(columnAfter tab l n).fdiv tab + 1, by omega, ?_⟩
  rw [columnAfter_succ h, advance, if_pos rfl, Int.mul_add]
  omega

/-- Measuring a line is expanding the tabs of its lead. Under a positive tab width the measure of a
line gives the length of its lead as tabs and spaces with the tabs expanded to their stops, and the
length of the lead as it is. It is the same on the way, after any number of blanks: there each tab
takes the column to the next positive multiple of the width, and the column never goes back. -/
theorem measure_is_expanded_lead (tab : Int) (htab : 1 ≤ tab) (l : Text) :
    measure? tab l = some ⟨(l.lead.plain.expandTabs tab.toNat).length, l.lead.length⟩ ∧
    (∀ n, columnAfter tab l n = ((Text.plain (l.lead.take n)).expandTabs tab.toNat).length) ∧
    (∀ n, l.lead[n]? = some '\t' →
      ∃ k, 0 < k ∧ columnAfter tab l (n + 1) = tab * k ∧
        columnAfter tab l n < columnAfter tab l (n + 1) ∧
        columnAfter tab l (n + 1) ≤ columnAfter tab l n + tab) ∧
    ∀ m n, m ≤ n → columnAfter tab l m ≤ columnAfter tab l n := by
  refine ⟨?_, fun n => foldl_advance_zero htab (l.lead.take n), fun n => columnAfter_tab htab,
    fun m n => columnAfter_mono htab l⟩
  rw [measure?_of_pos htab, measure_eq, foldl_advance_zero htab]

/-- Two tabs among blanks of other widths: a space and a form feed before the first, a no-break
space, a newline and a carriage return between them. -/
private def skewed : Text := " \x0c\t\u00a0\n\r\tx".toList

/-- With stops at every fourth column the tabs lead to columns 4 and 8. -/
theorem measure_skewed :
    (1 : Int) ≤ 4 ∧ measure? 4 skewed = some ⟨8, 7⟩ ∧
    skewed.lead.plain = " \t  \t".toList ∧ skewed.lead[2]? = some '\t' ∧
    (∃ k, 0 < k ∧ columnAfter 4 skewed 3 = 4 * k) ∧
    columnAfter 4 skewed 3 ≤ columnAfter 4 skewed 6 := by
  obtain ⟨hmeasure, -, htabs, hmono⟩ := measure_is_expanded_lead 4 (by decide) skewed
  obtain ⟨k, hk, hstop, -⟩ := htabs 2 (by decide)
  exact ⟨by decide, hmeasure.trans (by decide), by decide, by decide, ⟨k, hk, hstop⟩,
    hmono 3 6 (by decide)⟩

end FabEdit
