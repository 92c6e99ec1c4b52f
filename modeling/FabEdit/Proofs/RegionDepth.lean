import FabEdit.Proofs.CheckedEngine
import FabEdit.Proofs.PeerSearch
import Mathlib.Data.Finset.Card

/-!
# How deep a line can stand

Once a whole buffer is indented, every line stands a whole number of levels deep, and no deeper than
there are openers above it. Lines copy the columns of other lines, so the statement runs through the
whole pass: it holds for a line because it holds for the openers above it.

Shape of the argument:

* The column of a line is 0, or that of an opener above it, or one level more than that
  (`structuralColumn_cases`).
* An opener has fewer openers above it than any line below it, itself among them
  (`Buffer.card_openersBefore_lt`).
* After the pass every line stands at its column in the buffer as it is then, so an induction over
  the lines from the top can use both (`Config.exists_depth_of_settled`).
-/

namespace FabEdit

namespace Buffer

variable {b : Buffer} {o : Oracle} {openers : WordSet}

/-- A line that opens a block is not blank. -/
theorem Opens.content_ne_nil {p : Nat} (h : b.Opens o openers p) (hp : p < b.count) :
    (b.lineAt p).content ≠ [] := by
  have hkind := h.1
  rw [kind_natCast hp] at hkind
  exact content_ne_nil_of_source hkind

/-- Above an opener there is at least one opener less than above a line below it. -/
theorem card_openersBefore_lt {k p : Nat} (h : p ∈ b.openersBefore o openers k) :
    (b.openersBefore o openers p).card < (b.openersBefore o openers k).card := by
  obtain ⟨hpk, hopens⟩ := mem_openersBefore.1 h
  refine Finset.card_lt_card ⟨fun q hq => ?_, fun hsub => ?_⟩
  · obtain ⟨hqp, hq⟩ := mem_openersBefore.1 hq
    exact mem_openersBefore.2 ⟨hqp.trans hpk, hq⟩
  · exact Nat.lt_irrefl p (mem_openersBefore.1 (hsub h)).1

end Buffer

/-- A line belongs at column 0, at the column of an opener above it, or one level deeper than such
an opener. -/
theorem structuralColumn_cases {layout : Layout} {inside : Nat → Bool} {b : Buffer} {i : Nat}
    (width : Int) (hi : i ≤ b.count) :
    structuralColumn layout b (.ofPredicate inside) width i = .ok 0 ∨
    ∃ p ∈ b.openersBefore (.ofPredicate inside) layout.openers i, ∃ levels : Nat, levels ≤ 1 ∧
      structuralColumn layout b (.ofPredicate inside) width i =
        .ok (b.columnAt layout.tab p + width * levels) := by
  rcases Buffer.openersAbove_cases inside layout.openers hi with ⟨hnone, -⟩ | ⟨m, -, hm, -⟩
  · exact .inl (structuralColumn_of_no_opener width hi hnone)
  right
  rcases structuralColumn_of_isGreatest width hi hm with
    ⟨-, hcolumn⟩ | ⟨-, rule, p, -, hp, hcolumn⟩ | ⟨-, -, hcolumn⟩
  · exact ⟨m, hm.1, 0, Nat.zero_le 1, by simp [hcolumn]⟩
  · exact ⟨p, hp.mem, 0, Nat.zero_le 1, by simp [hcolumn]⟩
  · exact ⟨m, hm.1, 1, Nat.le_refl 1, by simp [hcolumn]⟩

namespace Config

variable {c : Config} {b : Buffer}

theorem columnFor_of_structuralColumn {k : Nat} {col : Int} (hk : k < b.count)
    (h : structuralColumn c.layout b (.ofBuffer b) c.indentWidth.toInt k = .ok col) :
    c.columnFor b .fresh k = col := by
  rw [columnFor, place, FabEdit.place, if_pos (Buffer.inRange_natCast hk)]
  simp only [Int.toNat_natCast, h]
  rfl

/-- In a buffer in which every line is where it belongs, a line that is not blank stands some levels
deep, and no more than there are openers above it. -/
theorem exists_depth_of_settled (h : ∀ k < b.count, c.Settled b k) {k : Nat} (hk : k < b.count)
    (hline : (b.lineAt k).content ≠ []) :
    ∃ d : Nat, d ≤ (b.openersBefore (.ofBuffer b) c.layout.openers k).card ∧
      column c.tabWidth.toInt (b.lineAt k) = c.indentWidth.toInt * d := by
  induction k using Nat.strongRecOn with
  | ind k ih =>
    rw [(h k hk).column_eq hline]
    rcases structuralColumn_cases c.indentWidth.toInt (Nat.le_of_lt hk) with
      hzero | ⟨p, hp, levels, hlevels, hcolumn⟩
    · exact ⟨0, Nat.zero_le _, (columnFor_of_structuralColumn hk hzero).trans (Int.mul_zero _).symm⟩
    obtain ⟨hpk, hopens⟩ := Buffer.mem_openersBefore.1 hp
    have hpcount := Nat.lt_trans hpk hk
    obtain ⟨d, hd, hdepth⟩ := ih p hpk hpcount (hopens.content_ne_nil hpcount)
    have hfewer : (b.openersBefore (.ofBuffer b) c.layout.openers p).card <
        (b.openersBefore (.ofBuffer b) c.layout.openers k).card := Buffer.card_openersBefore_lt hp
    refine ⟨d + levels, by omega, ?_⟩
    rw [columnFor_of_structuralColumn hk hcolumn, Int.natCast_add, Int.mul_add, ← hdepth]
    rfl

/-- Indenting a whole buffer brings every line that is not blank to a whole number of levels, and no
deeper than there are openers above it in the result. Both hold for plain lines and for buffers.
Whatever the room, the lines of the result are really given if they can be written, and otherwise
there is a fault. -/
theorem indentRegion_column_eq_levels (c : Config) :
    (∀ ls : List Text,
      let out := (c.indentRegion (.ofLines ls) 0 none).lines
      ∀ (k : Nat) (l : Text), out[k]? = some l → l.content ≠ [] →
        ∃ d : Nat, column c.tabWidth.toInt l = c.indentWidth.toInt * d ∧
          d ≤ ((Buffer.ofLines out).openersBefore (.ofBuffer (.ofLines out))
            c.layout.openers k).card) ∧
    (∀ b : Buffer,
      let out := c.indentRegion b 0 none
      ∀ (k : Nat) (l : Text), out.lines[k]? = some l → l.content ≠ [] →
        ∃ d : Nat, column c.tabWidth.toInt l = c.indentWidth.toInt * d ∧
          d ≤ (out.openersBefore (.ofBuffer out) c.layout.openers k).card) ∧
    ∀ (b : Buffer) (room : Nat),
      (c.RegionFits room b 0 none →
        Checked.indentRegion room c b 0 none = .ok (c.indentRegion b 0 none)) ∧
      (¬ c.RegionFits room b 0 none → ∃ e : RunFault, c.RegionFault room b 0 none e ∧
        Checked.indentRegion room c b 0 none = .error (.run e)) := by
  have hlevels : ∀ (b : Buffer) (k : Nat) (l : Text),
      (c.indentRegion b 0 none).lines[k]? = some l → l.content ≠ [] →
      ∃ d : Nat, column c.tabWidth.toInt l = c.indentWidth.toInt * d ∧
        d ≤ ((c.indentRegion b 0 none).openersBefore (.ofBuffer (c.indentRegion b 0 none))
          c.layout.openers k).card := by
    intro b k l hl hline
    obtain ⟨hk, rfl⟩ := List.getElem?_eq_some_iff.1 hl
    have hcount : (c.indentRegion b 0 none).count = b.count := c.count_indentRegion b 0 none
    have hsettled : ∀ j < (c.indentRegion b 0 none).count,
        c.Settled (c.indentRegion b 0 none) j := by
      intro j hj
      have hregion : InRegion 0 none j := ⟨Int.natCast_nonneg j, nofun⟩
      exact settled_indentRegion (mem_regionRows.2 ⟨hregion, hcount ▸ hj⟩)
    rw [← Buffer.lineAt_eq_getElem hk] at hline ⊢
    obtain ⟨d, hd, hdepth⟩ := exists_depth_of_settled hsettled hk hline
    exact ⟨d, hdepth, hd⟩
  refine ⟨?_, hlevels,
    fun b room => ⟨checked_indentRegion_of_fits, checked_indentRegion_of_not_fits⟩⟩
  intro ls out
  have hout : Buffer.ofLines out = c.indentRegion (.ofLines ls) 0 none :=
    (trimmed_indentRegion c ls 0 none).ofLines_lines
  rw [hout]
  exact hlevels (.ofLines ls)

/-- Levels of five columns, written with tabs of seven. -/
private def crossed : Config :=
  { default with
    indentWidth := .columns 5 (by decide)
    tabWidth := .columns 7 (by decide)
    useTabs := .flag true }

/-- A branch, an annotation inside it and a line at the end that goes two levels deep. -/
private def slanted : List Text :=
  ["fn f()", "\tif x", " : here", "y", "   else", "\t\tz"].map String.toList

/-- The last line of `slanted` ends up two levels deep, below three openers. A room of five is
enough, since five spaces are the longest run. -/
theorem column_indentRegion_slanted :
    let out := (crossed.indentRegion (.ofLines slanted) 0 none).lines
    out[5]? = some "\t   z".toList ∧ Text.content "\t   z".toList ≠ [] ∧
      ∃ d : Nat, column 7 "\t   z".toList = 5 * d ∧
        d ≤ ((Buffer.ofLines out).openersBefore (.ofBuffer (.ofLines out))
          crossed.layout.openers 5).card ∧
      Checked.indentRegion 5 crossed (.ofLines slanted) 0 none = .ok ⟨out⟩ := by
  have hline : (crossed.indentRegion (.ofLines slanted) 0 none).lines[5]? =
      some "\t   z".toList := by decide +kernel
  have hcontent : Text.content "\t   z".toList ≠ [] := by decide
  obtain ⟨hlevels, -, hgiven⟩ := indentRegion_column_eq_levels crossed
  obtain ⟨d, hd, hdepth⟩ := hlevels slanted 5 "\t   z".toList hline hcontent
  exact ⟨hline, hcontent, d, hd, hdepth,
    (hgiven (.ofLines slanted) 5).1 (regionFault?_eq_none_iff.1 (by decide +kernel))⟩

end Config

end FabEdit
