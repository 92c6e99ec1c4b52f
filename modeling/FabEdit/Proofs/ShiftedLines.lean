import FabEdit.Proofs.PeerSearch

/-!
# Shifting the code above a line

If all lines above a line move to the right by the same distance, the line moves with them. The
lines are written anew for that, with spaces or with tabs, so the text and all offsets in it change;
the answers do not, but for the distance.

Shape of the argument:

* `Buffer.ShiftedAbove` says that the lines above a line have been moved. They keep their contents
  (`ShiftedAbove.content_eq`), and so their kinds, and the same lines open a block
  (`ShiftedAbove.openersBefore_eq`). Their columns all grow by the distance
  (`ShiftedAbove.columnAt_eq`).
* The opener that a continuation lines up with is found by comparing columns of openers with each
  other, never with a number, so it stays the same (`Continuation.LinesUp.shift`).
* The column of a line is that of an opener above it, perhaps with a level added
  (`ShiftedAbove.structuralColumn_eq`).
-/

namespace FabEdit

/-- Moving all openers by the same distance does not change which of them is lined up with. -/
theorem Continuation.LinesUp.shift {rule : Continuation} {b b' : Buffer} {tab d : Int}
    {O : Finset Nat} {p : Nat} (h : rule.LinesUp b tab O p)
    (hcore : ∀ q ∈ O, (b.lineAt q).core = (b'.lineAt q).core)
    (hcol : ∀ q ∈ O, b'.columnAt tab q = b.columnAt tab q + d) : rule.LinesUp b' tab O p := by
  have hcan : ∀ q ∈ O, rule.CanContinue (b.lineAt q) ↔ rule.CanContinue (b'.lineAt q) := by
    intro q hq
    rw [← rule.continues_iff, rule.continues_congr (hcore q hq), rule.continues_iff]
  refine ⟨h.mem, (hcan p h.mem).1 h.canContinue, fun q hq hpq => ?_, fun q hq hpq => ?_,
    fun q hq hpq hq' => ?_⟩
  · have hlt := h.outside q hq hpq
    rw [hcol p h.mem, hcol q hq]
    omega
  · rw [← firstWord_congr (hcore q hq)]
    exact h.noStop q hq hpq
  · obtain ⟨r, hr, hqr, hle⟩ := h.shut q hq hpq ((hcan q hq).2 hq')
    refine ⟨r, hr, hqr, ?_⟩
    rw [hcol r hr, hcol q hq]
    omega

namespace Buffer

/-- The lines above line `k` are moved to the right by `d` columns, each with spaces or with tabs,
and the others are as they were. -/
structure ShiftedAbove (b b' : Buffer) (tab d : Int) (k : Nat) : Prop where
  count_eq : b'.count = b.count
  moved : ∀ j, j < k → ∃ tabs,
    b'.lineAt j = reindent tabs tab (FabEdit.column tab (b.lineAt j) + d) (b.lineAt j)
  kept : ∀ j, k ≤ j → b'.lineAt j = b.lineAt j

namespace ShiftedAbove

variable {b b' : Buffer} {tab d : Int} {k : Nat} (h : b.ShiftedAbove b' tab d k)

include h

theorem content_eq (j : Nat) : (b.lineAt j).content = (b'.lineAt j).content := by
  rcases Nat.lt_or_ge j k with hj | hj
  · obtain ⟨tabs, hline⟩ := h.moved j hj
    rw [hline, content_reindent]
  · rw [h.kept j hj]

theorem core_eq (j : Nat) : (b.lineAt j).core = (b'.lineAt j).core :=
  Text.core_congr (h.content_eq j)

theorem columnAt_eq (htab : 0 < tab) (hd : 0 ≤ d) {j : Nat} (hj : j < k) :
    b'.columnAt tab j = b.columnAt tab j + d := by
  obtain ⟨tabs, hline⟩ := h.moved j hj
  have hnonneg : 0 ≤ FabEdit.column tab (b.lineAt j) := column_nonneg htab _
  rw [columnAt, columnAt, hline, column_reindent htab]
  omega

/-- The same lines open a block. -/
theorem openersBefore_eq (hk : k ≤ b.count) (openers : WordSet) :
    b'.openersBefore (.ofBuffer b') openers k = b.openersBefore (.ofBuffer b) openers k := by
  refine Finset.filter_congr fun j hj => ?_
  have hlt : j < b.count := Nat.lt_of_lt_of_le (Finset.mem_range.1 hj) hk
  have hlt' : j < b'.count := h.count_eq.symm ▸ hlt
  have hkind : b.kindAt (.ofBuffer b) j = b'.kindAt (.ofBuffer b') j :=
    kindAt_congr hlt hlt' fun i _ => h.core_eq i
  rw [Opens, Opens, kind_natCast hlt, kind_natCast hlt', hkind, firstWord_congr (h.core_eq j)]

/-- The same opener is lined up with. -/
theorem linesUp_iff (htab : 0 < tab) (hd : 0 ≤ d) {rule : Continuation} {O : Finset Nat}
    (hO : ∀ q ∈ O, q < k) {p : Nat} : rule.LinesUp b' tab O p ↔ rule.LinesUp b tab O p := by
  have hcol : ∀ q ∈ O, b'.columnAt tab q = b.columnAt tab q + d :=
    fun q hq => h.columnAt_eq htab hd (hO q hq)
  constructor
  · refine fun hp => hp.shift (d := -d) (fun q _ => (h.core_eq q).symm) fun q hq => ?_
    rw [hcol q hq]
    omega
  · exact fun hp => hp.shift (fun q _ => h.core_eq q) hcol

end ShiftedAbove

end Buffer

/-- Below an opener, a line moves with the lines above it. -/
theorem Buffer.ShiftedAbove.structuralColumn_eq {layout : Layout} {b b' : Buffer} {d : Int}
    {i : Nat} (h : b.ShiftedAbove b' layout.tab d i) (htab : 0 < layout.tab) (hd : 0 ≤ d)
    (hi : i ≤ b.count) (hne : (b.openersBefore (.ofBuffer b) layout.openers i).Nonempty)
    (width : Int) :
    ∃ col, structuralColumn layout b (.ofBuffer b) width i = .ok col ∧
      structuralColumn layout b' (.ofBuffer b') width i = .ok (col + d) := by
  have hi' : i ≤ b'.count := h.count_eq.symm ▸ hi
  have hline := h.kept i (Nat.le_refl i)
  have hsame := h.openersBefore_eq hi layout.openers
  have hcol : ∀ q ∈ b.openersBefore (.ofBuffer b) layout.openers i,
      b'.columnAt layout.tab q = b.columnAt layout.tab q + d :=
    fun q hq => h.columnAt_eq htab hd (Buffer.mem_openersBefore.1 hq).1
  have hup : ∀ (rule : Continuation) (p : Nat),
      rule.LinesUp b' layout.tab (b'.openersBefore (.ofBuffer b') layout.openers i) p ↔
        rule.LinesUp b layout.tab (b.openersBefore (.ofBuffer b) layout.openers i) p := by
    intro rule p
    rw [hsame]
    exact h.linesUp_iff htab hd fun q hq => (Buffer.mem_openersBefore.1 hq).1
  rcases Buffer.openersAbove_cases _ layout.openers hi with ⟨hnone, -⟩ | ⟨m, -, hm, -⟩
  · exact absurd hne (Finset.not_nonempty_iff_eq_empty.2 hnone)
  have hm' : IsGreatest (b'.openersBefore (.ofBuffer b') layout.openers i : Set Nat) m :=
    hsame.symm ▸ hm
  rcases structuralColumn_of_isGreatest width hi hm with
    ⟨hmark, hcolumn⟩ | ⟨hmark, rule, p, hrule, hp, hcolumn⟩ | ⟨hmark, hnone, hcolumn⟩
  · refine ⟨_, hcolumn, ?_⟩
    rw [← hcol m hm.1]
    exact structuralColumn_annotation_line width hi' hm' (hline ▸ hmark)
  · refine ⟨_, hcolumn, ?_⟩
    rw [← hcol p hp.mem]
    exact structuralColumn_of_linesUp width hi' (hline ▸ hmark) (hline ▸ hrule) ((hup rule p).2 hp)
  · refine ⟨_, hcolumn, ?_⟩
    rw [Int.add_right_comm, ← hcol m hm.1]
    refine structuralColumn_of_not_linesUp width hi' hm' (hline ▸ hmark) fun rule hrule p hp => ?_
    exact hnone rule (hline ▸ hrule) p ((hup rule p).1 hp)

/-- Shifting the code above a line shifts the answer for it. If every line above is moved to the
right by the same distance, with spaces or with tabs, the answer to a first request grows by exactly
that distance if there is an opener above the line, and stays 0 if there is none. Widths that are
refused are refused all the same. -/
theorem request_shift_lines_above (layout : Layout) (width d : Int) (b b' : Buffer) (i : Int)
    (htab : 1 ≤ layout.tab) (hd : 0 ≤ d) (hi : b.InRange i)
    (hshift : b.ShiftedAbove b' layout.tab d i.toNat) :
    let O := b.openersBefore (.ofBuffer b) layout.openers i.toNat
    (1 ≤ width → ∃ col, request layout b (.ofBuffer b) width .fresh i = .ok (.found col) ∧
      (O.Nonempty → request layout b' (.ofBuffer b') width .fresh i = .ok (.found (col + d))) ∧
      (O = ∅ → col = 0 ∧ request layout b' (.ofBuffer b') width .fresh i = .ok (.found 0))) ∧
    (width < 1 → ∃ e, request layout b (.ofBuffer b) width .fresh i = .error e ∧
      request layout b' (.ofBuffer b') width .fresh i = .error e) := by
  intro O
  obtain ⟨k, rfl, hk⟩ := hi.exists_natCast
  rw [Int.toNat_natCast] at hshift
  have hle : k ≤ b.count := Nat.le_of_lt hk
  have hk' : k < b'.count := hshift.count_eq.symm ▸ hk
  refine ⟨fun hwidth => ?_, fun hwidth => ?_⟩
  · rcases O.eq_empty_or_nonempty with hnone | hsome
    · have hnone' : b'.openersBefore (.ofBuffer b') layout.openers k = ∅ :=
        (hshift.openersBefore_eq hle layout.openers).trans hnone
      have hcol := structuralColumn_of_no_opener width hle hnone
      have hcol' := structuralColumn_of_no_opener width (Nat.le_of_lt hk') hnone'
      refine ⟨0, (request_of_structuralColumn hk hwidth htab hcol).1, fun hsome => ?_, fun _ => ?_⟩
      · exact absurd hnone hsome.ne_empty
      · exact ⟨rfl, (request_of_structuralColumn hk' hwidth htab hcol').1⟩
    · obtain ⟨col, hcol, hcol'⟩ := hshift.structuralColumn_eq htab hd hle hsome width
      refine ⟨col, (request_of_structuralColumn hk hwidth htab hcol).1, fun _ => ?_,
        fun hnone => ?_⟩
      · exact (request_of_structuralColumn hk' hwidth htab hcol').1
      · exact absurd hnone hsome.ne_empty
  · exact ⟨_, if_pos hwidth, if_pos hwidth⟩

/-- A branch below code that is indented in many ways. -/
private def leaning : Buffer := ⟨["fn f()", " \tif a", "\t  x = 1", "else"].map String.toList⟩

/-- The same three columns further to the right, with spaces, with tabs and with spaces. -/
private def leaningFurther : Buffer :=
  ⟨["   fn f()", "\t   if a", "             x = 1", "else"].map String.toList⟩

private theorem shiftedAbove_leaning : leaning.ShiftedAbove leaningFurther 8 3 3 := by
  refine ⟨rfl, fun j hj => ?_, fun j hj => ?_⟩
  · obtain rfl | rfl | rfl : j = 0 ∨ j = 1 ∨ j = 2 := by omega
    · exact ⟨false, rfl⟩
    · exact ⟨true, rfl⟩
    · exact ⟨false, rfl⟩
  · obtain ⟨n, rfl⟩ := Nat.exists_eq_add_of_le' hj
    cases n <;> rfl

/-- The branch goes with the condition it lines up with, from column 8 to column 11. -/
theorem request_leaning :
    request Config.default.layout leaning (.ofBuffer leaning) 4 .fresh 3 = .ok (.found 8) ∧
      request Config.default.layout leaningFurther (.ofBuffer leaningFurther) 4 .fresh 3 =
        .ok (.found 11) := by
  obtain ⟨hanswer, -⟩ := request_shift_lines_above Config.default.layout 4 3 leaning
    leaningFurther 3 (by decide) (by decide) (by decide) shiftedAbove_leaning
  obtain ⟨col, hcol, hshifted, -⟩ := hanswer (by decide)
  have hplace : request Config.default.layout leaning (.ofBuffer leaning) 4 .fresh 3 =
      .ok (.found 8) := by
    rw [request, if_neg (by decide), if_neg (by decide)]
    exact congrArg Except.ok (by decide +kernel)
  obtain rfl : 8 = col := by
    rw [hplace] at hcol
    cases hcol
    rfl
  exact ⟨hplace, hshifted ⟨1, by decide +kernel⟩⟩

end FabEdit
