import FabEdit.Proofs.PeerSearch
import FabEdit.Proofs.CheckedEngine

/-!
# What a walk up meets

A walk up from an index looks for source lines, and for those among them that open a block. The
index may be anything: below the first line there is nothing to meet, and past the end the walk
starts at the last line. Under an oracle that never fails the walk comes to the top of the buffer,
and what it has met is described here without a walk.

Shape of the argument:

* `Buffer.rowsAbove` lists the lines above a line that have a property, nearest first. The trail of
  the source lines is such a list (`toList_sourcesAbove`), so the trail of the openers, which leaves
  some rows out, is one too (`toList_openersAbove`).
* A walk that has stopped at a source line can be taken up again from there
  (`sourcesAbove_eq_row`). `Buffer.Restarts` is the walk that does so at every source line it
  meets, and it yields the same lines (`restarts_of_toList`).
-/

namespace FabEdit

namespace Trail

/-- A trail with a row can be read as a whole exactly if what lies above the row can. -/
theorem toList_row_eq_ok_iff {r : Row} {above : Trail} {rows : List Row} :
    (row r above).toList = .ok rows ↔ ∃ rest, above.toList = .ok rest ∧ rows = r :: rest := by
  rw [toList]
  cases above.toList with
  | error e => simp [Except.map]
  | ok rest => simp [Except.map, eq_comm]

theorem first?_of_toList {tr : Trail} {rows : List Row} (h : tr.toList = .ok rows) :
    tr.first? = .ok rows.head? := by
  cases tr with
  | done => cases h; rfl
  | fault e => cases h
  | row r above =>
    obtain ⟨rest, -, rfl⟩ := toList_row_eq_ok_iff.1 h
    rfl

theorem exists_eq_row_of_toList {tr : Trail} {r : Row} {rows : List Row}
    (h : tr.toList = .ok (r :: rows)) : ∃ above, tr = .row r above ∧ above.toList = .ok rows := by
  cases tr with
  | done => cases h
  | fault e => cases h
  | row s above =>
    obtain ⟨rest, hrest, heq⟩ := toList_row_eq_ok_iff.1 h
    cases heq
    exact ⟨above, rfl, hrest⟩

theorem toList_filter (p : Row → Bool) (tr : Trail) :
    (tr.filter p).toList = tr.toList.map (List.filter p) := by
  induction tr with
  | done => rfl
  | fault e => rfl
  | row r above ih =>
    rw [filter, toList]
    cases habove : above.toList with
    | error e =>
      rw [habove] at ih
      split
      · rw [toList, ih]; rfl
      · exact ih
    | ok rest =>
      rw [habove] at ih
      split
      next hr =>
        rw [toList, ih]
        exact congrArg Except.ok (List.filter_cons_of_pos hr).symm
      next hr => exact ih.trans (congrArg Except.ok (List.filter_cons_of_neg hr).symm)

end Trail

namespace Buffer

variable {b : Buffer} {o : Oracle} {k : Nat}

/-! ## Lines from the bottom up -/

/-- Line `j` is a source line. -/
def IsSource (b : Buffer) (o : Oracle) (j : Nat) : Prop := b.kind o j = .ok .source

instance (b : Buffer) (o : Oracle) : DecidablePred (b.IsSource o) := fun j =>
  inferInstanceAs (Decidable (b.kind o j = .ok .source))

/-- The lines above line `k` that have a property, nearest first. -/
def rowsAbove (b : Buffer) (p : Nat → Prop) [DecidablePred p] (k : Nat) : List Row :=
  ((List.range k).reverse.filter p).map fun j => ⟨j, b.lineAt j⟩

section RowsAbove

variable {p : Nat → Prop} [DecidablePred p]

theorem rowsAbove_succ :
    b.rowsAbove p (k + 1) =
      if p k then ⟨k, b.lineAt k⟩ :: b.rowsAbove p k else b.rowsAbove p k := by
  rw [rowsAbove, List.range_succ, List.reverse_append, List.reverse_singleton,
    List.singleton_append, List.filter_cons]
  by_cases hp : p k <;> simp [hp, rowsAbove]

theorem mem_rowsAbove {r : Row} :
    r ∈ b.rowsAbove p k ↔ r.index < k ∧ p r.index ∧ r.line = b.lineAt r.index := by
  rw [rowsAbove, List.mem_map]
  constructor
  · rintro ⟨j, hj, rfl⟩
    rw [List.mem_filter, List.mem_reverse, List.mem_range, decide_eq_true_eq] at hj
    exact ⟨hj.1, hj.2, rfl⟩
  · rintro ⟨hlt, hp, hline⟩
    refine ⟨r.index, List.mem_filter.2 ⟨?_, decide_eq_true hp⟩, ?_⟩
    · rwa [List.mem_reverse, List.mem_range]
    · rw [← hline]

/-- Each line stands once, and the walk moves up. -/
theorem pairwise_rowsAbove : (b.rowsAbove p k).Pairwise fun r s => s.index < r.index := by
  rw [rowsAbove, List.pairwise_map]
  have hdown : (List.range k).reverse.Pairwise fun i j => j < i :=
    List.pairwise_reverse.2 List.pairwise_lt_range
  exact hdown.filter _

/-- The first line met is the lowest. -/
theorem index_le_of_head?_rowsAbove {r s : Row} (hr : (b.rowsAbove p k).head? = some r)
    (hs : s ∈ b.rowsAbove p k) : s.index ≤ r.index := by
  obtain ⟨rest, hrows⟩ := List.head?_eq_some_iff.1 hr
  have hdown : (b.rowsAbove p k).Pairwise fun r s => s.index < r.index := pairwise_rowsAbove
  rw [hrows] at hs hdown
  rcases List.mem_cons.1 hs with rfl | hlater
  · exact Nat.le_refl _
  · exact Nat.le_of_lt (List.rel_of_pairwise_cons hdown hlater)

theorem filter_rowsAbove (q : Row → Bool) :
    (b.rowsAbove p k).filter q = b.rowsAbove (fun j => p j ∧ q ⟨j, b.lineAt j⟩ = true) k := by
  rw [rowsAbove, rowsAbove, List.filter_map, List.filter_filter]
  congr 1
  refine List.filter_congr fun j _ => ?_
  simp [Bool.and_comm]

end RowsAbove

/-! ## The trails -/

/-- Under an oracle that never fails, a walk up passes every line that is no source line. -/
theorem sourcesAbove_succ_ofPredicate (inside : Nat → Bool) (hk : k < b.count) :
    b.sourcesAbove (.ofPredicate inside) (k + 1) =
      if b.IsSource (.ofPredicate inside) k then
        .row ⟨k, b.lineAt k⟩ (b.sourcesAbove (.ofPredicate inside) k)
      else b.sourcesAbove (.ofPredicate inside) k := by
  obtain ⟨kind, hok⟩ := b.exists_kindAt_ofPredicate inside k
  have hsource : b.IsSource (.ofPredicate inside) k ↔ kind = .source := by
    rw [IsSource, kind_natCast hk, hok, Except.ok.injEq]
  rw [sourcesAbove, hok]
  cases kind <;> simp [hsource]

theorem toList_sourcesAbove (inside : Nat → Bool) (hk : k ≤ b.count) :
    (b.sourcesAbove (.ofPredicate inside) k).toList =
      .ok (b.rowsAbove (b.IsSource (.ofPredicate inside)) k) := by
  induction k with
  | zero => rfl
  | succ k ih =>
    rw [sourcesAbove_succ_ofPredicate inside hk, rowsAbove_succ]
    split
    · rw [Trail.toList, ih (Nat.le_of_succ_le hk)]
      rfl
    · exact ih (Nat.le_of_succ_le hk)

/-- The openers are the source lines whose first word opens a block. -/
theorem filter_rowsAbove_isSource (o : Oracle) (openers : WordSet) :
    ((b.rowsAbove (b.IsSource o) k).filter fun r => decide (r.line.firstWord ∈ openers)) =
      b.rowsAbove (b.Opens o openers) k := by
  rw [filter_rowsAbove]
  simp only [decide_eq_true_eq]
  rfl

theorem toList_openersAbove (inside : Nat → Bool) (openers : WordSet) (hk : k ≤ b.count) :
    (b.openersAbove (.ofPredicate inside) openers k).toList =
      .ok (b.rowsAbove (b.Opens (.ofPredicate inside) openers) k) := by
  rw [openersAbove, Trail.toList_filter, toList_sourcesAbove inside hk]
  exact congrArg Except.ok (filter_rowsAbove_isSource _ openers)

/-- A walk that has stopped at a source line can be taken up again from there. -/
theorem sourcesAbove_eq_row {r : Row} {above : Trail} (h : b.sourcesAbove o k = .row r above) :
    r.index < k ∧ above = b.sourcesAbove o r.index := by
  induction k with
  | zero => cases h
  | succ k ih =>
    rw [sourcesAbove] at h
    split at h
    · cases h
    · cases h
      exact ⟨Nat.lt_succ_self k, rfl⟩
    · obtain ⟨hlt, habove⟩ := ih h
      exact ⟨Nat.lt_succ_of_lt hlt, habove⟩

/-! ## Walks that start again -/

/-- The walk up from an index that starts again from every source line it meets, and yields the
indices of those that open a block. It ends where there is no source line above. -/
inductive Restarts (b : Buffer) (o : Oracle) (openers : WordSet) : Int → List Nat → Prop
  | top {i : Int} (h : (b.sourcesAbove o (b.linesAbove i)).first? = .ok none) :
      Restarts b o openers i []
  | yield {i : Int} {r : Row} {js : List Nat}
      (h : (b.sourcesAbove o (b.linesAbove i)).first? = .ok (some r))
      (hopens : r.line.firstWord ∈ openers) (rest : Restarts b o openers r.index js) :
      Restarts b o openers i (r.index :: js)
  | pass {i : Int} {r : Row} {js : List Nat}
      (h : (b.sourcesAbove o (b.linesAbove i)).first? = .ok (some r))
      (hopens : r.line.firstWord ∉ openers) (rest : Restarts b o openers r.index js) :
      Restarts b o openers i js

/-- A walk that starts again meets what a walk without a stop meets. -/
theorem restarts_of_toList (openers : WordSet) {i : Int} {rows : List Row}
    (h : (b.sourcesAbove o (b.linesAbove i)).toList = .ok rows) :
    b.Restarts o openers i
      ((rows.filter fun r => decide (r.line.firstWord ∈ openers)).map Row.index) := by
  induction rows generalizing i with
  | nil => exact .top (Trail.first?_of_toList h)
  | cons r rows ih =>
    have hfirst : (b.sourcesAbove o (b.linesAbove i)).first? = .ok (some r) :=
      Trail.first?_of_toList h
    have hrest : (b.sourcesAbove o (b.linesAbove r.index)).toList = .ok rows := by
      obtain ⟨above, htrail, habove⟩ := Trail.exists_eq_row_of_toList h
      obtain ⟨hlt, rfl⟩ := sourcesAbove_eq_row htrail
      have hle : r.index ≤ b.count := Nat.le_trans (Nat.le_of_lt hlt) (Nat.min_le_right _ _)
      rwa [Checked.linesAbove_natCast hle]
    by_cases hopens : r.line.firstWord ∈ openers
    · rw [List.filter_cons_of_pos (by simpa using hopens)]
      exact .yield hfirst hopens (ih hrest)
    · rw [List.filter_cons_of_neg (by simpa using hopens)]
      exact .pass hfirst hopens (ih hrest)

/-- The lines above an index, which may be outside the buffer. -/
theorem exists_mem_rowsAbove_iff {p : Nat → Prop} [DecidablePred p] {i j : Int} :
    (∃ r ∈ b.rowsAbove p (b.linesAbove i), r.index = j) ↔
      0 ≤ j ∧ j < min i b.count ∧ p j.toNat := by
  rw [linesAbove]
  constructor
  · rintro ⟨r, hr, rfl⟩
    obtain ⟨hlt, hp, -⟩ := mem_rowsAbove.1 hr
    exact ⟨by omega, by omega, hp⟩
  · rintro ⟨hlow, hhigh, hp⟩
    have hlt : j.toNat < min i.toNat b.count := by omega
    exact ⟨⟨j.toNat, b.lineAt j.toNat⟩, mem_rowsAbove.2 ⟨hlt, hp, rfl⟩, Int.toNat_of_nonneg hlow⟩

/-- Whether a line opens a block, asked at its index. -/
theorem opens_toNat_iff {openers : WordSet} {j : Int} (hj : b.InRange j) :
    b.Opens o openers j.toNat ↔
      b.kind o j = .ok .source ∧ ∃ w ∈ openers, b.firstWord j = .ok w := by
  obtain ⟨n, rfl, hn⟩ := hj.exists_natCast
  rw [Int.toNat_natCast, Opens, firstWord_natCast hn]
  simp

end Buffer

/-- A walk up from any index comes to an end under an oracle that never fails. It yields exactly the
source lines above the index whose first word opens a block, each once and from the bottom up, and
the first of them is what a search for one opener finds. A search for one source line finds the
greatest one above the index, or nothing if there is none. Nothing is skipped or met twice by
starting the walk again from each source line it meets. -/
theorem walk_up_yields_openers (b : Buffer) (inside : Nat → Bool) (openers : WordSet) (i : Int) :
    let o := Oracle.ofPredicate inside
    let sources := {j : Int | 0 ≤ j ∧ j < min i b.count ∧ b.kind o j = .ok .source}
    ∃ (rows : List Row) (source : Option Row),
      (b.openersAbove o openers (b.linesAbove i)).toList = .ok rows ∧
      (∀ j : Int, (∃ r ∈ rows, r.index = j) ↔
        j ∈ sources ∧ ∃ w ∈ openers, b.firstWord j = .ok w) ∧
      (rows.Pairwise fun r s => s.index < r.index) ∧
      (b.openersAbove o openers (b.linesAbove i)).first? = .ok rows.head? ∧
      (b.sourcesAbove o (b.linesAbove i)).first? = .ok source ∧
      (∀ r ∈ source, IsGreatest sources r.index) ∧
      (source = none → sources = ∅) ∧
      b.Restarts o openers i (rows.map Row.index) := by
  intro o sources
  have hk : b.linesAbove i ≤ b.count := Nat.min_le_right _ _
  have hsources := Buffer.toList_sourcesAbove inside hk
  have hopeners := Buffer.toList_openersAbove inside openers hk
  have hmem : ∀ j : Int, j ∈ sources ↔
      ∃ r ∈ b.rowsAbove (b.IsSource o) (b.linesAbove i), r.index = j := by
    intro j
    rw [Buffer.exists_mem_rowsAbove_iff, Buffer.IsSource]
    exact and_congr_right fun hlow => by rw [Int.toNat_of_nonneg hlow]
  refine ⟨_, _, hopeners, fun j => ?_, Buffer.pairwise_rowsAbove, Trail.first?_of_toList hopeners,
    Trail.first?_of_toList hsources, fun r hr => ?_, fun hnone => ?_, ?_⟩
  · rw [Buffer.exists_mem_rowsAbove_iff]
    constructor
    · rintro ⟨hlow, hhigh, hopens⟩
      obtain ⟨hkind, hword⟩ := (Buffer.opens_toNat_iff ⟨hlow, by omega⟩).1 hopens
      exact ⟨⟨hlow, hhigh, hkind⟩, hword⟩
    · rintro ⟨⟨hlow, hhigh, hkind⟩, hword⟩
      exact ⟨hlow, hhigh, (Buffer.opens_toNat_iff ⟨hlow, by omega⟩).2 ⟨hkind, hword⟩⟩
  · refine ⟨(hmem _).2 ⟨r, List.mem_of_head? hr, rfl⟩, fun j hj => ?_⟩
    obtain ⟨s, hs, rfl⟩ := (hmem j).1 hj
    exact Int.ofNat_le.2 (Buffer.index_le_of_head?_rowsAbove hr hs)
  · refine Set.eq_empty_of_forall_notMem fun j hj => ?_
    obtain ⟨r, hr, -⟩ := (hmem j).1 hj
    rw [List.head?_eq_none_iff.1 hnone] at hr
    exact List.not_mem_nil hr
  · rw [← Buffer.filter_rowsAbove_isSource]
    exact Buffer.restarts_of_toList openers hsources

end FabEdit
