import FabEdit.Proofs.LinesAbove
import Mathlib.Data.Finset.Basic
import Mathlib.Data.Finset.Range
import Mathlib.Order.Bounds.Basic

/-!
# Which opener a line follows

The engine walks up from a line, opener by opener, and stops as soon as it knows the answer. This
module describes the same answer without any order of visits, over the set of the openers above the
line (`Buffer.openersBefore`).

Shape of the argument:

* `Continuation.LinesUp` says of one opener of the set that a continuation lines up with it. No two
  openers of a set can have that property (`LinesUp.unique`).
* `Continuation.Passed` is the invariant of the walk: the ceiling sums up the columns passed, and
  nothing passed has ended the walk. One more line keeps it, as long as that line neither is the
  answer nor ends the walk, so the walk finds exactly the opener to line up with (`findPeer_spec`).
* `structuralColumn` then follows from the greatest opener of the set and from the opener to line
  up with (`structuralColumn_of_isGreatest`, `structuralColumn_of_linesUp`).
-/

namespace FabEdit

/-- The oracle of a predicate on positions. It never fails. -/
def Oracle.ofPredicate (inside : Nat → Bool) : Oracle := fun p => .ok (inside p)

namespace Buffer

variable (b : Buffer)

/-- The column of line `j`. -/
def columnAt (tab : Int) (j : Nat) : Int := FabEdit.column tab (b.lineAt j)

/-- Line `j` is a source line whose first word opens a block. -/
def Opens (o : Oracle) (openers : WordSet) (j : Nat) : Prop :=
  b.kind o j = .ok .source ∧ (b.lineAt j).firstWord ∈ openers

instance (o : Oracle) (openers : WordSet) : DecidablePred (b.Opens o openers) := fun j =>
  inferInstanceAs (Decidable (b.kind o j = .ok .source ∧ (b.lineAt j).firstWord ∈ openers))

/-- The lines above line `i` that open a block. -/
def openersBefore (o : Oracle) (openers : WordSet) (i : Nat) : Finset Nat :=
  (Finset.range i).filter (b.Opens o openers)

variable {b}

theorem mem_openersBefore {o : Oracle} {openers : WordSet} {i j : Nat} :
    j ∈ b.openersBefore o openers i ↔ j < i ∧ b.Opens o openers j := by
  rw [openersBefore, Finset.mem_filter, Finset.mem_range]

/-- An oracle that never fails leaves no line unjudged. -/
theorem exists_kindAt_ofPredicate (b : Buffer) (inside : Nat → Bool) (k : Nat) :
    ∃ kind, b.kindAt (.ofPredicate inside) k = .ok kind := by
  rw [kindAt_eq]
  split
  · exact ⟨_, rfl⟩
  · split
    · exact ⟨_, rfl⟩
    · exact ⟨_, rfl⟩

/-- Under an oracle that never fails, a walk up meets every opener. -/
theorem openersAbove_succ_ofPredicate (inside : Nat → Bool) (openers : WordSet) {k : Nat}
    (hk : k < b.count) :
    b.openersAbove (.ofPredicate inside) openers (k + 1) =
      if b.Opens (.ofPredicate inside) openers k then
        .row ⟨k, b.lineAt k⟩ (b.openersAbove (.ofPredicate inside) openers k)
      else b.openersAbove (.ofPredicate inside) openers k := by
  have hkind : b.kind (.ofPredicate inside) k = b.kindAt (.ofPredicate inside) k :=
    kind_natCast hk _
  obtain ⟨kind, hok⟩ := b.exists_kindAt_ofPredicate inside k
  have hopens : b.Opens (.ofPredicate inside) openers k ↔
      kind = .source ∧ (b.lineAt k).firstWord ∈ openers := by
    rw [Opens, hkind, hok, Except.ok.injEq]
  rw [openersAbove_succ, hok]
  cases kind <;> simp [hopens]

theorem openersAbove_whole_ofPredicate (inside : Nat → Bool) (openers : WordSet) {k : Nat}
    (hk : k ≤ b.count) : (b.openersAbove (.ofPredicate inside) openers k).Whole := by
  induction k with
  | zero => trivial
  | succ k ih =>
    rw [openersAbove_succ_ofPredicate inside openers (by omega)]
    split
    · exact ih (by omega)
    · exact ih (by omega)

/-- A walk up meets the nearest opener first, if there is any. -/
theorem openersAbove_cases (inside : Nat → Bool) (openers : WordSet) {k : Nat} (hk : k ≤ b.count) :
    (b.openersBefore (.ofPredicate inside) openers k = ∅ ∧
      b.openersAbove (.ofPredicate inside) openers k = .done) ∨
    ∃ m above, IsGreatest (b.openersBefore (.ofPredicate inside) openers k : Set Nat) m ∧
      b.openersAbove (.ofPredicate inside) openers k = .row ⟨m, b.lineAt m⟩ above := by
  induction k with
  | zero => exact .inl ⟨rfl, rfl⟩
  | succ k ih =>
    rw [openersAbove_succ_ofPredicate inside openers (by omega)]
    split
    next hopens =>
      refine .inr ⟨k, _, ⟨mem_openersBefore.2 ⟨Nat.lt_succ_self k, hopens⟩, ?_⟩, rfl⟩
      intro q hq
      exact Nat.le_of_lt_succ (mem_openersBefore.1 hq).1
    next hopens =>
      have hsame : b.openersBefore (.ofPredicate inside) openers (k + 1) =
          b.openersBefore (.ofPredicate inside) openers k := by
        rw [openersBefore, Finset.range_add_one, Finset.filter_insert, if_neg hopens, openersBefore]
      rw [hsame]
      exact ih (by omega)

end Buffer

/-! ## Lining up -/

namespace Continuation

/-- An opener line can take another branch: it starts with a peer, and if this peer is terminal,
another peer follows as the second word. -/
def CanContinue (rule : Continuation) (l : Text) : Prop :=
  l.firstWord ∈ rule.peers ∧
    (l.firstWord ∈ rule.terminal → ∃ second ∈ l.words[1]?, second ∈ rule.peers)

instance (rule : Continuation) : DecidablePred rule.CanContinue := fun l =>
  inferInstanceAs (Decidable (l.firstWord ∈ rule.peers ∧
    (l.firstWord ∈ rule.terminal → ∃ second ∈ l.words[1]?, second ∈ rule.peers)))

theorem continues_iff (rule : Continuation) (l : Text) :
    rule.continues l = true ↔ rule.CanContinue l := by
  rw [continues_eq, CanContinue]
  simp [or_iff_not_imp_left, Option.any_eq_true]

/-- Among the openers `O`, line `p` is the one that a continuation lines up with: it can take
another branch and lies left of every opener below it, none of which ends the search, and each
opener below it that could take a branch is shut off by one further down that lies no deeper. -/
structure LinesUp (rule : Continuation) (b : Buffer) (tab : Int) (O : Finset Nat) (p : Nat) :
    Prop where
  mem : p ∈ O
  canContinue : rule.CanContinue (b.lineAt p)
  outside : ∀ q ∈ O, p < q → b.columnAt tab p < b.columnAt tab q
  noStop : ∀ q ∈ O, p < q → (b.lineAt q).firstWord ∉ rule.stops
  shut : ∀ q ∈ O, p < q → rule.CanContinue (b.lineAt q) →
    ∃ r ∈ O, q < r ∧ b.columnAt tab r ≤ b.columnAt tab q

variable {rule : Continuation} {b : Buffer} {tab : Int} {O : Finset Nat}

/-- Nothing below the opener to line up with could be lined up with. -/
theorem LinesUp.le {p q : Nat} (hp : rule.LinesUp b tab O p) (hq : rule.LinesUp b tab O q) :
    q ≤ p := by
  by_contra hlt
  obtain ⟨r, hr, hqr, hcol⟩ := hp.shut q hq.mem (by omega) hq.canContinue
  have := hq.outside r hr hqr
  omega

/-- A continuation lines up with one opener at most. -/
theorem LinesUp.unique {p q : Nat} (hp : rule.LinesUp b tab O p) (hq : rule.LinesUp b tab O q) :
    p = q :=
  Nat.le_antisymm (hq.le hp) (hp.le hq)

/-! ## The walk -/

/-- What holds when the walk has passed the openers from line `k` down: the ceiling is the least of
their columns, and none of them is the answer or ends the walk. -/
structure Passed (rule : Continuation) (b : Buffer) (tab : Int) (O : Finset Nat) (k : Nat)
    (ceiling : Option Int) : Prop where
  isOutside_iff : ∀ col, isOutside ceiling col = true ↔
    ∀ q ∈ O, k ≤ q → col < b.columnAt tab q
  noStop : ∀ q ∈ O, k ≤ q → (b.lineAt q).firstWord ∉ rule.stops
  shut : ∀ q ∈ O, k ≤ q → rule.CanContinue (b.lineAt q) →
    ∃ r ∈ O, q < r ∧ b.columnAt tab r ≤ b.columnAt tab q

theorem Passed.not_linesUp {k p : Nat} {ceiling : Option Int}
    (h : rule.Passed b tab O k ceiling) (hp : k ≤ p) : ¬ rule.LinesUp b tab O p := by
  intro hup
  obtain ⟨r, hr, hpr, hcol⟩ := h.shut p hup.mem hp hup.canContinue
  have := hup.outside r hr hpr
  omega

/-- A line that opens no block is passed without notice. -/
theorem Passed.skip {k : Nat} {ceiling : Option Int} (h : rule.Passed b tab O (k + 1) ceiling)
    (hk : k ∉ O) : rule.Passed b tab O k ceiling := by
  have hne : ∀ q ∈ O, k ≤ q → k + 1 ≤ q := by
    intro q hq hle
    have : q ≠ k := fun heq => hk (heq ▸ hq)
    omega
  refine ⟨fun col => (h.isOutside_iff col).trans ⟨?_, ?_⟩, ?_, ?_⟩
  · exact fun hall q hq hle => hall q hq (hne q hq hle)
  · exact fun hall q hq hle => hall q hq (by omega)
  · exact fun q hq hle => h.noStop q hq (hne q hq hle)
  · exact fun q hq hle => h.shut q hq (hne q hq hle)

theorem isOutside_lowerCeiling (ceiling : Option Int) (passed col : Int) :
    isOutside (some (lowerCeiling ceiling passed)) col = true ↔
      isOutside ceiling col = true ∧ col < passed := by
  have hsome : ∀ c, isOutside (some c) col = true ↔ col < c := fun c => decide_eq_true_iff
  rw [hsome]
  cases ceiling with
  | none => simp [isOutside, lowerCeiling]
  | some c => rw [hsome, lowerCeiling, lt_min_iff]

/-- An opener that neither is the answer nor ends the walk lowers the ceiling. -/
theorem Passed.lower {k : Nat} {ceiling : Option Int} (h : rule.Passed b tab O (k + 1) ceiling)
    (hk : k ∈ O)
    (hpeer : ¬ (rule.CanContinue (b.lineAt k) ∧ isOutside ceiling (b.columnAt tab k) = true))
    (hstop : (b.lineAt k).firstWord ∉ rule.stops) :
    rule.Passed b tab O k (some (lowerCeiling ceiling (b.columnAt tab k))) := by
  refine ⟨fun col => ?_, fun q hq hle => ?_, fun q hq hle hcan => ?_⟩
  · rw [isOutside_lowerCeiling, h.isOutside_iff]
    constructor
    · rintro ⟨hbelow, hself⟩ q hq hle
      rcases Nat.eq_or_lt_of_le hle with rfl | hlt
      · exact hself
      · exact hbelow q hq hlt
    · exact fun hall => ⟨fun q hq hle => hall q hq (by omega), hall k hk (Nat.le_refl k)⟩
  · rcases Nat.eq_or_lt_of_le hle with rfl | hlt
    · exact hstop
    · exact h.noStop q hq hlt
  · rcases Nat.eq_or_lt_of_le hle with rfl | hlt
    · -- The opener could take a branch, so it must lie under the ceiling.
      have hunder : ¬ ∀ r ∈ O, k + 1 ≤ r → b.columnAt tab k < b.columnAt tab r :=
        fun hall => hpeer ⟨hcan, (h.isOutside_iff _).2 hall⟩
      push Not at hunder
      exact hunder
    · exact h.shut q hq hlt hcan

/-- The walk from line `k` up finds the opener to line up with, and nothing else. -/
theorem findPeer_of_passed (inside : Nat → Bool) (openers : WordSet) {i k : Nat} (hki : k ≤ i)
    (hi : i ≤ b.count) {ceiling : Option Int}
    (h : rule.Passed b tab (b.openersBefore (.ofPredicate inside) openers i) k ceiling) :
    ∃ found : Option Nat,
      rule.findPeer tab ceiling (b.openersAbove (.ofPredicate inside) openers k) =
        .ok (found.map fun p => ⟨p, b.lineAt p⟩) ∧
      ∀ p, found = some p ↔
        rule.LinesUp b tab (b.openersBefore (.ofPredicate inside) openers i) p := by
  induction k generalizing ceiling with
  | zero =>
    refine ⟨none, rfl, fun p => iff_of_false (by simp) (h.not_linesUp (Nat.zero_le p))⟩
  | succ k ih =>
    rw [Buffer.openersAbove_succ_ofPredicate inside openers (by omega)]
    split
    next hopens =>
      have hk : k ∈ b.openersBefore (.ofPredicate inside) openers i :=
        Buffer.mem_openersBefore.2 ⟨by omega, hopens⟩
      rw [findPeer]
      split
      next hpeer =>
        -- Line `k` is the answer: it lies left of all that was passed.
        rw [Bool.and_eq_true, continues_iff] at hpeer
        have hup : rule.LinesUp b tab (b.openersBefore (.ofPredicate inside) openers i) k :=
          ⟨hk, hpeer.1, (h.isOutside_iff _).1 hpeer.2, h.noStop, h.shut⟩
        exact ⟨some k, rfl, fun p => ⟨fun heq => Option.some.inj heq ▸ hup,
          fun hp => congrArg some (hup.unique hp)⟩⟩
      next hpeer =>
        rw [Bool.and_eq_true, continues_iff] at hpeer
        split
        next hstop =>
          refine ⟨none, rfl, fun p => iff_of_false (by simp) fun hp => ?_⟩
          rcases Nat.lt_trichotomy p k with hlt | rfl | hgt
          · exact hp.noStop k hk hlt hstop
          · exact hpeer ⟨hp.canContinue, (h.isOutside_iff _).2 hp.outside⟩
          · exact h.not_linesUp hgt hp
        next hstop => exact ih (by omega) (h.lower hk hpeer hstop)
    next hopens =>
      exact ih (by omega) (h.skip fun hk => hopens (Buffer.mem_openersBefore.1 hk).2)

/-- The search finds the opener to line up with, and nothing else. -/
theorem findPeer_spec (rule : Continuation) (tab : Int) (inside : Nat → Bool) (openers : WordSet)
    {i : Nat} (hi : i ≤ b.count) :
    ∃ found : Option Nat,
      rule.findPeer tab none (b.openersAbove (.ofPredicate inside) openers i) =
        .ok (found.map fun p => ⟨p, b.lineAt p⟩) ∧
      ∀ p, found = some p ↔
        rule.LinesUp b tab (b.openersBefore (.ofPredicate inside) openers i) p := by
  have hbelow : ∀ q ∈ b.openersBefore (.ofPredicate inside) openers i, ¬ i ≤ q := by
    intro q hq
    have := (Buffer.mem_openersBefore.1 hq).1
    omega
  refine findPeer_of_passed inside openers (Nat.le_refl i) hi ⟨fun col => ?_, ?_, ?_⟩
  · exact iff_of_true rfl fun q hq hle => absurd hle (hbelow q hq)
  · exact fun q hq hle => absurd hle (hbelow q hq)
  · exact fun q hq hle => absurd hle (hbelow q hq)

end Continuation

/-! ## Columns -/

section Columns

variable {layout : Layout} {inside : Nat → Bool} {b : Buffer} {i m : Nat} (width : Int)

theorem structuralColumn_of_no_opener (hi : i ≤ b.count)
    (h : b.openersBefore (.ofPredicate inside) layout.openers i = ∅) :
    structuralColumn layout b (.ofPredicate inside) width i = .ok 0 := by
  rcases Buffer.openersAbove_cases inside layout.openers hi with ⟨-, hdone⟩ | ⟨m, above, hm, -⟩
  · rw [structuralColumn, hdone, columnBelow]
  · rw [h] at hm
    exact absurd hm.1 (by simp)

/-- Below an opener, the trail starts with the nearest one. -/
private theorem exists_openersAbove_eq_row (hi : i ≤ b.count)
    (hm : IsGreatest (b.openersBefore (.ofPredicate inside) layout.openers i : Set Nat) m) :
    ∃ above, b.openersAbove (.ofPredicate inside) layout.openers i =
      .row ⟨m, b.lineAt m⟩ above := by
  rcases Buffer.openersAbove_cases inside layout.openers hi with ⟨h, -⟩ | ⟨m', above, hm', htrail⟩
  · rw [h] at hm
    exact absurd hm.1 (by simp)
  · exact ⟨above, hm.unique hm' ▸ htrail⟩

theorem structuralColumn_annotation_line (hi : i ≤ b.count)
    (hm : IsGreatest (b.openersBefore (.ofPredicate inside) layout.openers i : Set Nat) m)
    (hline : isAnnotationLine (b.lineAt i) = true) :
    structuralColumn layout b (.ofPredicate inside) width i = .ok (b.columnAt layout.tab m) := by
  obtain ⟨above, htrail⟩ := exists_openersAbove_eq_row hi hm
  rw [structuralColumn, htrail, columnBelow, if_pos hline]
  rfl

/-- A continuation goes to the column of the opener it lines up with. -/
theorem structuralColumn_of_linesUp (hi : i ≤ b.count)
    (hline : isAnnotationLine (b.lineAt i) = false) {rule : Continuation}
    (hrule : layout.continuations.get? (b.lineAt i).firstWord = some rule) {p : Nat}
    (hp : rule.LinesUp b layout.tab (b.openersBefore (.ofPredicate inside) layout.openers i) p) :
    structuralColumn layout b (.ofPredicate inside) width i = .ok (b.columnAt layout.tab p) := by
  obtain ⟨found, hfind, hfound⟩ := rule.findPeer_spec layout.tab inside layout.openers hi
  rw [(hfound p).2 hp] at hfind
  unfold structuralColumn columnBelow
  rcases Buffer.openersAbove_cases inside layout.openers hi with ⟨hnone, -⟩ | ⟨m, above, -, htrail⟩
  · exact absurd hp.mem (by simp [hnone])
  · rw [htrail] at hfind ⊢
    simp only [hline, hrule, hfind]
    rfl

/-- Any other line, and a continuation with nothing to line up with, goes one level deeper than the
nearest opener. -/
theorem structuralColumn_of_not_linesUp (hi : i ≤ b.count)
    (hm : IsGreatest (b.openersBefore (.ofPredicate inside) layout.openers i : Set Nat) m)
    (hline : isAnnotationLine (b.lineAt i) = false)
    (hrule : ∀ rule, layout.continuations.get? (b.lineAt i).firstWord = some rule → ∀ p,
      ¬ rule.LinesUp b layout.tab (b.openersBefore (.ofPredicate inside) layout.openers i) p) :
    structuralColumn layout b (.ofPredicate inside) width i =
      .ok (b.columnAt layout.tab m + width) := by
  obtain ⟨above, htrail⟩ := exists_openersAbove_eq_row hi hm
  unfold structuralColumn columnBelow
  rw [htrail]
  simp only [hline]
  cases hget : layout.continuations.get? (b.lineAt i).firstWord with
  | none => rfl
  | some rule =>
    obtain ⟨found, hfind, hfound⟩ := rule.findPeer_spec layout.tab inside layout.openers hi
    rw [htrail] at hfind
    simp only [hfind]
    cases found with
    | none => rfl
    | some p => exact absurd ((hfound p).1 rfl) (hrule rule hget p)

/-- Below an opener there are three cases: an annotation, a continuation that has an opener to line
up with, and any other line. -/
theorem structuralColumn_of_isGreatest (hi : i ≤ b.count)
    (hm : IsGreatest (b.openersBefore (.ofPredicate inside) layout.openers i : Set Nat) m) :
    (isAnnotationLine (b.lineAt i) = true ∧
      structuralColumn layout b (.ofPredicate inside) width i = .ok (b.columnAt layout.tab m)) ∨
    (isAnnotationLine (b.lineAt i) = false ∧ ∃ rule p,
      layout.continuations.get? (b.lineAt i).firstWord = some rule ∧
      rule.LinesUp b layout.tab (b.openersBefore (.ofPredicate inside) layout.openers i) p ∧
      structuralColumn layout b (.ofPredicate inside) width i = .ok (b.columnAt layout.tab p)) ∨
    (isAnnotationLine (b.lineAt i) = false ∧
      (∀ rule, layout.continuations.get? (b.lineAt i).firstWord = some rule → ∀ p,
        ¬ rule.LinesUp b layout.tab (b.openersBefore (.ofPredicate inside) layout.openers i) p) ∧
      structuralColumn layout b (.ofPredicate inside) width i =
        .ok (b.columnAt layout.tab m + width)) := by
  by_cases hline : isAnnotationLine (b.lineAt i) = true
  · exact .inl ⟨hline, structuralColumn_annotation_line width hi hm hline⟩
  rw [Bool.not_eq_true] at hline
  by_cases hup : ∃ rule p, layout.continuations.get? (b.lineAt i).firstWord = some rule ∧
      rule.LinesUp b layout.tab (b.openersBefore (.ofPredicate inside) layout.openers i) p
  · obtain ⟨rule, p, hrule, hp⟩ := hup
    exact .inr (.inl ⟨hline, rule, p, hrule, hp,
      structuralColumn_of_linesUp width hi hline hrule hp⟩)
  · have hnone : ∀ rule, layout.continuations.get? (b.lineAt i).firstWord = some rule → ∀ p,
        ¬ rule.LinesUp b layout.tab (b.openersBefore (.ofPredicate inside) layout.openers i) p :=
      fun rule hrule p hp => hup ⟨rule, p, hrule, hp⟩
    exact .inr (.inr ⟨hline, hnone, structuralColumn_of_not_linesUp width hi hm hline hnone⟩)

end Columns

/-! ## Requests -/

/-- Both widths pass the check, so a request is answered by the place of the line: a first request
by the structural column, a repeated one by the next level to the left if there is one. -/
theorem request_of_structuralColumn {layout : Layout} {b : Buffer} {o : Oracle} {width col : Int}
    {i : Nat} (hi : i < b.count) (hwidth : 1 ≤ width) (htab : 1 ≤ layout.tab)
    (hcol : structuralColumn layout b o width i = .ok col) :
    request layout b o width .fresh i = .ok (.found col) ∧
    request layout b o width .again i = .ok (.found
      (if 0 ≤ b.columnAt layout.tab i - width then b.columnAt layout.tab i - width else col)) := by
  have hrange : b.InRange i := ⟨by omega, by omega⟩
  simp only [request, if_neg (show ¬ width < 1 by omega), if_neg (show ¬ layout.tab < 1 by omega),
    place, if_pos hrange, Int.toNat_natCast, hcol, Buffer.columnAt]
  refine ⟨rfl, ?_⟩
  split <;> simp_all [Placement.ofExcept]

/-- The whole decision, over the set of the openers above a line and without an order of visits. A
first request is answered by 0 without an opener; by the column of the nearest opener for an
annotation; by the column of the opener to line up with for a continuation that has one; and by one
level deeper than the nearest opener for every other line. A repeated request is answered by the
next level to the left, or like a first one if there is none. -/
theorem request_eq_reference (layout : Layout) (inside : Nat → Bool) (b : Buffer) (width : Int)
    (i : Nat) (hi : i < b.count) (hwidth : 1 ≤ width) (htab : 1 ≤ layout.tab) :
    let o := Oracle.ofPredicate inside
    let O := b.openersBefore o layout.openers i
    let col := b.columnAt layout.tab
    let rule? := layout.continuations.get? (b.lineAt i).firstWord
    ∃ fresh : Int,
      request layout b o width .fresh i = .ok (.found fresh) ∧
      request layout b o width .again i =
        .ok (.found (if 0 ≤ col i - width then col i - width else fresh)) ∧
      (O = ∅ → fresh = 0) ∧
      (∀ m, IsGreatest (O : Set Nat) m →
        (isAnnotationLine (b.lineAt i) = true → fresh = col m) ∧
        (isAnnotationLine (b.lineAt i) = false →
          (∀ rule ∈ rule?, ∀ p, rule.LinesUp b layout.tab O p → fresh = col p) ∧
          ((∀ rule ∈ rule?, ∀ p, ¬ rule.LinesUp b layout.tab O p) → fresh = col m + width))) ∧
      ∀ (rule : Continuation) (p q : Nat),
        rule.LinesUp b layout.tab O p → rule.LinesUp b layout.tab O q → p = q := by
  intro o O col rule?
  have hle : i ≤ b.count := Nat.le_of_lt hi
  have hwhole := Buffer.openersAbove_whole_ofPredicate inside layout.openers hle
  have hpos : 0 < layout.tab := by omega
  have hnonneg : 0 ≤ width := by omega
  obtain ⟨fresh, hfresh, -⟩ := columnBelow_whole hpos hnonneg hwhole (b.lineAt i)
  -- Whatever else the structural column is said to be, it is `fresh`.
  have heq : ∀ {c : Int}, structuralColumn layout b o width i = .ok c → fresh = c :=
    fun hc => Except.ok.inj (hfresh.symm.trans hc)
  obtain ⟨hfirst, hagain⟩ := request_of_structuralColumn hi hwidth htab hfresh
  refine ⟨fresh, hfirst, hagain, ?_, ?_, fun rule p q hp hq => hp.unique hq⟩
  · exact fun hempty => heq (structuralColumn_of_no_opener width hle hempty)
  · intro m hm
    refine ⟨fun hline => ?_, fun hline => ⟨fun rule hrule p hp => ?_, fun hnone => ?_⟩⟩
    · exact heq (structuralColumn_annotation_line width hle hm hline)
    · exact heq (structuralColumn_of_linesUp width hle hline hrule hp)
    · exact heq (structuralColumn_of_not_linesUp width hle hm hline hnone)

/-- A chain with a closed one inside it, and an opener at position 32 that counts as a comment. -/
private def closedInside : Buffer :=
  ⟨["fn f()", "  if a", "    if b", "    else", "if hidden", "else"].map String.toList⟩

/-- The last line of `closedInside` lines up with line 1. It stands too far left for another level,
so a repeated request gives the same. -/
theorem request_closedInside :
    request Config.default.layout closedInside (.ofPredicate (· == 32)) 4 .fresh 5 =
        .ok (.found 2) ∧
      request Config.default.layout closedInside (.ofPredicate (· == 32)) 4 .again 5 =
        .ok (.found 2) := by
  obtain ⟨fresh, hfirst, hagain, -, hrest, -⟩ := request_eq_reference Config.default.layout
    (· == 32) closedInside 4 5 (by decide) (by decide) (by decide)
  have hup : Vocabulary.elseRule.LinesUp closedInside Config.default.layout.tab
      (closedInside.openersBefore (.ofPredicate (· == 32)) Config.default.layout.openers 5) 1 :=
    ⟨by decide +kernel, by decide +kernel, by decide +kernel, by decide +kernel,
      by decide +kernel⟩
  have hnearest : ∀ q ∈ closedInside.openersBefore (.ofPredicate (· == 32))
      Config.default.layout.openers 5, q ≤ 3 := by decide +kernel
  have hfresh : fresh = 2 :=
    ((hrest 3 ⟨by decide +kernel, hnearest⟩).2 (by decide +kernel)).1 Vocabulary.elseRule
      (by decide +kernel) 1 hup
  subst hfresh
  exact ⟨hfirst, hagain⟩

end FabEdit
