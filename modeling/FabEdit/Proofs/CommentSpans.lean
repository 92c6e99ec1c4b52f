import FabEdit.Comment.Spans

/-!
# Asking for a position

The binary search behind `Comments.covers` looks at one span only. On spans that are in order and
apart from each other that is enough: `covers_iff` says that a position is covered exactly if some
span holds it. Positions below 0 are left out: the search does not even start for them
(`covers_of_neg`).

The search itself is described by `firstAfter_spec`: below its answer every span starts at or before
the position, from its answer on every span starts after it.
-/

namespace FabEdit

theorem Span.holds_iff {s : Span} {p : Int} : s.holds p = true ↔ s.start ≤ p ∧ p < s.stop := by
  simp [Span.holds]

namespace Comments

/-- Spans in order: each one starts no earlier than the ones before it start, or end. -/
def Ordered (spans : List Span) : Prop :=
  spans.Pairwise fun a b => a.start ≤ b.start ∧ a.stop ≤ b.start

/-- The start of the span at an index of the search. -/
def startAt (c : Comments) (k : Nat) : Int := (c.spans.getD k default).start

theorem startAt_le_startAt {c : Comments} (h : Ordered c.spans.toList) {j k : Nat} (hjk : j ≤ k)
    (hk : k < c.spans.size) : c.startAt j ≤ c.startAt k := by
  rcases Nat.eq_or_lt_of_le hjk with rfl | hlt
  · exact Int.le_refl _
  · have hj : j < c.spans.size := by omega
    have hpair := List.pairwise_iff_getElem.1 h j k (by simpa using hj) (by simpa using hk) hlt
    simpa [startAt, Array.getD, hj, hk] using hpair.1

/-- The search finds the place between the spans that start at or before a position and those that
start after it. -/
theorem firstAfter_spec {c : Comments} (h : Ordered c.spans.toList) (p : Int) (lo hi : Nat)
    (hle : lo ≤ hi) (hhi : hi ≤ c.spans.size) (hlow : ∀ k, k < lo → c.startAt k ≤ p)
    (hhigh : ∀ k, hi ≤ k → k < c.spans.size → p < c.startAt k) :
    c.firstAfter p lo hi ≤ c.spans.size ∧
      (∀ k, k < c.firstAfter p lo hi → c.startAt k ≤ p) ∧
      ∀ k, c.firstAfter p lo hi ≤ k → k < c.spans.size → p < c.startAt k := by
  induction lo, hi using firstAfter.induct c p with
  | case1 lo hi hlt mid hp ih =>
    rw [firstAfter, if_pos hlt, if_pos hp]
    refine ih (by omega) (by omega) hlow fun k hk hsize => ?_
    have hmono := startAt_le_startAt h hk hsize
    have hmid : p < c.startAt mid := hp
    omega
  | case2 lo hi hlt mid hp ih =>
    rw [firstAfter, if_pos hlt, if_neg hp]
    refine ih (by omega) hhi (fun k hk => ?_) hhigh
    have hmono := startAt_le_startAt h (show k ≤ mid by omega) (by omega)
    have hmid : ¬ p < c.startAt mid := hp
    omega
  | case3 lo hi hge =>
    rw [firstAfter, if_neg hge]
    exact ⟨by omega, hlow, fun k hk hsize => hhigh k (by omega) hsize⟩

/-- A span that holds a position is the last one that starts at or before it. -/
theorem firstAfter_of_holds {c : Comments} (h : Ordered c.spans.toList) {p : Int} {j : Nat}
    (hj : j < c.spans.size) (hholds : c.spans[j].holds p = true) :
    c.firstAfter p 0 c.spans.size = j + 1 := by
  obtain ⟨hsize, hbelow, habove⟩ := firstAfter_spec h p 0 c.spans.size (by omega) (Nat.le_refl _)
    (fun k hk => absurd hk (by omega)) (fun k hk hk' => absurd hk' (by omega))
  obtain ⟨hstart, hstop⟩ := Span.holds_iff.1 hholds
  have hstartAt : c.startAt j = c.spans[j].start := by simp [startAt, Array.getD, hj]
  rcases Nat.lt_trichotomy (c.firstAfter p 0 c.spans.size) (j + 1) with hlt | heq | hgt
  · have hafter := habove j (by omega) hj
    omega
  · exact heq
  · have hj' : j + 1 < c.spans.size := by omega
    have hnext := hbelow (j + 1) hgt
    have hstartNext : c.startAt (j + 1) = c.spans[j + 1].start := by
      simp [startAt, Array.getD, hj']
    have hpair := List.pairwise_iff_getElem.1 h j (j + 1) (by simpa using hj) (by simpa using hj')
      (by omega)
    have hapart : c.spans[j].stop ≤ c.spans[j + 1].start := by simpa using hpair.2
    omega

/-- On spans in order, a position from 0 on is covered exactly if some span holds it. -/
theorem covers_iff {c : Comments} (h : Ordered c.spans.toList) {p : Int} (hp : 0 ≤ p) :
    c.covers p = true ↔ ∃ s ∈ c.spans.toList, s.holds p = true := by
  obtain ⟨hsize, -, -⟩ := firstAfter_spec h p 0 c.spans.size (by omega) (Nat.le_refl _)
    (fun k hk => absurd hk (by omega)) (fun k hk hk' => absurd hk' (by omega))
  rw [covers, if_neg (by omega)]
  constructor
  · intro hcov
    split at hcov
    next => exact absurd hcov (by simp)
    next k hk =>
      have hk' : k < c.spans.size := by omega
      refine ⟨c.spans[k], by simp, ?_⟩
      simpa [Array.getD, hk'] using hcov
  · rintro ⟨s, hs, hholds⟩
    obtain ⟨j, hj, rfl⟩ := List.getElem_of_mem hs
    have hj' : j < c.spans.size := by simpa using hj
    rw [firstAfter_of_holds h hj' (by simpa using hholds)]
    simpa [Array.getD, hj'] using hholds

/-- Positions before the text are never covered, not even by a span that reaches there. -/
theorem covers_of_neg (c : Comments) {p : Int} (hp : p < 0) : c.covers p = false := by
  rw [covers, if_pos hp]

/-- On spans in order, `covers` answers as a look at every span would, from position 0 on. -/
theorem covers_iff_nonneg_and_exists {c : Comments} (h : Ordered c.spans.toList) (p : Int) :
    c.covers p = true ↔ 0 ≤ p ∧ ∃ s ∈ c.spans.toList, s.start ≤ p ∧ p < s.stop := by
  by_cases hp : 0 ≤ p
  · simp only [covers_iff h hp, Span.holds_iff, hp, true_and]
  · simp [covers_of_neg c (Int.not_le.1 hp), hp]

end Comments

end FabEdit
