import FabEdit.Proofs.PeerSearch

/-!
# Continuations in well-structured source

With the vocabulary of the language, `else`, `case` and `default` find the construct they continue
whenever the source between the two is well structured.

Shape of the argument:

* `Buffer.BlockTree` says that a stretch of lines is a sequence of blocks, each with a deeper body,
  in which every `if` has its branches at its own column down to a plain `else`. Lines that open no
  block may stand anywhere.
* Induction over the tree gives what the search needs to know of each opener in it: it lies deep
  enough, does not end the search, and if it could take a branch, the plain `else` of its chain
  shuts it off (`BlockTree.clear`).
* So nothing in the tree is in the way of the header above it, and the search ends there
  (`continuations_attach`).
-/

namespace FabEdit

/-- The layout of the language itself. -/
def Layout.standard (tab : Int) : Layout :=
  ⟨Vocabulary.blockOpeners, Vocabulary.continuations, tab⟩

/-- A buffer's own comments are an oracle that never fails. -/
theorem Oracle.ofBuffer_eq_ofPredicate (b : Buffer) :
    Oracle.ofBuffer b = .ofPredicate fun p => (Comments.ofBuffer b).covers p := rfl

namespace Vocabulary

theorem mem_listing {w : Text} {ws : List String} :
    w ∈ listing ws ↔ w ∈ ws.map String.toList := by
  rw [listing, Listing.mem_ofWords, wordSet, WordSet.mem_ofList]

theorem mem_elseRule_peers {w : Text} :
    w ∈ elseRule.peers ↔ w = "if".toList ∨ w = "else".toList := by
  simp only [elseRule, mem_listing, List.map_cons, List.map_nil, List.mem_cons, List.not_mem_nil,
    or_false]

/-- A branch of a `switch` can always be followed by another one. -/
theorem canContinue_branchRule {l : Text} :
    branchRule.CanContinue l ↔ l.firstWord = "case".toList ∨ l.firstWord = "default".toList := by
  have hterminal : l.firstWord ∉ branchRule.terminal := WordSet.not_mem_empty _
  simp only [Continuation.CanContinue, hterminal, false_implies, and_true]
  simp only [branchRule, mem_listing, List.map_cons, List.map_nil, List.mem_cons, List.not_mem_nil,
    or_false]

theorem mem_branchRule_stops {w : Text} : w ∈ branchRule.stops ↔ w = "switch".toList := by
  simp only [branchRule, mem_listing, List.map_cons, List.map_nil, List.mem_singleton]

theorem get?_continuations_else : continuations.get? "else".toList = some elseRule := by
  decide

theorem get?_continuations_branch {w : Text} (h : w = "case".toList ∨ w = "default".toList) :
    continuations.get? w = some branchRule := by
  rcases h with rfl | rfl <;> decide

end Vocabulary

namespace Buffer

variable (b : Buffer) (o : Oracle)

/-- Line `j` is source and starts with a word. -/
def StartsWith (w : String) (j : Nat) : Prop :=
  b.kind o j = .ok .source ∧ (b.lineAt j).firstWord = w.toList

/-- Line `j` continues a chain of branches with another condition. -/
def IsElseIf (j : Nat) : Prop :=
  b.StartsWith o "else" j ∧ (b.lineAt j).words[1]? = some "if".toList

/-- Line `j` ends a chain of branches: nothing that could go on with it follows the `else`. -/
def IsPlainElse (j : Nat) : Prop :=
  b.StartsWith o "else" j ∧
    ∀ second ∈ (b.lineAt j).words[1]?, second ≠ "if".toList ∧ second ≠ "else".toList

/-- Line `j` opens a block that has no branches and does not end the search of an `else`. -/
def IsPlainOpener (j : Nat) : Prop :=
  b.Opens o Vocabulary.blockOpeners j ∧ (b.lineAt j).firstWord ∉ Vocabulary.elseRule.peers ∧
    (b.lineAt j).firstWord ∉ Vocabulary.elseRule.stops

end Buffer

/-- What a stretch of lines is read as. -/
inductive Stretch where
  /-- The body of a block whose header stands at a column. -/
  | body (header : Int)
  /-- The further branches of a chain at a column, down to its plain `else` and the body of that. -/
  | branches (column : Int)

/-- The lines from `lo` to before `hi` are a block tree. -/
inductive Buffer.BlockTree (b : Buffer) (o : Oracle) (tab : Int) : Stretch → Nat → Nat → Prop
  | done {c : Int} {k : Nat} : BlockTree b o tab (.body c) k k
  /-- A blank line, a comment or a statement. -/
  | line {c : Int} {k hi : Nat} (plain : ¬ b.Opens o Vocabulary.blockOpeners k)
      (rest : BlockTree b o tab (.body c) (k + 1) hi) : BlockTree b o tab (.body c) k hi
  /-- A block without branches. -/
  | block {c : Int} {k mid hi : Nat} (header : b.IsPlainOpener o k)
      (deeper : c < b.columnAt tab k)
      (inner : BlockTree b o tab (.body (b.columnAt tab k)) (k + 1) mid)
      (rest : BlockTree b o tab (.body c) mid hi) : BlockTree b o tab (.body c) k hi
  /-- A whole chain of branches. -/
  | chain {c : Int} {k mid stop hi : Nat} (header : b.StartsWith o "if" k)
      (deeper : c < b.columnAt tab k)
      (inner : BlockTree b o tab (.body (b.columnAt tab k)) (k + 1) mid)
      (branches : BlockTree b o tab (.branches (b.columnAt tab k)) mid stop)
      (rest : BlockTree b o tab (.body c) stop hi) : BlockTree b o tab (.body c) k hi
  /-- A branch with a condition of its own, and the branches after it. -/
  | elseIf {c : Int} {k mid hi : Nat} (header : b.IsElseIf o k) (level : b.columnAt tab k = c)
      (inner : BlockTree b o tab (.body c) (k + 1) mid)
      (rest : BlockTree b o tab (.branches c) mid hi) : BlockTree b o tab (.branches c) k hi
  /-- The last branch. -/
  | plainElse {c : Int} {k hi : Nat} (header : b.IsPlainElse o k) (level : b.columnAt tab k = c)
      (inner : BlockTree b o tab (.body c) (k + 1) hi) : BlockTree b o tab (.branches c) k hi

/-- The least column that an opener of a stretch can have. -/
def Stretch.leastColumn : Stretch → Int
  | .body c => c + 1
  | .branches c => c

namespace Buffer

variable {b : Buffer} {o : Oracle} {tab : Int}

/-- Line `q` is not in the way of an `else` at line `hi`. -/
structure Harmless (b : Buffer) (o : Oracle) (tab : Int) (hi q : Nat) : Prop where
  noStop : (b.lineAt q).firstWord ∉ Vocabulary.elseRule.stops
  shut : Vocabulary.elseRule.CanContinue (b.lineAt q) →
    ∃ r, q < r ∧ r < hi ∧ b.Opens o Vocabulary.blockOpeners r ∧
      b.columnAt tab r ≤ b.columnAt tab q

theorem Harmless.mono {hi hi' q : Nat} (h : b.Harmless o tab hi q) (hle : hi ≤ hi') :
    b.Harmless o tab hi' q := by
  refine ⟨h.noStop, fun hcan => ?_⟩
  obtain ⟨r, hqr, hr, hopens, hcol⟩ := h.shut hcan
  exact ⟨r, hqr, by omega, hopens, hcol⟩

/-- The openers from line `lo` to before line `hi` stand at the column `least` or deeper, and none
of them is in the way of an `else` at line `hi`. -/
def Clear (b : Buffer) (o : Oracle) (tab least : Int) (lo hi : Nat) : Prop :=
  ∀ q, lo ≤ q → q < hi → b.Opens o Vocabulary.blockOpeners q →
    least ≤ b.columnAt tab q ∧ b.Harmless o tab hi q

theorem Clear.weaken {least least' : Int} {lo hi : Nat} (h : b.Clear o tab least lo hi)
    (hle : least' ≤ least) : b.Clear o tab least' lo hi := by
  intro q hlo hhi hq
  obtain ⟨hcol, hharmless⟩ := h q hlo hhi hq
  exact ⟨hle.trans hcol, hharmless⟩

theorem Clear.cons {least : Int} {k hi : Nat}
    (hk : b.Opens o Vocabulary.blockOpeners k →
      least ≤ b.columnAt tab k ∧ b.Harmless o tab hi k)
    (h : b.Clear o tab least (k + 1) hi) : b.Clear o tab least k hi := by
  intro q hlo hhi hq
  rcases Nat.eq_or_lt_of_le hlo with rfl | hlt
  · exact hk hq
  · exact h q hlt hhi hq

theorem Clear.append {least : Int} {lo mid hi : Nat} (h : b.Clear o tab least lo mid)
    (h' : b.Clear o tab least mid hi) (hle : mid ≤ hi) : b.Clear o tab least lo hi := by
  intro q hlo hhi hq
  rcases Nat.lt_or_ge q mid with hlt | hge
  · obtain ⟨hcol, hharmless⟩ := h q hlo hlt hq
    exact ⟨hcol, hharmless.mono hle⟩
  · exact h' q hge hhi hq

/-! ## Headers -/

theorem StartsWith.opens {w : String} {j : Nat} (h : b.StartsWith o w j)
    (hw : w.toList ∈ Vocabulary.blockOpeners) : b.Opens o Vocabulary.blockOpeners j :=
  ⟨h.1, h.2 ▸ hw⟩

theorem StartsWith.not_mem {w : String} {j : Nat} (h : b.StartsWith o w j) {l : Listing}
    (hw : w.toList ∉ l) : (b.lineAt j).firstWord ∉ l :=
  h.2 ▸ hw

theorem IsPlainOpener.harmless {hi q : Nat} (h : b.IsPlainOpener o q) : b.Harmless o tab hi q :=
  ⟨h.2.2, fun hcan => absurd hcan.1 h.2.1⟩

/-- A plain `else` takes no further branch. -/
theorem IsPlainElse.harmless {hi q : Nat} (h : b.IsPlainElse o q) : b.Harmless o tab hi q := by
  refine ⟨h.1.not_mem (by decide), fun hcan => ?_⟩
  obtain ⟨second, hsecond, hpeer⟩ := hcan.2 (h.1.2 ▸ by decide)
  rcases Vocabulary.mem_elseRule_peers.1 hpeer with heq | heq
  · exact absurd heq (h.2 second hsecond).1
  · exact absurd heq (h.2 second hsecond).2

theorem IsElseIf.canContinue {j : Nat} (h : b.IsElseIf o j) :
    Vocabulary.elseRule.CanContinue (b.lineAt j) :=
  ⟨h.1.2 ▸ by decide, fun _ => ⟨_, h.2, by decide⟩⟩

theorem StartsWith.canContinue_if {j : Nat} (h : b.StartsWith o "if" j) :
    Vocabulary.elseRule.CanContinue (b.lineAt j) :=
  ⟨h.2 ▸ by decide, fun hterminal => absurd hterminal (h.not_mem (by decide))⟩

/-! ## Trees -/

namespace BlockTree

theorem le {s : Stretch} {lo hi : Nat} (h : b.BlockTree o tab s lo hi) : lo ≤ hi := by
  induction h with
  | done => exact Nat.le_refl _
  | line _ _ ih => omega
  | block _ _ _ _ ih ih' => omega
  | chain _ _ _ _ _ ih ih' ih'' => omega
  | elseIf _ _ _ _ ih ih' => omega
  | plainElse _ _ _ ih => omega

/-- The branches of a chain come to a plain `else` at the column of the chain. -/
theorem exists_plainElse {c : Int} {lo hi : Nat} (h : b.BlockTree o tab (.branches c) lo hi) :
    ∃ r, lo ≤ r ∧ r < hi ∧ b.Opens o Vocabulary.blockOpeners r ∧ b.columnAt tab r = c := by
  generalize hs : Stretch.branches c = s at h
  induction h with
  | done | line | block | chain => simp at hs
  | elseIf _ _ inner _ _ ih =>
    have hle := inner.le
    obtain ⟨r, hlo, hr, hopens, hcol⟩ := ih hs
    exact ⟨r, by omega, hr, hopens, hcol⟩
  | @plainElse c' k hi header level inner _ =>
    have hle := inner.le
    cases hs
    exact ⟨k, Nat.le_refl k, by omega, header.1.opens (by decide), level⟩

/-- Every opener of a tree is deep enough and in nobody's way. -/
theorem clear {s : Stretch} {lo hi : Nat} (h : b.BlockTree o tab s lo hi) :
    b.Clear o tab s.leastColumn lo hi := by
  induction h with
  | done => exact fun q hlo hhi => by omega
  | line plain _ ih => exact .cons (fun hk => absurd hk plain) ih
  | block header deeper _ rest ih ih' =>
    have hinner := ih.weaken (Int.le_add_one deeper)
    exact .cons (fun _ => ⟨deeper, header.harmless⟩) (hinner.append ih' rest.le)
  | @chain c k mid stop hi header deeper inner branches rest ih ih' ih'' =>
    -- The plain `else` of the chain shuts off the `if` at its head.
    have hhead : b.Harmless o tab hi k := by
      refine ⟨header.not_mem (by decide), fun _ => ?_⟩
      obtain ⟨r, hr, hr', hopens, hcol⟩ := branches.exists_plainElse
      have hle := inner.le
      have hle' := rest.le
      exact ⟨r, by omega, by omega, hopens, hcol.le⟩
    have hinner := ih.weaken (Int.le_add_one deeper)
    have hbranches := (ih'.weaken deeper).append ih'' rest.le
    exact .cons (fun _ => ⟨deeper, hhead⟩)
      (hinner.append hbranches (branches.le.trans rest.le))
  | @elseIf c k mid hi header level inner rest ih ih' =>
    have hhead : b.Harmless o tab hi k := by
      refine ⟨header.1.not_mem (by decide), fun _ => ?_⟩
      obtain ⟨r, hr, hr', hopens, hcol⟩ := rest.exists_plainElse
      have hle := inner.le
      exact ⟨r, by omega, hr', hopens, by omega⟩
    have hinner := ih.weaken (Int.le_add_one (Int.le_refl c))
    exact .cons (fun _ => ⟨level.ge, hhead⟩) (hinner.append ih' rest.le)
  | plainElse header level _ ih =>
    exact .cons (fun _ => ⟨level.ge, header.harmless⟩) (ih.weaken (Int.le_add_one (Int.le_refl _)))

end BlockTree

end Buffer

/-! ## Continuations -/

/-- A line that starts with a word is an annotation only if the word starts like one. -/
theorem isAnnotationLine_eq_false {l w : Text} {c : Char} (h : l.firstWord = c :: w)
    (hc : c ≠ Vocabulary.annotationMark) : isAnnotationLine l = false := by
  have hhead : l.content.head? = some c := by
    rw [Text.firstWord] at h
    cases hl : l.content with
    | nil => rw [hl] at h; simp at h
    | cons d v =>
      rw [hl, List.takeWhile_cons] at h
      split at h
      · exact congrArg some (List.cons.inj h).1
      · simp at h
  simp [isAnnotationLine, hhead, hc]

section Attach

variable {b : Buffer} {inside : Nat → Bool} {tab : Int} {h i : Nat}

/-- Above a clear stretch, an `else` lines up with a header that can take it. -/
theorem Buffer.Clear.linesUp
    (hclear : b.Clear (.ofPredicate inside) tab (b.columnAt tab h + 1) (h + 1) i) (hhi : h < i)
    (hopens : b.Opens (.ofPredicate inside) Vocabulary.blockOpeners h)
    (hcan : Vocabulary.elseRule.CanContinue (b.lineAt h)) :
    Vocabulary.elseRule.LinesUp b tab
      (b.openersBefore (.ofPredicate inside) Vocabulary.blockOpeners i) h := by
  have hbelow : ∀ q ∈ b.openersBefore (.ofPredicate inside) Vocabulary.blockOpeners i, h < q →
      b.columnAt tab h + 1 ≤ b.columnAt tab q ∧ b.Harmless (.ofPredicate inside) tab i q := by
    intro q hq hlt
    obtain ⟨hqi, hq⟩ := Buffer.mem_openersBefore.1 hq
    exact hclear q hlt hqi hq
  refine ⟨Buffer.mem_openersBefore.2 ⟨hhi, hopens⟩, hcan, ?_, ?_, ?_⟩
  · exact fun q hq hlt => (hbelow q hq hlt).1
  · exact fun q hq hlt => (hbelow q hq hlt).2.noStop
  · intro q hq hlt hcan
    obtain ⟨r, hqr, hr, hopens, hcol⟩ := (hbelow q hq hlt).2.shut hcan
    exact ⟨r, Buffer.mem_openersBefore.2 ⟨hr, hopens⟩, hqr, hcol⟩

variable (width : Int)

theorem structuralColumn_else (hi : i ≤ b.count) (hhi : h < i)
    (hhead : b.StartsWith (.ofPredicate inside) "if" h ∨ b.IsElseIf (.ofPredicate inside) h)
    (htree : b.BlockTree (.ofPredicate inside) tab (.body (b.columnAt tab h)) (h + 1) i)
    (hfirst : (b.lineAt i).firstWord = "else".toList) :
    structuralColumn (.standard tab) b (.ofPredicate inside) width i =
      .ok (b.columnAt tab h) := by
  have hopens : b.Opens (.ofPredicate inside) Vocabulary.blockOpeners h := by
    rcases hhead with hif | helse
    · exact hif.opens (by decide)
    · exact helse.1.opens (by decide)
  have hcan : Vocabulary.elseRule.CanContinue (b.lineAt h) := by
    rcases hhead with hif | helse
    · exact hif.canContinue_if
    · exact helse.canContinue
  refine structuralColumn_of_linesUp width hi (isAnnotationLine_eq_false hfirst (by decide)) ?_
    (htree.clear.linesUp hhi hopens hcan)
  rw [hfirst]
  exact Vocabulary.get?_continuations_else

theorem isAnnotationLine_branch_eq_false {l : Text}
    (h : l.firstWord = "case".toList ∨ l.firstWord = "default".toList) :
    isAnnotationLine l = false := by
  rcases h with h | h
  · exact isAnnotationLine_eq_false h (by decide)
  · exact isAnnotationLine_eq_false h (by decide)

theorem structuralColumn_branch (hi : i ≤ b.count) (hhi : h < i)
    (hhead : b.StartsWith (.ofPredicate inside) "case" h ∨
      b.StartsWith (.ofPredicate inside) "default" h)
    (hbody : ∀ q, h < q → q < i → b.Opens (.ofPredicate inside) Vocabulary.blockOpeners q →
      b.columnAt tab h < b.columnAt tab q ∧
        (b.lineAt q).firstWord ∉ ["switch", "case", "default"].map String.toList)
    (hfirst : (b.lineAt i).firstWord = "case".toList ∨
      (b.lineAt i).firstWord = "default".toList) :
    structuralColumn (.standard tab) b (.ofPredicate inside) width i =
      .ok (b.columnAt tab h) := by
  have hbelow : ∀ q ∈ b.openersBefore (.ofPredicate inside) Vocabulary.blockOpeners i, h < q →
      b.columnAt tab h < b.columnAt tab q ∧
        (b.lineAt q).firstWord ∉ ["switch", "case", "default"].map String.toList := by
    intro q hq hlt
    obtain ⟨hqi, hq⟩ := Buffer.mem_openersBefore.1 hq
    exact hbody q hlt hqi hq
  have hopens : b.Opens (.ofPredicate inside) Vocabulary.blockOpeners h := by
    rcases hhead with hcase | hdefault
    · exact hcase.opens (by decide)
    · exact hdefault.opens (by decide)
  refine structuralColumn_of_linesUp width hi (isAnnotationLine_branch_eq_false hfirst)
    (Vocabulary.get?_continuations_branch hfirst)
    ⟨Buffer.mem_openersBefore.2 ⟨hhi, hopens⟩, ?_, ?_, ?_, ?_⟩
  · exact Vocabulary.canContinue_branchRule.2 (hhead.imp And.right And.right)
  · exact fun q hq hlt => (hbelow q hq hlt).1
  · intro q hq hlt hstop
    rw [Vocabulary.mem_branchRule_stops] at hstop
    exact (hbelow q hq hlt).2 (by simp [hstop])
  · intro q hq hlt hcan
    have hnot := (hbelow q hq hlt).2
    rcases Vocabulary.canContinue_branchRule.1 hcan with hcase | hdefault
    · exact absurd (by simp [hcase]) hnot
    · exact absurd (by simp [hdefault]) hnot

/-- Nothing lines up with a branch past the `switch` that it belongs to. -/
theorem structuralColumn_first_branch (hi : i ≤ b.count) (hhi : h < i)
    (hhead : b.StartsWith (.ofPredicate inside) "switch" h)
    (hbody : ∀ q, h < q → q < i → ¬ b.Opens (.ofPredicate inside) Vocabulary.blockOpeners q)
    (hfirst : (b.lineAt i).firstWord = "case".toList ∨
      (b.lineAt i).firstWord = "default".toList) :
    structuralColumn (.standard tab) b (.ofPredicate inside) width i =
      .ok (b.columnAt tab h + width) := by
  have hmem : h ∈ b.openersBefore (.ofPredicate inside) Vocabulary.blockOpeners i :=
    Buffer.mem_openersBefore.2 ⟨hhi, hhead.opens (by decide)⟩
  have hmax : ∀ q ∈ b.openersBefore (.ofPredicate inside) Vocabulary.blockOpeners i, q ≤ h := by
    intro q hq
    by_contra hlt
    obtain ⟨hqi, hq⟩ := Buffer.mem_openersBefore.1 hq
    exact hbody q (by omega) hqi hq
  refine structuralColumn_of_not_linesUp width hi ⟨hmem, hmax⟩
    (isAnnotationLine_branch_eq_false hfirst) fun rule hrule p hp => ?_
  obtain rfl : Vocabulary.branchRule = rule :=
    Option.some.inj ((Vocabulary.get?_continuations_branch hfirst).symm.trans hrule)
  rcases Nat.eq_or_lt_of_le (hmax p hp.mem) with rfl | hlt
  · have hcan := Vocabulary.canContinue_branchRule.1 hp.canContinue
    rw [hhead.2] at hcan
    exact absurd hcan (by decide)
  · exact hp.noStop h hmem hlt (Vocabulary.mem_branchRule_stops.2 hhead.2)

end Attach

/-- In well-structured source a continuation goes to the construct it continues. An `else` goes to
the column of the `if` or `else if` above it, if the lines in between are a block tree. A `case` or
`default` goes to the column of the one above it, if the openers in between are deeper and belong to
no other `switch`; directly under the `switch` it goes one level deeper. -/
theorem continuations_attach (tab width : Int) (htab : 1 ≤ tab) (hwidth : 1 ≤ width)
    (inside : Nat → Bool) (b : Buffer) (h i : Nat) (hhi : h < i) (hi : i < b.count) :
    let o := Oracle.ofPredicate inside
    let col := b.columnAt tab
    let first := (b.lineAt i).firstWord
    let fresh := request (.standard tab) b o width .fresh i
    (b.StartsWith o "if" h ∨ b.IsElseIf o h → b.BlockTree o tab (.body (col h)) (h + 1) i →
      first = "else".toList → fresh = .ok (.found (col h))) ∧
    (b.StartsWith o "case" h ∨ b.StartsWith o "default" h →
      (∀ q, h < q → q < i → b.Opens o Vocabulary.blockOpeners q → col h < col q ∧
        (b.lineAt q).firstWord ∉ ["switch", "case", "default"].map String.toList) →
      first = "case".toList ∨ first = "default".toList → fresh = .ok (.found (col h))) ∧
    (b.StartsWith o "switch" h →
      (∀ q, h < q → q < i → ¬ b.Opens o Vocabulary.blockOpeners q) →
      first = "case".toList ∨ first = "default".toList →
        fresh = .ok (.found (col h + width))) := by
  intro o col first fresh
  have hle : i ≤ b.count := Nat.le_of_lt hi
  have hattach : ∀ c, structuralColumn (.standard tab) b o width i = .ok c →
      fresh = .ok (.found c) :=
    fun c hc => (request_of_structuralColumn hi hwidth htab hc).1
  refine ⟨fun hhead htree hfirst => ?_, fun hhead hbody hfirst => ?_, fun hhead hbody hfirst => ?_⟩
  · exact hattach _ (structuralColumn_else width hle hhi hhead htree hfirst)
  · exact hattach _ (structuralColumn_branch width hle hhi hhead hbody hfirst)
  · exact hattach _ (structuralColumn_first_branch width hle hhi hhead hbody hfirst)

/-- A chain whose second branch holds a loop with a closed chain in it, and a `switch` below. -/
private def branching : Buffer :=
  ⟨["fn f()", "  if a", "    x", "  else if b", "    while c", "      if d", "        // if e",
    "      else if g", "        y", "      else", "        do", "", "  else", "    switch h",
    "      case 1", "        if j", "default"].map String.toList⟩

/-- The body of the second branch of `branching` is a block tree: the loop with the chain. -/
private theorem blockTree_branching :
    branching.BlockTree (.ofBuffer branching) 8 (.body (branching.columnAt 8 3)) 4 12 := by
  have hlast : branching.BlockTree (.ofBuffer branching) 8 (.body (branching.columnAt 8 5)) 10 12 :=
    .block ⟨by decide +kernel, by decide, by decide⟩ (by decide) (.line (by decide +kernel) .done)
      .done
  have hbranches :
      branching.BlockTree (.ofBuffer branching) 8 (.branches (branching.columnAt 8 5)) 7 12 :=
    .elseIf ⟨⟨by decide +kernel, by decide⟩, by decide⟩ (by decide)
      (.line (by decide +kernel) .done)
      (.plainElse ⟨⟨by decide +kernel, by decide⟩, by decide⟩ (by decide) hlast)
  exact .block ⟨by decide +kernel, by decide, by decide⟩ (by decide)
    (.chain ⟨by decide +kernel, by decide⟩ (by decide) (.line (by decide +kernel) .done) hbranches
      .done) .done

/-- The three continuations of `branching`, each by its own rule. -/
theorem request_branching :
    request (.standard 8) branching (.ofBuffer branching) 4 .fresh 12 = .ok (.found 2) ∧
    request (.standard 8) branching (.ofBuffer branching) 4 .fresh 16 = .ok (.found 6) ∧
    request (.standard 8) branching (.ofBuffer branching) 4 .fresh 14 = .ok (.found 8) := by
  have hattach := continuations_attach 8 4 (by decide) (by decide)
    (fun p => (Comments.ofBuffer branching).covers p) branching
  rw [← Oracle.ofBuffer_eq_ofPredicate] at hattach
  refine ⟨?_, ?_, ?_⟩
  · exact (hattach 3 12 (by decide) (by decide)).1
      (.inr ⟨⟨by decide +kernel, by decide⟩, by decide⟩) blockTree_branching (by decide)
  · refine (hattach 14 16 (by decide) (by decide)).2.1 (.inl ⟨by decide +kernel, by decide⟩) ?_
      (by decide)
    intro q hlo hhi _
    obtain rfl : q = 15 := by omega
    exact ⟨by decide, by decide⟩
  · refine (hattach 13 14 (by decide) (by decide)).2.2 ⟨by decide +kernel, by decide⟩ ?_ (by decide)
    intro q hlo hhi
    omega

end FabEdit
