import FabEdit.Proofs.Scanner
import FabEdit.Proofs.LineCore
import FabEdit.Proofs.BufferLayout

/-!
# Line kinds and what they depend on

The kind of a line is asked of a scan over the whole text, the lines below it included. This module
shows that the answer depends on the cores of the lines from the first one down to the line itself,
and on nothing else.

Shape of the argument:

* A line starts in a `Mode.Resting` mode: code, or a block comment without the half of a mark. In
  such a mode leading blanks change nothing (`Mode.Resting.modeAfter_blank`), and at the end of a
  line carriage returns and newlines change nothing that the newline between the lines would not
  change anyway (`modeAfter_lineEnd`). So what a line does to the shape of the mode is decided by
  its core (`shape_modeAfter_line`).
* `Buffer.modeAt` is the mode at the start of a line. `Buffer.covers_lineAt` reads off it which
  characters of the line lie inside comments, and `Buffer.kindAt_ofBuffer` the kind of the line,
  both without the text below.
* Hence buffers with the same cores have the same kinds (`Buffer.kindAt_congr`,
  `Buffer.kind_congr`).
-/

namespace FabEdit

namespace Scan

/-! ## Modes at the start of a line -/

/-- What is left of a mode after a newline: block comments go on, everything else ends. -/
def Mode.rest : Mode → Mode
  | .block s d | .blockSlash s d | .blockStar s d => .block s d
  | .code | .slash _ | .line _ | .quoted _ | .escaped _ => .code

theorem step_newline (p : Nat) (m : Mode) : step p '\n' m = m.rest := by
  cases m with
  | blockStar s d => cases d <;> rfl
  | quoted q => simp [step, Vocabulary.escape, Mode.rest]
  | _ => rfl

/-- A newline that lies in no comment leaves code behind. -/
theorem Mode.rest_eq_code {m : Mode} {next : Option Char} (h : m.inComment '\n' next = false) :
    m.rest = .code := by
  cases m with
  | block | blockSlash | blockStar => cases h
  | _ => rfl

/-- A carriage return or a newline takes nothing away that a newline leaves. -/
theorem rest_step_lineEnd {c : Char} (hc : Buffer.isLineEnd c = true) (p : Nat) (m : Mode) :
    (step p c m).rest = m.rest := by
  simp only [Buffer.isLineEnd, Bool.or_eq_true, beq_iff_eq] at hc
  rcases hc with rfl | rfl
  · cases m with
    | blockStar s d => cases d <;> rfl
    | quoted q =>
      simp only [step]
      split
      · rfl
      · split <;> rfl
    | _ => rfl
  · rw [step_newline]
    cases m <;> rfl

/-- At the end of a line, line ends of its own make no difference to the line after. -/
theorem modeAfter_lineEnd {e : Text} (he : ∀ c ∈ e, Buffer.isLineEnd c = true) (m : Mode)
    (p : Nat) : modeAfter m p (e ++ ['\n']) = m.rest := by
  induction e generalizing m p with
  | nil => exact step_newline p m
  | cons c e ih =>
    rw [List.cons_append, modeAfter, ih fun d hd => he d (List.mem_cons_of_mem c hd)]
    exact rest_step_lineEnd (he c (by simp)) p m

/-- The modes in which a line can start. -/
def Mode.Resting (m : Mode) : Prop := m.rest = m

theorem resting_rest (m : Mode) : m.rest.Resting := by
  cases m <;> rfl

theorem Mode.Resting.eq_code_or_block {m : Mode} (h : m.Resting) :
    m = .code ∨ ∃ s d, m = .block s d := by
  cases m with
  | code => exact .inl rfl
  | block s d => exact .inr ⟨s, d, rfl⟩
  | _ => simp [Resting, rest] at h

private theorem ne_of_isBlank {c d : Char} (hc : isBlank c = true) (hd : isBlank d = false) :
    c ≠ d := by
  rintro rfl
  simp [hc] at hd

/-- Blanks neither open nor close anything. -/
theorem Mode.Resting.step_blank {m : Mode} (h : m.Resting) {c : Char} (hc : isBlank c = true)
    (p : Nat) : step p c m = m := by
  have hslash : c ≠ '/' := ne_of_isBlank hc (by decide)
  have hstar : c ≠ '*' := ne_of_isBlank hc (by decide)
  have hquote : c ∉ Vocabulary.quotes := by
    have hall : Vocabulary.quotes.all (!isBlank ·) = true := by decide
    intro hmem
    exact ne_of_isBlank hc (by simpa using List.all_eq_true.1 hall c hmem) rfl
  obtain rfl | ⟨s, d, rfl⟩ := h.eq_code_or_block
  · simp [step, enter, hslash, hquote]
  · simp [step, dig, hslash, hstar]

theorem Mode.Resting.modeAfter_blank {m : Mode} (h : m.Resting) {a : Text}
    (ha : ∀ c ∈ a, isBlank c = true) (p : Nat) : modeAfter m p a = m := by
  induction a generalizing p with
  | nil => rfl
  | cons c a ih =>
    rw [modeAfter, h.step_blank (ha c (by simp)) p]
    exact ih (fun d hd => ha d (List.mem_cons_of_mem c hd)) (p + 1)

/-- What a whole line does to the mode is decided by its core. -/
theorem Mode.Resting.modeAfter_line {m : Mode} (h : m.Resting) (p : Nat) (l : Text) :
    modeAfter m p (l ++ ['\n']) = (modeAfter m (p + l.lead.length) l.core).rest := by
  obtain ⟨e, he, hend, -⟩ := Text.exists_content_eq_core_append l
  have hsplit : l ++ ['\n'] = l.lead ++ (l.core ++ (e ++ ['\n'])) := by
    rw [← List.append_assoc l.core, ← he, ← List.append_assoc, Text.lead_append_content]
  rw [hsplit, modeAfter_append, h.modeAfter_blank fun c hc => Text.isBlank_of_mem_lead hc,
    modeAfter_append, modeAfter_lineEnd hend]

theorem shape_rest (m : Mode) : m.rest.shape = m.shape.rest := by
  cases m <;> rfl

/-- Lines with one core lead from modes of one shape to modes of one shape. -/
theorem shape_modeAfter_line {m n : Mode} (hm : m.Resting) (hn : n.Resting)
    (hshape : m.shape = n.shape) {l l' : Text} (hcore : l.core = l'.core) (p q : Nat) :
    (modeAfter m p (l ++ ['\n'])).shape = (modeAfter n q (l' ++ ['\n'])).shape := by
  rw [hm.modeAfter_line, hn.modeAfter_line, shape_rest, shape_rest, hcore,
    shape_modeAfter hshape _ (q + l'.lead.length)]

end Scan

namespace Buffer

/-! ## The mode at the start of a line -/

/-- The mode of the scan at the start of line `k`. -/
def modeAt (b : Buffer) (k : Nat) : Scan.Mode := Scan.modeAfter .code 0 (b.above k)

theorem modeAt_succ {b : Buffer} {k : Nat} (h : k < b.count) :
    b.modeAt (k + 1) = Scan.modeAfter (b.modeAt k) (b.offsetAt k) (b.lineAt k ++ ['\n']) := by
  rw [modeAt, above_succ h, Scan.modeAfter_append, length_above, Nat.zero_add, ← modeAt]

theorem resting_modeAt {b : Buffer} {k : Nat} (h : k ≤ b.count) : (b.modeAt k).Resting := by
  induction k with
  | zero => rfl
  | succ k ih =>
    rw [modeAt_succ h, (ih (by omega)).modeAfter_line]
    exact Scan.resting_rest _

/-- Scans that start with one shape read lines with the same cores in step, wherever these lines
stand. -/
theorem shape_modeAt_add {b b' : Buffer} {i i' n : Nat} (hn : i + n ≤ b.count)
    (hn' : i' + n ≤ b'.count) (hstart : (b.modeAt i).shape = (b'.modeAt i').shape)
    (h : ∀ j, j < n → (b.lineAt (i + j)).core = (b'.lineAt (i' + j)).core) :
    (b.modeAt (i + n)).shape = (b'.modeAt (i' + n)).shape := by
  induction n with
  | zero => exact hstart
  | succ n ih =>
    rw [← Nat.add_assoc, ← Nat.add_assoc, modeAt_succ (by omega), modeAt_succ (by omega)]
    exact Scan.shape_modeAfter_line (resting_modeAt (by omega)) (resting_modeAt (by omega))
      (ih (by omega) (by omega) fun j hj => h j (by omega)) (h n (by omega)) _ _

/-- The shape of the mode at the start of a line is decided by the cores of the lines above it. -/
theorem shape_modeAt_congr {b b' : Buffer} {k : Nat} (hk : k ≤ b.count) (hk' : k ≤ b'.count)
    (h : ∀ j, j < k → (b.lineAt j).core = (b'.lineAt j).core) :
    (b.modeAt k).shape = (b'.modeAt k).shape := by
  have hsame : (b.modeAt (0 + k)).shape = (b'.modeAt (0 + k)).shape :=
    shape_modeAt_add (by omega) (by omega) rfl fun j hj => by simpa using h j hj
  rwa [Nat.zero_add] at hsame

end Buffer

/-! ## Kinds -/

/-- The kind of a line that starts in a mode. -/
def LineKind.ofMode (m : Scan.Mode) (l : Text) : LineKind :=
  if l.content = [] then .blank
  else if startsComment l || m.openSince.isSome then .comment
  else .source

/-- In code, the first character of a content lies inside a comment exactly if the line starts
one. -/
private theorem opensComment_eq_startsComment {l v : Text} {c : Char} (hl : l.content = c :: v) :
    Scan.opensComment c v.head? = startsComment l := by
  rw [startsComment, hl, Vocabulary.lineMark, Vocabulary.blockOpen, Scan.opensComment]
  cases v with
  | nil => simp [List.isPrefixOf]
  | cons d v =>
    simp only [List.isPrefixOf, List.head?_cons]
    grind

namespace Buffer

theorem kind_natCast {b : Buffer} {k : Nat} (h : k < b.count) (o : Oracle) :
    b.kind o k = b.kindAt o k := by
  rw [kind, if_neg (by omega), if_pos (by omega), Int.toNat_natCast]

section Read

variable {b : Buffer} {k : Nat} (hk : k < b.count)
include hk

theorem lineOrFault_natCast : b.lineOrFault k = .ok (b.lineAt k) := if_pos (inRange_natCast hk)

theorem firstWord_natCast : b.firstWord k = .ok (b.lineAt k).firstWord := by
  rw [firstWord, lineOrFault_natCast hk]
  rfl

theorem isAnnotationLine_natCast :
    b.isAnnotationLine k = .ok (FabEdit.isAnnotationLine (b.lineAt k)) := by
  rw [isAnnotationLine, lineOrFault_natCast hk]
  rfl

end Read

/-- A line is blank to its kind exactly if it has no content. -/
theorem kindAt_eq (b : Buffer) (o : Oracle) (k : Nat) :
    b.kindAt o k =
      if (b.lineAt k).content = [] then .ok .blank
      else if startsComment (b.lineAt k) then .ok .comment
      else (o (b.contentAt k)).map fun inside => if inside then .comment else .source := by
  simp only [kindAt, Text.all_isBlank_content_iff]

/-- A source line is not blank. -/
theorem content_ne_nil_of_source {b : Buffer} {o : Oracle} {k : Nat}
    (h : b.kindAt o k = .ok .source) : (b.lineAt k).content ≠ [] := by
  intro hblank
  rw [kindAt_eq, if_pos hblank] at h
  cases h

/-- Whether a character of a line lies inside a comment is decided by the mode at the start of the
line and by the line itself. -/
theorem covers_lineAt {b : Buffer} {k : Nat} (h : k < b.count) {u v : Text} {c : Char}
    (hl : b.lineAt k = u ++ c :: v) :
    (Comments.ofBuffer b).covers (b.offsetAt k + u.length : Nat) =
      (Scan.modeAfter (b.modeAt k) (b.offsetAt k) u).inComment c v.head? := by
  obtain ⟨rest, htext, hrest⟩ := exists_text_eq h
  have hcut : b.text = (b.above k ++ u) ++ c :: (v ++ rest) := by
    rw [htext, hl]
    simp
  have hpos : b.offsetAt k + u.length = (b.above k ++ u).length := by
    rw [List.length_append, length_above]
  rw [Comments.ofBuffer, hcut, hpos, Comments.covers_ofText, Scan.Mode.inComment_append hrest,
    Scan.modeAfter_append, length_above, Nat.zero_add, ← modeAt]

/-- The content of a line starts inside a comment exactly if it starts a comment, or if one is open
at the start of the line. -/
theorem covers_contentAt {b : Buffer} {k : Nat} (h : k < b.count)
    (hl : (b.lineAt k).content ≠ []) :
    (Comments.ofBuffer b).covers (b.contentAt k) =
      (startsComment (b.lineAt k) || (b.modeAt k).openSince.isSome) := by
  obtain ⟨c, v, hcontent⟩ := List.exists_cons_of_ne_nil hl
  have hline : b.lineAt k = (b.lineAt k).lead ++ c :: v := by
    rw [← hcontent, Text.lead_append_content]
  have hresting := resting_modeAt (Nat.le_of_lt h)
  rw [contentAt, covers_lineAt h hline,
    hresting.modeAfter_blank fun c hc => Text.isBlank_of_mem_lead hc]
  obtain hcode | ⟨s, d, hblock⟩ := hresting.eq_code_or_block
  · rw [hcode, Scan.Mode.inComment, opensComment_eq_startsComment hcontent]
    exact (Bool.or_false _).symm
  · rw [hblock]
    exact (Bool.or_true _).symm

/-- With the buffer's own comments, the kind of a line is decided by the mode at its start. -/
theorem kindAt_ofBuffer {b : Buffer} {k : Nat} (h : k < b.count) :
    b.kindAt (.ofBuffer b) k = .ok (.ofMode (b.modeAt k) (b.lineAt k)) := by
  rw [kindAt_eq, LineKind.ofMode]
  by_cases hblank : (b.lineAt k).content = []
  · rw [if_pos hblank, if_pos hblank]
  · rw [if_neg hblank, if_neg hblank, Oracle.ofBuffer, Oracle.ofComments,
      covers_contentAt h hblank]
    cases startsComment (b.lineAt k) <;> rfl

end Buffer

/-- The kind of a line depends on the shape of the mode and on the core of the line. -/
theorem LineKind.ofMode_congr {m n : Scan.Mode} (hshape : m.shape = n.shape) {l l' : Text}
    (hcore : l.core = l'.core) : LineKind.ofMode m l = LineKind.ofMode n l' := by
  have hopen : m.openSince.isSome = n.openSince.isSome := by
    cases m <;> cases n <;> simp_all [Scan.Mode.shape, Scan.Mode.openSince]
  have hblank : l.content = [] ↔ l'.content = [] := by
    rw [← Text.core_eq_nil_iff, hcore, Text.core_eq_nil_iff]
  have hstarts : startsComment l = startsComment l' := by
    rw [← startsComment_core, hcore, startsComment_core]
  simp only [ofMode, hblank, hstarts, hopen]

namespace Buffer

/-- With the buffers' own comments, the kind of a line is decided by the cores of the lines down to
it. -/
theorem kindAt_congr {b b' : Buffer} {k : Nat} (hk : k < b.count) (hk' : k < b'.count)
    (h : ∀ j, j ≤ k → (b.lineAt j).core = (b'.lineAt j).core) :
    b.kindAt (.ofBuffer b) k = b'.kindAt (.ofBuffer b') k := by
  have hshape := shape_modeAt_congr (Nat.le_of_lt hk) (Nat.le_of_lt hk') fun j hj => h j (by omega)
  rw [kindAt_ofBuffer hk, kindAt_ofBuffer hk', LineKind.ofMode_congr hshape (h k (Nat.le_refl k))]

/-- Plain lines keep their cores in a buffer. -/
theorem cores_ofLines (ls : List Text) :
    (ofLines ls).lines.map Text.core = ls.map Text.core := by
  rw [ofLines, List.map_map]
  exact List.map_congr_left fun l _ => Text.core_dropEnd l

theorem count_ofLines (ls : List Text) : (ofLines ls).count = (Buffer.mk ls).count :=
  List.length_map _

theorem lineAt_ofLines (ls : List Text) (k : Nat) :
    (ofLines ls).lineAt k = ((Buffer.mk ls).lineAt k).dropEnd isLineEnd := by
  unfold lineAt ofLines
  rw [List.getD_eq_getElem?_getD, List.getD_eq_getElem?_getD, List.getElem?_map]
  cases ls[k]? <;> rfl

/-- What is the same for all lines of two buffers is the same for each, also past the end. -/
theorem apply_lineAt_congr {α : Type} {f : Text → α} {b b' : Buffer}
    (h : b.lines.map f = b'.lines.map f) (j : Nat) : f (b.lineAt j) = f (b'.lineAt j) := by
  have hmap : ∀ a : Buffer, f (a.lineAt j) = (a.lines.map f).getD j (f []) := by
    intro a
    rw [lineAt, List.getD_eq_getElem?_getD, List.getD_eq_getElem?_getD, List.getElem?_map]
    cases a.lines[j]? <;> rfl
  rw [hmap, hmap, h]

/-- Buffers whose lines have the same cores have the same line kinds, at every index. -/
theorem kind_congr {b b' : Buffer} (h : b.lines.map Text.core = b'.lines.map Text.core) (i : Int) :
    b.kind (.ofBuffer b) i = b'.kind (.ofBuffer b') i := by
  have hcount : b.count = b'.count := by simpa [count] using congrArg List.length h
  rw [kind, kind, ← hcount]
  split
  next => rfl
  next hneg =>
    split
    next hlt => exact kindAt_congr (by omega) (by omega) fun j _ => apply_lineAt_congr h j
    next => rfl

end Buffer

end FabEdit
