import FabEdit.Proofs.LinesAbove

/-!
# Lines that open no block

Lines without a block opener can be put anywhere outside a comment without moving any line below
them: blank lines, comments that hide whatever they like, statements, strings that break off.

Shape of the argument:

* `Buffer.SameLines` says that a stretch of lines in one buffer is also a stretch of lines in
  another, at another place. Where the scan enters both stretches alike, it leaves them alike
  (`SameLines.shape_modeAt`), it finds lines of the same kinds in them (`SameLines.kindAt_eq`), and
  the openers above them are alike if they were before (`SameLines.openersAbove_alike`).
* A buffer with lines inserted has three such stretches: the lines in front, the inserted lines as
  if they stood alone, and the lines behind. Between them the scan is in code (`modeAt_eq_code`),
  since neither the lines in front nor the inserted ones end inside a comment.
* On the way up through the inserted lines no opener is met (`openersAbove_eq_of_no_opener`).
-/

namespace FabEdit

/-- Whether lines end inside a comment, so that a newline after them would belong to it. Line
comments end before their newline, so this is about block comments. -/
def endsInComment (ls : List Text) : Bool :=
  (Comments.ofText (Text.ofLines ls ++ ['\n'])).covers (Text.ofLines ls).length

namespace Buffer

/-- Lines put in front of line `k`. -/
def insertLines (b : Buffer) (k : Nat) (ls : List Text) : Buffer :=
  ⟨b.lines.take k ++ ls ++ b.lines.drop k⟩

/-! ## Stretches of lines -/

/-- From line `i` on, `n` lines of a buffer are those of another buffer from line `i'` on. -/
structure SameLines (b : Buffer) (i : Nat) (b' : Buffer) (i' n : Nat) : Prop where
  le_count : i + n ≤ b.count
  le_count' : i' + n ≤ b'.count
  lineAt_eq : ∀ j, j < n → b.lineAt (i + j) = b'.lineAt (i' + j)

namespace SameLines

variable {b b' : Buffer} {i i' n : Nat}

theorem shorter (h : b.SameLines i b' i' n) {m : Nat} (hm : m ≤ n) : b.SameLines i b' i' m := by
  have hle := h.le_count
  have hle' := h.le_count'
  exact ⟨by omega, by omega, fun j hj => h.lineAt_eq j (by omega)⟩

/-- A scan that enters two stretches alike leaves them alike. -/
theorem shape_modeAt (h : b.SameLines i b' i' n)
    (hstart : (b.modeAt i).shape = (b'.modeAt i').shape) :
    (b.modeAt (i + n)).shape = (b'.modeAt (i' + n)).shape :=
  shape_modeAt_add h.le_count h.le_count' hstart fun j hj => by rw [h.lineAt_eq j hj]

theorem kindAt_eq (h : b.SameLines i b' i' n)
    (hstart : (b.modeAt i).shape = (b'.modeAt i').shape) {j : Nat} (hj : j < n) :
    b.kindAt (.ofBuffer b) (i + j) = b'.kindAt (.ofBuffer b') (i' + j) := by
  have hle := h.le_count
  have hle' := h.le_count'
  have hshape := (h.shorter (Nat.le_of_lt hj)).shape_modeAt hstart
  rw [kindAt_ofBuffer (by omega), kindAt_ofBuffer (by omega), h.lineAt_eq j hj,
    LineKind.ofMode_congr hshape rfl]

/-- Openers above two stretches that are alike at their starts are alike at their ends. -/
theorem openersAbove_alike (h : b.SameLines i b' i' n)
    (hstart : (b.modeAt i).shape = (b'.modeAt i').shape) {tab : Int} {openers : WordSet}
    (halike : Trail.Alike tab (b.openersAbove (.ofBuffer b) openers i)
      (b'.openersAbove (.ofBuffer b') openers i')) :
    Trail.Alike tab (b.openersAbove (.ofBuffer b) openers (i + n))
      (b'.openersAbove (.ofBuffer b') openers (i' + n)) := by
  induction n with
  | zero => exact halike
  | succ n ih =>
    have hline := h.lineAt_eq n (Nat.lt_succ_self n)
    apply openersAbove_succ_alike (h.kindAt_eq hstart (Nat.lt_succ_self n))
    · rw [hline]
    · intro _ _
      rw [hline]
    · exact ih (h.shorter (Nat.le_succ n))

end SameLines

/-! ## Between stretches -/

private theorem flatMap_newline {ls : List Text} (h : ls ≠ []) :
    (ls.flatMap fun l => l ++ ['\n']) = Text.ofLines ls ++ ['\n'] := by
  induction ls with
  | nil => exact absurd rfl h
  | cons l ls ih =>
    cases ls with
    | nil => simp
    | cons m ls =>
      rw [List.flatMap_cons, ih (by simp), Text.ofLines_cons_cons]
      simp

/-- After lines that do not end inside a comment the scan is in code. -/
theorem modeAt_eq_code {b : Buffer} {k : Nat} (h : endsInComment (b.lines.take k) = false) :
    b.modeAt k = .code := by
  by_cases hnil : b.lines.take k = []
  · rw [modeAt, above, hnil]
    rfl
  · rw [endsInComment, Comments.covers_ofText] at h
    rw [modeAt, above, flatMap_newline hnil, Scan.modeAfter_append]
    rw [show Scan.modeAfter _ _ ['\n'] = Scan.step _ '\n' _ from rfl, Scan.step_newline]
    exact Scan.Mode.rest_eq_code h

/-- Lines that open no block are passed over on the way up. -/
theorem openersAbove_eq_of_no_opener {b : Buffer} {openers : WordSet} {k n : Nat}
    (hn : k + n ≤ b.count)
    (h : ∀ j, j < n → b.kindAt (.ofBuffer b) (k + j) = .ok .source →
      (b.lineAt (k + j)).firstWord ∉ openers) :
    b.openersAbove (.ofBuffer b) openers (k + n) = b.openersAbove (.ofBuffer b) openers k := by
  induction n with
  | zero => rfl
  | succ n ih =>
    have hrest := ih (by omega) fun j hj => h j (by omega)
    rw [← Nat.add_assoc, openersAbove_succ]
    split
    next e he =>
      rw [kindAt_ofBuffer (by omega)] at he
      cases he
    next hsource => rw [if_neg (h n (Nat.lt_succ_self n) hsource), hrest]
    next => exact hrest

/-! ## The three stretches of a buffer with lines inserted -/

section Insert

variable {b : Buffer} {k : Nat} (hk : k ≤ b.count) (ls : List Text)

include hk

theorem count_insertLines : (b.insertLines k ls).count = b.count + ls.length := by
  rw [count] at hk ⊢
  simp only [insertLines, List.length_append, List.length_take, List.length_drop, count]
  omega

private theorem length_take_lines : (b.lines.take k).length = k := List.length_take_of_le hk

theorem sameLines_front : (b.insertLines k ls).SameLines 0 b 0 k := by
  have hcount := count_insertLines hk ls
  refine ⟨by omega, by omega, fun j hj => ?_⟩
  have hlt : j < (b.lines.take k).length := by rwa [length_take_lines hk]
  simp only [Nat.zero_add, lineAt, insertLines, List.getD_eq_getElem?_getD, List.append_assoc]
  rw [List.getElem?_append_left hlt, List.getElem?_take_of_lt hj]

theorem sameLines_inserted : (b.insertLines k ls).SameLines k ⟨ls⟩ 0 ls.length := by
  have hcount := count_insertLines hk ls
  refine ⟨by omega, by simp [count], fun j hj => ?_⟩
  have hge : (b.lines.take k).length ≤ k + j := by rw [length_take_lines hk]; omega
  simp only [Nat.zero_add, lineAt, insertLines, List.getD_eq_getElem?_getD, List.append_assoc]
  rw [List.getElem?_append_right hge, length_take_lines hk, Nat.add_sub_cancel_left,
    List.getElem?_append_left hj]

theorem sameLines_behind :
    (b.insertLines k ls).SameLines (k + ls.length) b k (b.count - k) := by
  have hcount := count_insertLines hk ls
  refine ⟨by omega, by omega, fun j hj => ?_⟩
  have hlength : (b.lines.take k ++ ls).length = k + ls.length := by
    rw [List.length_append, length_take_lines hk]
  simp only [lineAt, insertLines, List.getD_eq_getElem?_getD]
  rw [List.getElem?_append_right (by omega), hlength, List.getElem?_drop, Nat.add_sub_cancel_left]

variable {ls}

/-- Between the stretches the scan is in code. -/
theorem modeAt_insertLines (hfront : endsInComment (b.lines.take k) = false)
    (hend : endsInComment ls = false) :
    ((b.insertLines k ls).modeAt k).shape = .code ∧
      ((b.insertLines k ls).modeAt (k + ls.length)).shape = .code := by
  have hstart : ((b.insertLines k ls).modeAt k).shape = .code := by
    have hshape := (sameLines_front hk ls).shape_modeAt rfl
    rwa [Nat.zero_add, modeAt_eq_code hfront] at hshape
  have hshape := (sameLines_inserted hk ls).shape_modeAt hstart
  have hcode : (Buffer.mk ls).modeAt ls.length = .code :=
    modeAt_eq_code (by rwa [List.take_length])
  rw [Nat.zero_add, hcode] at hshape
  exact ⟨hstart, hshape⟩

/-- Lines that open no block leave the openers above every line as they are. -/
theorem openersAbove_insertLines_alike {tab : Int} {openers : WordSet}
    (hfront : endsInComment (b.lines.take k) = false) (hend : endsInComment ls = false)
    (hopen : ∀ j, j < ls.length → (Buffer.mk ls).kindAt (.ofBuffer ⟨ls⟩) j = .ok .source →
      ((Buffer.mk ls).lineAt j).firstWord ∉ openers) {i : Nat} (hki : k ≤ i) (hi : i ≤ b.count) :
    Trail.Alike tab
      ((b.insertLines k ls).openersAbove (.ofBuffer (b.insertLines k ls)) openers (i + ls.length))
      (b.openersAbove (.ofBuffer b) openers i) := by
  obtain ⟨hstart, hcode⟩ := modeAt_insertLines hk hfront hend
  have hfrontAlike : Trail.Alike tab
      ((b.insertLines k ls).openersAbove (.ofBuffer (b.insertLines k ls)) openers (0 + k))
      (b.openersAbove (.ofBuffer b) openers (0 + k)) :=
    (sameLines_front hk ls).openersAbove_alike rfl .done
  have hinserted := sameLines_inserted hk ls
  -- Through the inserted lines the openers above stay those in front.
  have hpassed : (b.insertLines k ls).openersAbove (.ofBuffer (b.insertLines k ls)) openers
      (k + ls.length) =
      (b.insertLines k ls).openersAbove (.ofBuffer (b.insertLines k ls)) openers k := by
    refine openersAbove_eq_of_no_opener hinserted.le_count fun j hj hsource => ?_
    rw [hinserted.kindAt_eq hstart hj, Nat.zero_add] at hsource
    rw [hinserted.lineAt_eq j hj, Nat.zero_add]
    exact hopen j hj hsource
  have hbehind := (sameLines_behind hk ls).shorter (m := i - k) (by omega)
  have hmode : ((b.insertLines k ls).modeAt (k + ls.length)).shape = (b.modeAt k).shape := by
    rw [hcode, modeAt_eq_code hfront]
    rfl
  rw [Nat.zero_add] at hfrontAlike
  have halike := hbehind.openersAbove_alike hmode (hpassed ▸ hfrontAlike)
  have hindex : k + ls.length + (i - k) = i + ls.length := by omega
  rwa [hindex, Nat.add_sub_cancel' hki] at halike

end Insert

end Buffer

/-- Lines that open no block are transparent. If neither the lines in front of them nor they
themselves end inside a comment, then no request below them is answered differently for them. Their
kinds are those that they have when they stand alone. -/
theorem request_insertLines (layout : Layout) (width : Int) (kind : RequestKind) (b : Buffer)
    (i : Int) (k : Nat) (ls : List Text) (hi : b.InRange i) (hk : (k : Int) ≤ i)
    (hfront : endsInComment (b.lines.take k) = false) (hend : endsInComment ls = false)
    (hopen : ∀ j : Nat, (Buffer.mk ls).kind (.ofBuffer ⟨ls⟩) j = .ok .source →
      ((Buffer.mk ls).lineAt j).firstWord ∉ layout.openers) :
    request layout (b.insertLines k ls) (.ofBuffer (b.insertLines k ls)) width kind
        (i + ls.length) =
      request layout b (.ofBuffer b) width kind i := by
  obtain ⟨hlow, hhigh⟩ := hi
  have hle : k ≤ b.count := by omega
  have hcount := Buffer.count_insertLines hle ls
  have hindex : (i + ls.length).toNat = i.toNat + ls.length := by omega
  have hline : (b.insertLines k ls).lineAt (i.toNat + ls.length) = b.lineAt i.toNat := by
    have hbehind := (Buffer.sameLines_behind hle ls).lineAt_eq (i.toNat - k) (by omega)
    have hplace : k + ls.length + (i.toNat - k) = i.toNat + ls.length := by omega
    rwa [hplace, Nat.add_sub_cancel' (by omega)] at hbehind
  have hkinds : ∀ j, j < ls.length → (Buffer.mk ls).kindAt (.ofBuffer ⟨ls⟩) j = .ok .source →
      ((Buffer.mk ls).lineAt j).firstWord ∉ layout.openers := by
    intro j hj hsource
    apply hopen j
    rwa [Buffer.kind_natCast hj]
  have hcolumn : structuralColumn layout (b.insertLines k ls) (.ofBuffer (b.insertLines k ls)) width
      (i.toNat + ls.length) = structuralColumn layout b (.ofBuffer b) width i.toNat :=
    columnBelow_alike
      (Buffer.openersAbove_insertLines_alike hle hfront hend hkinds (by omega) (by omega)) width
      (by rw [hline])
  have hin : b.InRange i := ⟨hlow, hhigh⟩
  have hin' : (b.insertLines k ls).InRange (i + ls.length) := ⟨by omega, by omega⟩
  rw [request, request, place, place, if_pos hin, if_pos hin', hindex, hline, hcolumn]

/-- A branch with a line to indent. -/
private def branch : Buffer := ⟨["fn f()", "  if x", "else", "y"].map String.toList⟩

/-- Nested comments over several lines that hide openers, a string that breaks off with a comment
mark and an opener in it, a line comment, a blank line and a statement. -/
private def filler : List Text :=
  ["/* if /* x", "fn */ while", "*/ if", "s = \"/* if \\", "// if", " \t", "z = 'if'"].map
    String.toList

/-- The branch still lines up with its condition when `filler` stands between the two. -/
theorem request_branch_filler :
    request Config.default.layout (branch.insertLines 2 filler)
        (.ofBuffer (branch.insertLines 2 filler)) 4 .fresh (2 + filler.length) =
      request Config.default.layout branch (.ofBuffer branch) 4 .fresh 2 ∧
    request Config.default.layout branch (.ofBuffer branch) 4 .fresh 2 = .ok (.found 2) := by
  constructor
  · refine request_insertLines Config.default.layout 4 .fresh branch 2 2 filler (by decide)
      (by decide) (by decide +kernel) (by decide +kernel) fun j hsource => ?_
    rcases j with _ | _ | _ | _ | _ | _ | _ | j
    -- The only line that starts with an opener starts inside a comment.
    case succ.zero => exact absurd hsource (by decide +kernel)
    case succ.succ.succ.succ.succ.succ.succ =>
      have hlast : ¬ ((j + 7 : Nat) : Int) < (Buffer.mk filler).count := by
        show ¬ ((j + 7 : Nat) : Int) < 7
        omega
      rw [Buffer.kind, if_neg (by omega), if_neg hlast] at hsource
      cases hsource
    all_goals decide
  · rw [request, if_neg (by decide), if_neg (by decide)]
    exact congrArg Except.ok (by decide +kernel)

end FabEdit
