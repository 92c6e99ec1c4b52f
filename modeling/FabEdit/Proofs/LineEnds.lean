import FabEdit.Proofs.LinesAbove

/-!
# Line ends do not matter

Text from another system comes with a carriage return at the end of every line. A buffer made from
the text keeps it as part of the line, a buffer made from plain lines drops it. The two have
different offsets, a backslash at the end of a line escapes something in the one and nothing in the
other, and blank lines differ in length. All the same they give the same answers.

Shape of the argument:

* Carriage returns take no room, so a line keeps its column without them (`column_dropEnd`). A
  newline does take room: this is where lines have to be free of newlines.
* Dropping line ends touches no core either, so above every line the two buffers agree on all that
  counts (`Buffer.sameAbove_ofLines`) and every request is answered alike (`request_ofLines`).
* The buffer of a text with two-character line ends holds the plain lines with carriage returns
  (`ofText_intercalate_crlf`), and to drop these gives the plain lines (`ofLines_withReturns`).
-/

namespace FabEdit

/-! ## Columns -/

/-- Carriage returns take no room. -/
theorem foldl_advance_of_carriageReturns {e : Text} (he : ∀ c ∈ e, c = '\r') (tab col : Int) :
    e.foldl (advance tab) col = col := by
  induction e with
  | nil => rfl
  | cons c e ih =>
    obtain rfl : c = '\r' := he c List.mem_cons_self
    have hstep : advance tab col '\r' = col := by simp [advance]
    rw [List.foldl_cons, hstep]
    exact ih fun d hd => he d (List.mem_cons_of_mem _ hd)

theorem column_append_carriageReturns {e : Text} (he : ∀ c ∈ e, c = '\r') (tab : Int) (l : Text) :
    column tab (l ++ e) = column tab l := by
  rw [column_eq_foldl, column_eq_foldl, Text.lead_eq_takeWhile, Text.lead_eq_takeWhile,
    List.takeWhile_append]
  split
  next hblank =>
    -- A blank line: its carriage returns are blanks like the others.
    have hlead : l.takeWhile isBlank = l := (List.takeWhile_prefix isBlank).eq_of_length hblank
    rw [List.foldl_append, hlead]
    exact foldl_advance_of_carriageReturns (fun c hc => he c (List.takeWhile_subset _ hc)) tab _
  next => rfl

/-- Without a newline in it, a line keeps its column when its line end is dropped. -/
theorem column_dropEnd {l : Text} (h : '\n' ∉ l) (tab : Int) :
    column tab (l.dropEnd Buffer.isLineEnd) = column tab l := by
  have hsplit : l.dropEnd Buffer.isLineEnd ++ l.rtakeWhile Buffer.isLineEnd = l :=
    List.rdropWhile_append_rtakeWhile
  have hreturns : ∀ c ∈ l.rtakeWhile Buffer.isLineEnd, c = '\r' := by
    intro c hc
    have hend := List.mem_rtakeWhile_imp hc
    have hne : c ≠ '\n' := by
      rintro rfl
      exact h ((List.rtakeWhile_suffix Buffer.isLineEnd l).subset hc)
    simpa [Buffer.isLineEnd, hne] using hend
  calc column tab (l.dropEnd Buffer.isLineEnd)
      = column tab (l.dropEnd Buffer.isLineEnd ++ l.rtakeWhile Buffer.isLineEnd) :=
        (column_append_carriageReturns hreturns tab _).symm
    _ = column tab l := by rw [hsplit]

/-! ## Buffers -/

namespace Buffer

variable {ls : List Text}

theorem core_lineAt_ofLines (ls : List Text) (k : Nat) :
    ((Buffer.mk ls).lineAt k).core = ((ofLines ls).lineAt k).core := by
  rw [lineAt_ofLines, Text.core_dropEnd]

theorem column_lineAt_ofLines (h : ∀ l ∈ ls, '\n' ∉ l) (tab : Int) {k : Nat} (hk : k < ls.length) :
    FabEdit.column tab ((Buffer.mk ls).lineAt k) = FabEdit.column tab ((ofLines ls).lineAt k) := by
  have hline : (Buffer.mk ls).lineAt k ∈ ls := by
    rw [lineAt_eq_getElem hk]
    exact List.getElem_mem hk
  rw [lineAt_ofLines, column_dropEnd (h _ hline)]

/-- Lines with and without their carriage returns agree on all that counts above a line. -/
theorem sameAbove_ofLines (h : ∀ l ∈ ls, '\n' ∉ l) (layout : Layout) {k : Nat}
    (hk : k ≤ ls.length) : (Buffer.mk ls).SameAbove layout (ofLines ls) k where
  le_count := hk
  le_count' := (count_ofLines ls).symm ▸ hk
  core j _ := core_lineAt_ofLines ls j
  column _ hj _ _ := column_lineAt_ofLines h layout.tab (Nat.lt_of_lt_of_le hj hk)

end Buffer

/-- Lines with and without their carriage returns give the same place for every index, and the same
refusals of widths. -/
theorem request_ofLines {ls : List Text} (h : ∀ l ∈ ls, '\n' ∉ l) (layout : Layout) (width : Int)
    (kind : RequestKind) (i : Int) :
    request layout ⟨ls⟩ (.ofBuffer ⟨ls⟩) width kind i =
      request layout (.ofLines ls) (.ofBuffer (.ofLines ls)) width kind i := by
  have hplace : place layout ⟨ls⟩ (.ofBuffer ⟨ls⟩) width kind i =
      place layout (.ofLines ls) (.ofBuffer (.ofLines ls)) width kind i := by
    by_cases hi : (Buffer.mk ls).InRange i
    · have hi' : (Buffer.ofLines ls).InRange i := by
        unfold Buffer.InRange
        rwa [Buffer.count_ofLines]
      have hk : i.toNat < ls.length := (Int.toNat_lt hi.1).2 hi.2
      exact (Buffer.sameAbove_ofLines h layout (Nat.le_of_lt hk)).place_eq hi hi'
        (Buffer.core_lineAt_ofLines ls i.toNat)
        (fun _ => Buffer.column_lineAt_ofLines h layout.tab hk) width
    · have hi' : ¬ (Buffer.ofLines ls).InRange i := by
        unfold Buffer.InRange
        rwa [Buffer.count_ofLines]
      rw [place, place, if_neg hi, if_neg hi', Buffer.count_ofLines]
  rw [request, request, hplace]

/-! ## Texts with two-character line ends -/

/-- A line end of two characters. -/
def crlf : Text := ['\r', '\n']

/-- Lines with a carriage return after each of them but the last. -/
def withReturns : List Text → List Text
  | [] => []
  | [l] => [l]
  | l :: m :: ls => (l ++ ['\r']) :: withReturns (m :: ls)

theorem intercalate_crlf (ls : List Text) :
    List.intercalate crlf ls = Text.ofLines (withReturns ls) := by
  induction ls using withReturns.induct with
  | case1 => rfl
  | case2 l => rw [withReturns, Text.ofLines_singleton, List.intercalate_singleton]
  | case3 l m ls ih =>
    obtain ⟨x, xs, hx⟩ : ∃ x xs, withReturns (m :: ls) = x :: xs := by
      cases ls with
      | nil => exact ⟨m, [], rfl⟩
      | cons n ls => exact ⟨_, _, rfl⟩
    rw [List.intercalate_cons_cons, ih, withReturns, hx, Text.ofLines_cons_cons]
    simp [crlf]

theorem not_mem_withReturns {ls : List Text} (h : ∀ l ∈ ls, '\n' ∉ l) :
    ∀ l ∈ withReturns ls, '\n' ∉ l := by
  induction ls using withReturns.induct with
  | case1 => exact h
  | case2 l => exact h
  | case3 l m ls ih =>
    obtain ⟨hl, hrest⟩ := List.forall_mem_cons.1 h
    refine List.forall_mem_cons.2 ⟨?_, ih hrest⟩
    simpa using hl

theorem withReturns_ne_nil {ls : List Text} (h : ls ≠ []) : withReturns ls ≠ [] := by
  cases ls using withReturns.fun_cases with
  | case1 => exact h
  | case2 l => exact List.cons_ne_nil l []
  | case3 l m ls => exact List.cons_ne_nil _ _

theorem dropEnd_append_lineEnd {e : Text} (he : ∀ c ∈ e, Buffer.isLineEnd c = true) (l : Text) :
    (l ++ e).dropEnd Buffer.isLineEnd = l.dropEnd Buffer.isLineEnd := by
  have hnil : e.dropEnd Buffer.isLineEnd = [] := List.rdropWhile_eq_nil_iff.2 he
  rw [Text.dropEnd_append, if_pos hnil]

theorem ofLines_withReturns (ls : List Text) :
    Buffer.ofLines (withReturns ls) = Buffer.ofLines ls := by
  apply congrArg Buffer.mk
  induction ls using withReturns.induct with
  | case1 => rfl
  | case2 l => rfl
  | case3 l m ls ih =>
    have hreturn : (l ++ ['\r']).dropEnd Buffer.isLineEnd = l.dropEnd Buffer.isLineEnd :=
      dropEnd_append_lineEnd (by simp [Buffer.isLineEnd]) l
    rw [withReturns, List.map_cons, ih, hreturn]
    rfl

theorem ofLines_map_append_crlf (ls : List Text) :
    Buffer.ofLines (ls.map (· ++ crlf)) = Buffer.ofLines ls := by
  unfold Buffer.ofLines
  rw [List.map_map]
  apply congrArg Buffer.mk
  apply List.map_congr_left
  intro l _
  exact dropEnd_append_lineEnd (by simp [crlf, Buffer.isLineEnd]) l

/-- The buffer of a text with two-character line ends keeps the carriage returns. -/
theorem ofText_intercalate_crlf {ls : List Text} (hne : ls ≠ []) (h : ∀ l ∈ ls, '\n' ∉ l) :
    Buffer.ofText (List.intercalate crlf ls) = ⟨withReturns ls⟩ := by
  rw [intercalate_crlf]
  exact congrArg Buffer.mk
    (List.splitOn_intercalate '\n' (not_mem_withReturns h) (withReturns_ne_nil hne))

/-- Line ends do not matter. Lines that hold no newline are placed alike whether their carriage
returns are kept or dropped; with both widths positive, each line has a column. So the buffer of a
text with two-character line ends answers every request like the buffer made from its plain lines,
whether these come with their line ends or without. -/
theorem request_ignores_line_ends (layout : Layout) (width : Int) (kind : RequestKind) (i : Int)
    (ls : List Text) (h : ∀ l ∈ ls, '\n' ∉ l) :
    let answer := fun b : Buffer => request layout b (.ofBuffer b) width kind i
    answer ⟨ls⟩ = answer (.ofLines ls) ∧
    (1 ≤ width → 1 ≤ layout.tab → (Buffer.mk ls).InRange i →
      ∃ col, answer ⟨ls⟩ = .ok (.found col) ∧ 0 ≤ col) ∧
    (ls ≠ [] →
      answer (.ofText (List.intercalate crlf ls)) = answer (.ofLines ls) ∧
      answer (.ofText (List.intercalate crlf ls)) = answer (.ofLines (ls.map (· ++ crlf)))) := by
  intro answer
  refine ⟨request_ofLines h layout width kind i, fun hwidth htab hi => ?_, fun hne => ?_⟩
  · obtain ⟨col, hcol, hnonneg⟩ :=
      exists_place_found layout (by omega) (by omega : 0 ≤ width) hi kind
    refine ⟨col, ?_, hnonneg⟩
    show request layout ⟨ls⟩ (.ofBuffer ⟨ls⟩) width kind i = _
    rw [request, if_neg (by omega), if_neg (by omega), hcol]
  · have hloaded : answer (.ofText (List.intercalate crlf ls)) = answer (.ofLines ls) := by
      rw [ofText_intercalate_crlf hne h, ← ofLines_withReturns]
      exact request_ofLines (not_mem_withReturns h) layout width kind i
    refine ⟨hloaded, ?_⟩
    rw [ofLines_map_append_crlf, hloaded]

/-- Lines of which some carry carriage returns: after a backslash in an open string, after a comment
mark, and on a blank line. -/
private def foreign : List Text :=
  ["fn f()\r", "s = \"a\\\r", "  if x // /*\r\r", "\t \r", "\r", "else"].map String.toList

/-- The answer to a request under the usual layout. -/
private def answerFor (kind : RequestKind) (i : Int) (b : Buffer) : Except Config.Fault Placement :=
  request Config.default.layout b (.ofBuffer b) 4 kind i

/-- A repeated request for the blank line goes from column 9 to column 5, and the branch lines up
with its condition, with the carriage returns and without. -/
theorem request_foreign :
    (∀ l ∈ foreign, '\n' ∉ l) ∧
    answerFor .again 3 ⟨foreign⟩ = .ok (.found 5) ∧
    answerFor .again 3 ⟨foreign⟩ = answerFor .again 3 (.ofLines foreign) ∧
    answerFor .fresh 5 (.ofText (List.intercalate crlf foreign)) = .ok (.found 2) ∧
    answerFor .fresh 5 (.ofText (List.intercalate crlf foreign)) =
      answerFor .fresh 5 (.ofLines foreign) ∧
    answerFor .fresh 5 (.ofText (List.intercalate crlf foreign)) =
      answerFor .fresh 5 (.ofLines (foreign.map (· ++ crlf))) := by
  have hforeign : ∀ l ∈ foreign, '\n' ∉ l := by decide
  have hagain := request_ignores_line_ends Config.default.layout 4 .again 3 foreign hforeign
  have hfresh := request_ignores_line_ends Config.default.layout 4 .fresh 5 foreign hforeign
  refine ⟨hforeign, ?_, hagain.1, ?_, hfresh.2.2 (by decide)⟩
  · rw [answerFor, request, if_neg (by decide), if_neg (by decide)]
    exact congrArg Except.ok (by decide +kernel)
  · rw [answerFor, request, if_neg (by decide), if_neg (by decide)]
    exact congrArg Except.ok (by decide +kernel)

end FabEdit
