import FabEdit.Proofs.LinesAbove

/-!
# Indenting a region

A region is indented from top to bottom, and each line is placed while the lines below it are still
as they were. One pass is enough: a second one finds every line where it belongs.

Shape of the argument:

* `Config.rowText` is the text that indenting gives a line. It depends on the lines above and on the
  content of the line (`rowText_congr`), so it survives whatever happens further down.
* `Config.Settled` says that a line already has that text. Indenting a row settles it and leaves the
  rows above it settled; by induction over the rows of the region all of them are settled at the end
  (`settled_indentRegion`).
* A pass over settled rows changes nothing (`foldl_indentRow_of_settled`), so a second pass changes
  nothing (`indentRegion_indentRegion`).

Lines outside the region are not touched at all, and no line loses its content
(`contents_indentRegion`). Whether the lines can be written where they belong is a question of its
own (`Config.Fits`).
-/

namespace FabEdit

namespace Buffer

@[simp] theorem set_lineAt (b : Buffer) (k : Nat) : b.set k (b.lineAt k) = b := by
  by_cases h : k < b.lines.length
  · rw [set, lineAt_eq_getElem h, List.set_getElem_self]
  · rw [set, List.set_eq_of_length_le (by omega)]

/-- To exchange a line for one of which something is the same keeps that of every line. -/
theorem map_lines_set {α : Type} {f : Text → α} {b : Buffer} {k : Nat} {l : Text}
    (h : f l = f (b.lineAt k)) : (b.set k l).lines.map f = b.lines.map f :=
  calc (b.set k l).lines.map f
      = (b.lines.map f).set k (f (b.lineAt k)) := by rw [set, List.map_set, h]
    _ = (b.set k (b.lineAt k)).lines.map f := by rw [set, List.map_set]
    _ = b.lines.map f := by rw [set_lineAt]

/-- Two buffers with the same lines above a line agree on all that counts there. -/
theorem SameAbove.of_lineAt_eq {layout : Layout} {b b' : Buffer} {k : Nat} (hk : k ≤ b.count)
    (hk' : k ≤ b'.count) (h : ∀ j, j < k → b.lineAt j = b'.lineAt j) :
    SameAbove layout b b' k :=
  ⟨hk, hk', fun j hj => by rw [h j hj], fun j hj _ _ => by rw [h j hj]⟩

end Buffer

namespace Config

variable (c : Config)

/-! ## One row -/

/-- The text of line `k` where it belongs. -/
def rowText (b : Buffer) (k : Nat) : Text :=
  if (b.lineAt k).content = [] then [] else c.reindent (c.columnFor b .fresh k) (b.lineAt k)

theorem indentRow_eq_set (b : Buffer) (k : Nat) : c.indentRow b k = b.set k (c.rowText b k) := by
  simp only [indentRow, rowText, Text.trim_eq_nil_iff]
  split <;> rfl

@[simp] theorem content_rowText (b : Buffer) (k : Nat) :
    (c.rowText b k).content = (b.lineAt k).content := by
  rw [rowText]
  split
  next hblank => rw [hblank]; rfl
  next => exact content_reindent _ _ _ _

/-- With positive widths the column of a line is never negative. -/
theorem columnFor_nonneg (b : Buffer) (kind : RequestKind) (i : Int) :
    0 ≤ c.columnFor b kind i := by
  rw [columnFor, place]
  by_cases hi : b.InRange i
  · obtain ⟨col, hcol, hnonneg⟩ := exists_place_found c.layout c.tabWidth.toInt_pos
      (Int.le_of_lt c.indentWidth.toInt_pos) hi kind
    rw [hcol]
    exact hnonneg
  · rw [FabEdit.place, if_neg hi]
    exact Int.le_refl 0

variable {c}

theorem columnFor_congr {b b' : Buffer} {k : Nat} (h : b.SameAbove c.layout b' k)
    (hk : k < b.count) (hk' : k < b'.count) (hline : (b.lineAt k).core = (b'.lineAt k).core) :
    c.columnFor b .fresh k = c.columnFor b' .fresh k := by
  have hplace : FabEdit.place c.layout b (.ofBuffer b) c.indentWidth.toInt .fresh k =
      FabEdit.place c.layout b' (.ofBuffer b') c.indentWidth.toInt .fresh k :=
    h.place_eq ⟨by omega, by omega⟩ ⟨by omega, by omega⟩ hline (by simp) _
  rw [columnFor, columnFor, place, place, hplace]

/-- The text of a line where it belongs depends on what lies above it and on its content. -/
theorem rowText_congr {b b' : Buffer} {k : Nat} (h : b.SameAbove c.layout b' k)
    (hk : k < b.count) (hk' : k < b'.count) (hline : (b.lineAt k).content = (b'.lineAt k).content) :
    c.rowText b k = c.rowText b' k := by
  rw [rowText, rowText, hline, columnFor_congr h hk hk' (Text.core_congr hline)]
  split
  · rfl
  · exact reindent_congr hline _ _ _

/-- A line is where it belongs. -/
def Settled (c : Config) (b : Buffer) (k : Nat) : Prop := b.lineAt k = c.rowText b k

/-- Indenting a row puts it where it belongs. -/
theorem settled_indentRow {b : Buffer} {k : Nat} (hk : k < b.count) :
    c.Settled (c.indentRow b k) k := by
  rw [Settled, indentRow_eq_set, Buffer.lineAt_set_self hk]
  refine rowText_congr (.of_lineAt_eq (by omega) (by simp; omega) fun j hj => ?_) hk (by simpa) ?_
  · rw [Buffer.lineAt_set_of_ne (by omega)]
  · rw [Buffer.lineAt_set_self hk, content_rowText]

/-- Indenting a row leaves the rows above it where they belong. -/
theorem Settled.indentRow {b : Buffer} {j k : Nat} (h : c.Settled b j) (hjk : j < k)
    (hj : j < b.count) : c.Settled (c.indentRow b k) j := by
  rw [Settled, indentRow_eq_set, Buffer.lineAt_set_of_ne (by omega), h]
  refine rowText_congr (.of_lineAt_eq (by omega) (by simp; omega) fun i hi => ?_) hj (by simpa) ?_
  · rw [Buffer.lineAt_set_of_ne (by omega)]
  · rw [Buffer.lineAt_set_of_ne (by omega)]

theorem indentRow_of_settled {b : Buffer} {k : Nat} (h : c.Settled b k) : c.indentRow b k = b := by
  rw [indentRow_eq_set, ← h, Buffer.set_lineAt]

/-- A settled line that is not blank stands at the column at which it belongs. -/
theorem Settled.column_eq {b : Buffer} {k : Nat} (h : c.Settled b k)
    (hline : (b.lineAt k).content ≠ []) :
    column c.tabWidth.toInt (b.lineAt k) = c.columnFor b .fresh k := by
  rw [Settled, rowText, if_neg hline] at h
  rw [h, reindent, column_reindent c.tabWidth.toInt_pos]
  exact Int.max_eq_left (c.columnFor_nonneg b .fresh k)

/-! ## White space that can be written -/

/-- The white space that puts a line at a column. -/
def padding (c : Config) (col : Int) : Text :=
  FabEdit.padding c.tabs c.tabWidth.toInt (max col 0)

/-- The white space in front of a column can be written. -/
def Fits (room : Nat) (c : Config) (col : Int) : Prop := Writable room (c.padding col)

section Fits

variable {room : Nat} {col : Int}

theorem columnFault?_eq_none_iff : c.columnFault? room col = none ↔ c.Fits room col :=
  paddingFault?_eq_none_iff c.tabWidth.toInt_pos (Int.le_max_right col 0) room c.tabs

theorem explains_of_columnFault? {e : RunFault} (h : c.columnFault? room col = some e) :
    e.Explains room (c.padding col) :=
  explains_of_paddingFault? c.tabWidth.toInt_pos (Int.le_max_right col 0) h

theorem exists_columnFault? (h : ¬ c.Fits room col) :
    ∃ e : RunFault, c.columnFault? room col = some e ∧ e.Explains room (c.padding col) := by
  obtain ⟨e, he⟩ := Option.ne_none_iff_exists'.1 (mt columnFault?_eq_none_iff.1 h)
  exact ⟨e, he, explains_of_columnFault? he⟩

theorem not_fits_of_columnFault? {e : RunFault} (h : c.columnFault? room col = some e) :
    ¬ c.Fits room col := by
  rw [← columnFault?_eq_none_iff, h]
  exact Option.some_ne_none e

/-- There is white space for every column that a word can count and that is within the room. -/
theorem fits_of_le (hcol : 0 ≤ col) (hword : FitsWord col) (hroom : col ≤ room) :
    c.Fits room col := by
  rw [Fits, padding, Int.max_eq_left hcol]
  exact writable_padding_of_le c.tabWidth.toInt_pos hcol hword hroom c.tabs

end Fits

theorem rowFault?_eq (room : Nat) (c : Config) (b : Buffer) (k : Nat) :
    c.rowFault? room b k =
      if (b.lineAt k).content = [] then none else c.lineFault? room b .fresh k := by
  simp only [rowFault?, Text.trim_eq_nil_iff]

theorem lineFault?_natCast (room : Nat) (c : Config) {b : Buffer} {k : Nat} (hk : k < b.count)
    (kind : RequestKind) :
    c.lineFault? room b kind k = c.columnFault? room (c.columnFor b kind k) :=
  if_pos (Buffer.inRange_natCast hk)

/-! ## Rows one after the other -/

variable (c)

@[simp] theorem count_indentRow (b : Buffer) (k : Nat) : (c.indentRow b k).count = b.count := by
  rw [indentRow_eq_set, Buffer.count_set]

@[simp] theorem count_foldl_indentRow (b : Buffer) (rows : List Nat) :
    (rows.foldl c.indentRow b).count = b.count := by
  induction rows generalizing b with
  | nil => rfl
  | cons k rows ih => rw [List.foldl_cons, ih, count_indentRow]

/-- What holds before a pass and survives each row holds after it. -/
theorem foldl_indentRow_induction {c : Config} {P : Buffer → Prop} {b : Buffer} (h : P b)
    (hstep : ∀ b k, P b → P (c.indentRow b k)) (rows : List Nat) :
    P (rows.foldl c.indentRow b) := by
  induction rows generalizing b with
  | nil => exact h
  | cons k rows ih => exact ih (hstep b k h)

/-- Indenting a row keeps the content of every line. -/
theorem contents_indentRow (b : Buffer) (k : Nat) :
    (c.indentRow b k).lines.map Text.content = b.lines.map Text.content := by
  rw [indentRow_eq_set]
  exact Buffer.map_lines_set (c.content_rowText b k)

theorem contents_foldl_indentRow (b : Buffer) (rows : List Nat) :
    (rows.foldl c.indentRow b).lines.map Text.content = b.lines.map Text.content := by
  induction rows generalizing b with
  | nil => rfl
  | cons k rows ih => rw [List.foldl_cons, ih, contents_indentRow]

variable {c}

/-- A pass over rows that are where they belong changes nothing. -/
theorem foldl_indentRow_of_settled {b : Buffer} {rows : List Nat}
    (h : ∀ k ∈ rows, c.Settled b k) : rows.foldl c.indentRow b = b := by
  induction rows with
  | nil => rfl
  | cons k rows ih =>
    rw [List.foldl_cons, indentRow_of_settled (h k (by simp))]
    exact ih fun j hj => h j (List.mem_cons_of_mem k hj)

/-- A pass from row `s` down extends the rows that are where they belong to the rows it has
passed. -/
theorem settled_foldl_range {b : Buffer} {lo s n : Nat} (hn : s + n ≤ b.count)
    (h : ∀ j, lo ≤ j → j < s → c.Settled b j) {j : Nat} (hlo : lo ≤ j) (hj : j < s + n) :
    c.Settled ((List.range' s n).foldl c.indentRow b) j := by
  induction n generalizing b s with
  | zero => exact h j hlo (by omega)
  | succ n ih =>
    rw [List.range'_succ, List.foldl_cons]
    refine ih (by rw [count_indentRow]; omega) (fun i hilo hi => ?_) (by omega)
    rcases Nat.lt_succ_iff_lt_or_eq.1 hi with hlt | rfl
    · exact (h i hilo hlt).indentRow hlt (by omega)
    · exact settled_indentRow (by omega)

/-! ## Regions -/

/-- The lines that a region reaches, from its start to before its end. -/
def InRegion (start : Int) (stop : Option Int) (k : Nat) : Prop :=
  start ≤ k ∧ ∀ e ∈ stop, (k : Int) < e

theorem mem_regionRows {count : Nat} {start : Int} {stop : Option Int} {k : Nat} :
    k ∈ regionRows count start stop ↔ InRegion start stop k ∧ k < count := by
  rw [regionRows, List.mem_range'_1, InRegion]
  cases stop with
  | none =>
    simp only [Option.getD_none, Option.not_mem_none, false_implies, implies_true, and_true]
    omega
  | some e =>
    simp only [Option.getD_some, Option.mem_def, Option.some.injEq, forall_eq']
    omega

@[simp] theorem count_indentRegion (c : Config) (b : Buffer) (start : Int) (stop : Option Int) :
    (c.indentRegion b start stop).count = b.count :=
  count_foldl_indentRow c b _

theorem contents_indentRegion (c : Config) (b : Buffer) (start : Int) (stop : Option Int) :
    (c.indentRegion b start stop).lines.map Text.content = b.lines.map Text.content :=
  contents_foldl_indentRow c b _

theorem cores_indentRegion (c : Config) (b : Buffer) (start : Int) (stop : Option Int) :
    (c.indentRegion b start stop).lines.map Text.core = b.lines.map Text.core := by
  -- The core of a line is its content without the line end.
  have hcores : ∀ ls : List Text,
      ls.map Text.core = (ls.map Text.content).map (Text.dropEnd Buffer.isLineEnd) := by
    intro ls
    rw [List.map_map]
    exact List.map_congr_left fun l _ => Text.core_eq_dropEnd_content l
  rw [hcores, contents_indentRegion, ← hcores]

/-- After a pass, every line of the region is where it belongs. -/
theorem settled_indentRegion {b : Buffer} {start : Int} {stop : Option Int} {k : Nat}
    (h : k ∈ regionRows b.count start stop) : c.Settled (c.indentRegion b start stop) k := by
  have hk := (mem_regionRows.1 h).2
  rw [regionRows, List.mem_range'_1] at h
  exact settled_foldl_range (by omega) (fun j hlo hj => absurd hlo (by omega)) h.1 h.2

/-- A second pass over a region changes nothing. -/
theorem indentRegion_indentRegion (c : Config) (b : Buffer) (start : Int) (stop : Option Int) :
    c.indentRegion (c.indentRegion b start stop) start stop = c.indentRegion b start stop := by
  rw [indentRegion, count_indentRegion]
  exact foldl_indentRow_of_settled fun k hk => settled_indentRegion hk

/-! ## Plain lines -/

/-- No line carries a line end. -/
def Trimmed (b : Buffer) : Prop := ∀ l ∈ b.lines, l.dropEnd Buffer.isLineEnd = l

theorem trimmed_ofLines (ls : List Text) : Trimmed (.ofLines ls) := by
  intro l hl
  obtain ⟨l', -, rfl⟩ := List.mem_map.1 hl
  exact Text.dropEnd_dropEnd _ l'

theorem Trimmed.ofLines_lines {b : Buffer} (h : Trimmed b) : Buffer.ofLines b.lines = b :=
  congrArg Buffer.mk ((List.map_congr_left h).trans (List.map_id b.lines))

theorem Trimmed.lineAt {b : Buffer} (h : Trimmed b) (k : Nat) :
    (b.lineAt k).dropEnd Buffer.isLineEnd = b.lineAt k := by
  by_cases hk : k < b.lines.length
  · rw [Buffer.lineAt_eq_getElem hk]
    exact h _ (List.getElem_mem hk)
  · have hnil : b.lineAt k = [] := by
      rw [Buffer.lineAt, List.getD_eq_getElem?_getD, List.getElem?_eq_none (by omega)]
      rfl
    rw [hnil]
    rfl

/-- Without a line end at the end of a line there is none at the end of its content. -/
theorem dropEnd_content_of_dropEnd {l : Text} (h : l.dropEnd Buffer.isLineEnd = l) :
    l.content.dropEnd Buffer.isLineEnd = l.content := by
  rw [← Text.core_eq_dropEnd_content, Text.core, h]

/-- To move a line gives it no line end. -/
theorem dropEnd_reindent (c : Config) (col : Int) {l : Text}
    (h : l.dropEnd Buffer.isLineEnd = l) :
    (c.reindent col l).dropEnd Buffer.isLineEnd = c.reindent col l := by
  rw [reindent, reindent_eq, Text.dropEnd_append, dropEnd_content_of_dropEnd h]
  split
  next hnil => rw [hnil, dropEnd_padding, List.append_nil]
  next => rfl

theorem Trimmed.set {b : Buffer} (h : Trimmed b) {l : Text} (hl : l.dropEnd Buffer.isLineEnd = l)
    (k : Nat) : Trimmed (b.set k l) := by
  intro l' hl'
  rcases List.mem_or_eq_of_mem_set hl' with hmem | rfl
  · exact h l' hmem
  · exact hl

theorem Trimmed.indentRow {b : Buffer} (h : Trimmed b) (c : Config) (k : Nat) :
    Trimmed (c.indentRow b k) := by
  rw [indentRow_eq_set]
  apply h.set
  rw [rowText]
  split
  · rfl
  · exact dropEnd_reindent c _ (h.lineAt k)

theorem trimmed_indentRegion (c : Config) (ls : List Text) (start : Int) (stop : Option Int) :
    Trimmed (c.indentRegion (.ofLines ls) start stop) :=
  foldl_indentRow_induction (trimmed_ofLines ls) (fun _ k h => h.indentRow c k) _

end Config

end FabEdit
