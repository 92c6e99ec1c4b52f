import FabEdit.Proofs.Region

/-!
# Regions have a canonical form

What indenting a region gives does not depend on how the region was indented before. Two passes over
lines that differ in their leading blanks see different texts at every step, with different offsets,
and make the same decision at every line.

Shape of the argument:

* `Buffer.SameBut` says that two buffers agree but for the leading blanks of some rows. The first of
  these rows has all the others below it, so nothing above it differs, and indenting it in both
  buffers takes it off the list (`sameBut_indentRow`).
* By induction over the rows nothing is left to differ in (`foldl_indentRow_congr`). The passes also
  fail alike, if a column is too far right to be written (`rowFault?_congr`).
* Conversely a pass shows all of the text but these leading blanks: it touches no line outside the
  region, and no core. So the result is the same for two lists of lines exactly if they are
  `SameAround` the region.
-/

namespace FabEdit

namespace Buffer

/-- Two buffers that agree but for the leading blanks of some rows. -/
structure SameBut (rows : List Nat) (b b' : Buffer) : Prop where
  count_eq : b.count = b'.count
  content_eq : ∀ k, (b.lineAt k).content = (b'.lineAt k).content
  lineAt_eq : ∀ k, k ∉ rows → b.lineAt k = b'.lineAt k

theorem ext_lineAt {b b' : Buffer} (hcount : b.count = b'.count)
    (h : ∀ k, b.lineAt k = b'.lineAt k) : b = b' := by
  apply congrArg Buffer.mk
  apply List.ext_getElem hcount
  intro k hk hk'
  rw [← lineAt_eq_getElem hk, ← lineAt_eq_getElem hk', h k]

theorem SameBut.eq {b b' : Buffer} (h : SameBut [] b b') : b = b' :=
  ext_lineAt h.count_eq fun k => h.lineAt_eq k List.not_mem_nil

/-- Nothing differs above the first of the rows, if it has all the others below it. -/
theorem SameBut.sameAbove {layout : Layout} {b b' : Buffer} {k : Nat} {rows : List Nat}
    (h : SameBut (k :: rows) b b') (hfirst : ∀ j ∈ rows, k < j) (hk : k ≤ b.count) :
    SameAbove layout b b' k := by
  refine .of_lineAt_eq hk (h.count_eq ▸ hk) fun j hj => h.lineAt_eq j fun hmem => ?_
  rcases List.mem_cons.1 hmem with rfl | hlater
  · exact Nat.lt_irrefl j hj
  · exact Nat.lt_asymm hj (hfirst j hlater)

end Buffer

namespace Config

/-! ## Two passes side by side -/

section Passes

variable {c : Config} {b b' : Buffer} {k : Nat} {rows : List Nat}

/-- Once the first of the rows is indented in both buffers, they differ in the other rows only. -/
theorem sameBut_indentRow (h : b.SameBut (k :: rows) b') (hfirst : ∀ j ∈ rows, k < j)
    (hk : k < b.count) : (c.indentRow b k).SameBut rows (c.indentRow b' k) := by
  have hk' : k < b'.count := h.count_eq ▸ hk
  have htext : c.rowText b k = c.rowText b' k :=
    rowText_congr (h.sameAbove hfirst (Nat.le_of_lt hk)) hk hk' (h.content_eq k)
  have hself : (b.set k (c.rowText b' k)).lineAt k = (b'.set k (c.rowText b' k)).lineAt k := by
    rw [Buffer.lineAt_set_self hk, Buffer.lineAt_set_self hk']
  rw [indentRow_eq_set, indentRow_eq_set, htext]
  refine ⟨by simpa using h.count_eq, fun j => ?_, fun j hj => ?_⟩
  · by_cases hjk : k = j
    · rw [← hjk, hself]
    · rw [Buffer.lineAt_set_of_ne hjk, Buffer.lineAt_set_of_ne hjk, h.content_eq j]
  · by_cases hjk : k = j
    · rw [← hjk, hself]
    · rw [Buffer.lineAt_set_of_ne hjk, Buffer.lineAt_set_of_ne hjk]
      exact h.lineAt_eq j fun hmem => (List.mem_cons.1 hmem).elim (fun heq => hjk heq.symm) hj

/-- The first of the rows can be written in both buffers, or the same stands against it. -/
theorem rowFault?_congr (h : b.SameBut (k :: rows) b') (hfirst : ∀ j ∈ rows, k < j)
    (hk : k < b.count) (room : Nat) : c.rowFault? room b k = c.rowFault? room b' k := by
  have hk' : k < b'.count := h.count_eq ▸ hk
  have hcolumn : c.columnFor b .fresh k = c.columnFor b' .fresh k :=
    columnFor_congr (h.sameAbove hfirst (Nat.le_of_lt hk)) hk hk' (Text.core_congr (h.content_eq k))
  rw [rowFault?_eq, rowFault?_eq, h.content_eq k, lineFault?_natCast room c hk,
    lineFault?_natCast room c hk', hcolumn]

/-- Passes over the rows in which two buffers differ end with one buffer, or meet the same fault. -/
theorem foldl_indentRow_congr (h : b.SameBut rows b') (hsorted : rows.Pairwise (· < ·))
    (hrows : ∀ k ∈ rows, k < b.count) (room : Nat) :
    rows.foldl c.indentRow b = rows.foldl c.indentRow b' ∧
      c.rowsFault? room b rows = c.rowsFault? room b' rows := by
  induction rows generalizing b b' with
  | nil => exact ⟨h.eq, rfl⟩
  | cons k rows ih =>
    obtain ⟨hfirst, hsorted⟩ := List.pairwise_cons.1 hsorted
    have hk := hrows k List.mem_cons_self
    have hrest : ∀ j ∈ rows, j < (c.indentRow b k).count := by
      intro j hj
      rw [count_indentRow]
      exact hrows j (List.mem_cons_of_mem k hj)
    obtain ⟨hbuffer, hfault⟩ := ih (sameBut_indentRow h hfirst hk) hsorted hrest
    rw [List.foldl_cons, List.foldl_cons, rowsFault?, rowsFault?,
      rowFault?_congr h hfirst hk, hbuffer, hfault]
    exact ⟨rfl, rfl⟩

end Passes

/-- A pass leaves all other lines as they are. -/
theorem getElem?_foldl_indentRow (c : Config) {rows : List Nat} {k : Nat} (h : k ∉ rows)
    (b : Buffer) : (rows.foldl c.indentRow b).lines[k]? = b.lines[k]? := by
  induction rows generalizing b with
  | nil => rfl
  | cons j rows ih =>
    obtain ⟨hne, hrest⟩ : k ≠ j ∧ k ∉ rows := by simpa [not_or] using h
    rw [List.foldl_cons, ih hrest, indentRow_eq_set]
    exact List.getElem?_set_ne (Ne.symm hne)

/-! ## Lines around a region -/

/-- Two lists of lines that agree but for line ends, and but for leading blanks inside a region.
Each line is there in both lists or in neither, so the lists have one length. -/
def SameAround (start : Int) (stop : Option Int) (ls ls' : List Text) : Prop :=
  ∀ k : Nat, (InRegion start stop k → ls[k]?.map Text.core = ls'[k]?.map Text.core) ∧
    (¬ InRegion start stop k →
      ls[k]?.map (Text.dropEnd Buffer.isLineEnd) = ls'[k]?.map (Text.dropEnd Buffer.isLineEnd))

section Around

variable {start : Int} {stop : Option Int} {ls ls' : List Text}

/-- All cores agree, inside the region and outside. -/
theorem SameAround.cores_eq (h : SameAround start stop ls ls') :
    ls.map Text.core = ls'.map Text.core := by
  apply List.ext_getElem?
  intro k
  rw [List.getElem?_map, List.getElem?_map]
  by_cases hk : InRegion start stop k
  · exact (h k).1 hk
  · have hcontent := congrArg (Option.map Text.content) ((h k).2 hk)
    rwa [Option.map_map, Option.map_map] at hcontent

theorem sameAround_whole : SameAround 0 none ls ls' ↔ ls.map Text.core = ls'.map Text.core := by
  refine ⟨SameAround.cores_eq, fun h k => ⟨fun _ => ?_, fun hk => absurd ?_ hk⟩⟩
  · rw [← List.getElem?_map, ← List.getElem?_map, h]
  · exact ⟨Int.natCast_nonneg k, by simp⟩

theorem SameAround.sameBut (h : SameAround start stop ls ls') :
    (Buffer.ofLines ls).SameBut (regionRows (Buffer.ofLines ls).count start stop)
      (.ofLines ls') := by
  have hlength : ls.length = ls'.length := by simpa using congrArg List.length h.cores_eq
  have hline : ∀ (xs : List Text) (k : Nat), (Buffer.ofLines xs).lineAt k =
      (xs[k]?.map (Text.dropEnd Buffer.isLineEnd)).getD [] := by
    intro xs k
    rw [Buffer.lineAt, Buffer.ofLines, List.getD_eq_getElem?_getD, List.getElem?_map]
  have hcontent : ∀ (xs : List Text) (k : Nat), ((Buffer.ofLines xs).lineAt k).content =
      ((xs.map Text.core)[k]?).getD [] := by
    intro xs k
    rw [hline, List.getElem?_map]
    cases xs[k]? <;> rfl
  refine ⟨by simpa [Buffer.ofLines, Buffer.count] using hlength,
    fun k => by rw [hcontent, hcontent, h.cores_eq], fun k hk => ?_⟩
  rw [hline, hline]
  by_cases hregion : InRegion start stop k
  · -- A row of the region that neither list has.
    have hlast : ls.length ≤ k := by
      by_contra hlt
      exact hk (mem_regionRows.2 ⟨hregion, by simpa [Buffer.ofLines, Buffer.count] using hlt⟩)
    rw [List.getElem?_eq_none hlast, List.getElem?_eq_none (hlength ▸ hlast)]
  · rw [(h k).2 hregion]

theorem indentRegion_congr (c : Config) (h : SameAround start stop ls ls') (room : Nat) :
    c.indentRegion (.ofLines ls) start stop = c.indentRegion (.ofLines ls') start stop ∧
      c.regionFault? room (.ofLines ls) start stop =
        c.regionFault? room (.ofLines ls') start stop := by
  have hsame := h.sameBut
  rw [indentRegion, indentRegion, regionFault?, regionFault?, ← hsame.count_eq]
  exact foldl_indentRow_congr hsame List.pairwise_lt_range'
    (fun k hk => (mem_regionRows.1 hk).2) room

/-- A pass shows everything but the leading blanks inside the region. -/
theorem SameAround.of_indentRegion_eq (c : Config)
    (h : c.indentRegion (.ofLines ls) start stop = c.indentRegion (.ofLines ls') start stop) :
    SameAround start stop ls ls' := by
  intro k
  constructor
  · intro _
    have hcores := congrArg (fun b : Buffer => b.lines.map Text.core) h
    rw [cores_indentRegion, cores_indentRegion, Buffer.cores_ofLines, Buffer.cores_ofLines]
      at hcores
    rw [← List.getElem?_map, ← List.getElem?_map, hcores]
  · intro hk
    have houtside : ∀ xs : List Text,
        (c.indentRegion (.ofLines xs) start stop).lines[k]? = (Buffer.ofLines xs).lines[k]? :=
      fun xs => c.getElem?_foldl_indentRow (fun hmem => hk (mem_regionRows.1 hmem).1) _
    have hline : (Buffer.ofLines ls).lines[k]? = (Buffer.ofLines ls').lines[k]? := by
      rw [← houtside, h, houtside]
    rwa [Buffer.ofLines, Buffer.ofLines, List.getElem?_map, List.getElem?_map] at hline

end Around

/-- Indenting gives a canonical form. Two lists of lines become the same when all of their lines are
indented exactly if they agree but for leading blanks and line ends. For a region they become the
same exactly if they agree up to line ends outside the region and up to leading blanks besides
inside it; then also the same stands against writing the result, if anything does, whatever the
room. -/
theorem indentRegion_canonical (c : Config) :
    (∀ ls ls' : List Text,
      (c.indentRegion (.ofLines ls) 0 none).lines = (c.indentRegion (.ofLines ls') 0 none).lines ↔
        ls.map Text.core = ls'.map Text.core) ∧
    ∀ (start : Int) (stop : Option Int) (ls ls' : List Text),
      ((c.indentRegion (.ofLines ls) start stop).lines =
          (c.indentRegion (.ofLines ls') start stop).lines ↔ SameAround start stop ls ls') ∧
      (SameAround start stop ls ls' → ∀ room : Nat,
        c.regionFault? room (.ofLines ls) start stop =
          c.regionFault? room (.ofLines ls') start stop) := by
  have hregion : ∀ (start : Int) (stop : Option Int) (ls ls' : List Text),
      (c.indentRegion (.ofLines ls) start stop).lines =
        (c.indentRegion (.ofLines ls') start stop).lines ↔ SameAround start stop ls ls' := by
    intro start stop ls ls'
    refine ⟨fun h => .of_indentRegion_eq c (congrArg Buffer.mk h), fun h => ?_⟩
    rw [(indentRegion_congr c h 0).1]
  refine ⟨fun ls ls' => (hregion 0 none ls ls').trans sameAround_whole, ?_⟩
  exact fun start stop ls ls' => ⟨hregion start stop ls ls',
    fun h room => (indentRegion_congr c h room).2⟩

/-- A function with a comment that hides an opener, a blank line and a branch. -/
private def pressed : List Text :=
  ["fn f()", "if x", "/* if", "y */", "", "else", "  z"].map String.toList

/-- The same with the lines in between moved about, and with other line ends. -/
private def crooked : List Text :=
  ["fn f()\r\n", "\t if x", "        /* if\n", " y */", "  \t", "      else\r", "  z"].map
    String.toList

/-- The lines from the second to before the last come out the same. -/
theorem indentRegion_pressed_eq_crooked :
    SameAround 1 (some 6) pressed crooked ∧
    (Config.default.indentRegion (.ofLines pressed) 1 (some 6)).lines =
      (Config.default.indentRegion (.ofLines crooked) 1 (some 6)).lines ∧
    Config.default.regionFault? 7 (.ofLines pressed) 1 (some 6) =
      Config.default.regionFault? 7 (.ofLines crooked) 1 (some 6) := by
  have hin : ∀ k : Nat, InRegion 1 (some 6) k ↔ 1 ≤ k ∧ k < 6 := by
    intro k
    have hstop : (∀ s ∈ some (6 : Int), (k : Int) < s) ↔ (k : Int) < 6 := by simp
    rw [InRegion, hstop]
    omega
  have hsame : SameAround 1 (some 6) pressed crooked := by
    intro k
    rw [hin]
    rcases k with _ | _ | _ | _ | _ | _ | _ | k
    case succ => simp [pressed, crooked]
    all_goals exact ⟨fun h => by revert h; decide +kernel, fun h => by revert h; decide +kernel⟩
  obtain ⟨hlines, hfault⟩ := (indentRegion_canonical .default).2 1 (some 6) pressed crooked
  exact ⟨hsame, hlines.2 hsame, hfault hsame 7⟩

end Config

end FabEdit
