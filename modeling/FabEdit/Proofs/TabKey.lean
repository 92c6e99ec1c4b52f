import FabEdit.Proofs.SessionRun

/-!
# The tab key

A press of the tab key indents a line and remembers it. If the next press finds the line as it was
left, it takes one level away, and when there is no level left it starts again. A press for which
the white space cannot be written is refused and leaves everything as it was, so that the same press
is refused again.

Shape of the argument:

* A press on a line that is there is performed (`Session.step_tab_of_fits`) or refused
  (`Session.step_tab_of_not_fits`), by the column that it asks for (`Session.tabColumn`). A press
  that is performed exchanges and remembers the line.
* The line so written is seen by the next press as it stands, with its column, and has the same
  structural column as before (`Session.tabColumn_withLine`).
* `cycleColumn` is the column that any further press asks for in closed form, and `cycleColumn_succ`
  says where one more press leads from there. By induction the presses of a run follow it
  (`Session.run_replicate_tab`), up to the first that is refused.
-/

namespace FabEdit

/-! ## One press -/

namespace Config

/-- The column of a line of the buffer: a repeated request gives the next level to the left, if
there is one, and any other request gives the structural column. -/
theorem columnFor_of_inRange (c : Config) {b : Buffer} {i : Int} (hi : b.InRange i)
    (kind : RequestKind) :
    c.columnFor b kind i =
      if kind = .again ∧ 0 ≤ column c.tabWidth.toInt (b.lineAt i.toNat) - c.indentWidth.toInt then
        column c.tabWidth.toInt (b.lineAt i.toNat) - c.indentWidth.toInt
      else c.columnFor b .fresh i := by
  cases kind with
  | fresh => simp
  | again =>
    unfold columnFor place FabEdit.place
    rw [if_pos hi, if_pos hi]
    simp only [layout, true_and, reduceCtorEq, false_and, if_false]
    split <;> simp_all [Placement.column]

/-- A line moved to a column that was asked for stands there. -/
theorem column_reindent_of_nonneg (c : Config) {col : Int} (hcol : 0 ≤ col) (l : Text) :
    column c.tabWidth.toInt (c.reindent col l) = col := by
  rw [reindent, column_reindent c.tabWidth.toInt_pos]
  exact Int.max_eq_left hcol

end Config

namespace Session

/-- The session with line `i` exchanged and remembered. -/
def withLine (s : Session) (i : Nat) (l : Text) : Session :=
  { s with lines := s.lines.set i l, tracker := ⟨some (i, l)⟩ }

variable {s : Session} {i : Nat}

theorem withLine_withLine (l l' : Text) : (s.withLine i l).withLine i l' = s.withLine i l' := by
  simp [withLine]

/-- The column that a press on line `i` asks for. -/
def tabColumn (s : Session) (i : Nat) : Int :=
  s.config.columnFor s.view (s.tracker.kindFor s.lines i) i

theorem tabColumn_nonneg (s : Session) (i : Nat) : 0 ≤ s.tabColumn i :=
  s.config.columnFor_nonneg _ _ _

theorem tabbedLine_of_lt (hi : i < s.lines.length) :
    s.tabbedLine i = s.config.reindent (s.tabColumn i) (s.view.lineAt i) := by
  rw [tabbedLine, Config.indentLine, if_pos (inRange_view.2 ⟨by omega, by omega⟩), tabColumn,
    Int.toNat_natCast]

/-- A press that can be performed exchanges and remembers one line. -/
theorem step_tab_of_fits {room : Nat} (hi : i < s.lines.length)
    (h : s.config.Fits room (s.tabColumn i)) :
    s.step room (.tab i) =
      (s.withLine i (s.tabbedLine i),
        .ok (.tabbed (s.tracker.kindFor s.lines i) (s.tabbedLine i))) := by
  have hfault : s.config.lineFault? room s.view (s.tracker.kindFor s.lines i) i = none := by
    rw [Config.lineFault?_natCast _ _ (s.count_view ▸ hi)]
    exact Config.columnFault?_eq_none_iff.2 h
  have htab : (s.tab i).1 = s.withLine i (s.tabbedLine i) := by
    simp [tab, store, withLine, Tracker.record, Tracker.lineOf, hi]
  rw [step, hfault, ← htab]
  rfl

/-- A press that cannot be performed changes nothing. -/
theorem step_tab_of_not_fits {room : Nat} (hi : i < s.lines.length)
    (h : ¬ s.config.Fits room (s.tabColumn i)) :
    ∃ e : RunFault, e.Explains room (s.config.padding (s.tabColumn i)) ∧
      s.step room (.tab i) = (s, .error (.run e)) := by
  obtain ⟨e, hfault, hexplains⟩ := Config.exists_columnFault? h
  refine ⟨e, hexplains, ?_⟩
  rw [step, Config.lineFault?_natCast _ _ (s.count_view ▸ hi), ← tabColumn, hfault]

/-- A line without a line end is seen as it is. -/
theorem view_withLine {l : Text} (hl : s.verbatim = false → l.dropEnd Buffer.isLineEnd = l) :
    (s.withLine i l).view = s.view.set i l := by
  unfold view withLine
  cases hv : s.verbatim with
  | true => rfl
  | false => simp [Buffer.ofLines, Buffer.set, List.map_set, hl hv]

/-- The press after it finds a remembered line as it was left. -/
theorem kindFor_withLine (hi : i < s.lines.length) (l : Text) :
    (s.withLine i l).tracker.kindFor (s.withLine i l).lines i = .again := by
  simp [withLine, Tracker.kindFor, Tracker.lineOf, hi]

/-- Moving a line of the view gives it no line end that the view would not show. -/
theorem dropEnd_reindent_view (col : Int) (hv : s.verbatim = false) :
    (s.config.reindent col (s.view.lineAt i)).dropEnd Buffer.isLineEnd =
      s.config.reindent col (s.view.lineAt i) := by
  have hview : s.view = .ofLines s.lines := by simp [view, hv]
  apply Config.dropEnd_reindent
  rw [hview]
  exact (Config.trimmed_ofLines s.lines).lineAt i

/-- Moving line `i` does not change its structural column. -/
theorem columnFor_set_reindent (hi : i < s.lines.length) (col : Int) :
    s.config.columnFor (s.view.set i (s.config.reindent col (s.view.lineAt i))) .fresh i =
      s.config.columnFor s.view .fresh i := by
  have hcount : i < s.view.count := s.count_view ▸ hi
  refine Config.columnFor_congr (.of_lineAt_eq (by simp; omega) (by omega) fun j hj => ?_)
    (by simpa using hcount) hcount ?_
  · rw [Buffer.lineAt_set_of_ne (by omega)]
  · rw [Buffer.lineAt_set_self hcount, Config.reindent, core_reindent]

/-- The press that follows a press asks for the next level to the left, or for the structural column
again. -/
theorem tabColumn_withLine (hi : i < s.lines.length) {col : Int} (hcol : 0 ≤ col) :
    (s.withLine i (s.config.reindent col (s.view.lineAt i))).tabColumn i =
      if 0 ≤ col - s.config.indentWidth.toInt then col - s.config.indentWidth.toInt
        else s.config.columnFor s.view .fresh i := by
  have hcount : i < s.view.count := s.count_view ▸ hi
  have hrange : (s.view.set i (s.config.reindent col (s.view.lineAt i))).InRange i :=
    ⟨by omega, by simp only [Buffer.count_set]; omega⟩
  rw [tabColumn, kindFor_withLine hi, view_withLine (dropEnd_reindent_view col)]
  show s.config.columnFor _ .again i = _
  rw [Config.columnFor_of_inRange _ hrange, columnFor_set_reindent hi, Int.toNat_natCast,
    Buffer.lineAt_set_self hcount, Config.column_reindent_of_nonneg _ hcol]
  simp only [true_and]

/-- What the press after a press writes has the content that was there at first. -/
theorem tabbedLine_withLine (hi : i < s.lines.length) (col : Int) :
    (s.withLine i (s.config.reindent col (s.view.lineAt i))).tabbedLine i =
      s.config.reindent ((s.withLine i (s.config.reindent col (s.view.lineAt i))).tabColumn i)
        (s.view.lineAt i) := by
  have hcount : i < s.view.count := s.count_view ▸ hi
  have hlength : i < (s.withLine i (s.config.reindent col (s.view.lineAt i))).lines.length := by
    simpa [withLine] using hi
  rw [tabbedLine_of_lt hlength, view_withLine (dropEnd_reindent_view col),
    Buffer.lineAt_set_self hcount]
  show s.config.reindent _ (s.config.reindent col _) = _
  rw [Config.reindent, Config.reindent, reindent_reindent, Config.reindent]

/-- The indenter sees the content of a line, less its line end unless it takes the lines exactly as
they are. -/
theorem content_lineAt_view (s : Session) (k : Nat) :
    (s.view.lineAt k).content =
      if s.verbatim then ((Buffer.mk s.lines).lineAt k).content
      else ((Buffer.mk s.lines).lineAt k).core := by
  rw [view]
  split
  · rfl
  · rw [Buffer.lineAt_ofLines]
    rfl

end Session

/-! ## Presses in a row -/

/-- The column after `n` further presses on a line whose structural column is `base`: a level less
with each press, and back to `base` when there is no level left. -/
def cycleColumn (base width : Int) (n : Nat) : Int := base - width * (n % (base / width + 1))

section Cycle

variable {base width : Int}

/-- The levels taken away are never more than fit into `base`. -/
theorem levels_gone_le (hbase : 0 ≤ base) (hwidth : 0 < width) (n : Nat) :
    0 ≤ (n : Int) % (base / width + 1) ∧ (n : Int) % (base / width + 1) ≤ base / width := by
  have hlevels : 0 ≤ base / width := Int.ediv_nonneg hbase (Int.le_of_lt hwidth)
  exact ⟨Int.emod_nonneg _ (by omega), Int.le_of_lt_add_one (Int.emod_lt_of_pos _ (by omega))⟩

theorem cycleColumn_le (hbase : 0 ≤ base) (hwidth : 0 < width) (n : Nat) :
    cycleColumn base width n ≤ base := by
  have hgone : 0 ≤ width * ((n : Int) % (base / width + 1)) :=
    Int.mul_nonneg (Int.le_of_lt hwidth) (levels_gone_le hbase hwidth n).1
  simp only [cycleColumn]
  omega

theorem cycleColumn_nonneg (hbase : 0 ≤ base) (hwidth : 0 < width) (n : Nat) :
    0 ≤ cycleColumn base width n := by
  have hgone : width * ((n : Int) % (base / width + 1)) ≤ width * (base / width) :=
    Int.mul_le_mul_of_nonneg_left (levels_gone_le hbase hwidth n).2 (Int.le_of_lt hwidth)
  have hfit : width * (base / width) ≤ base := Int.mul_ediv_self_le (Int.ne_of_gt hwidth)
  simp only [cycleColumn]
  omega

theorem cycleColumn_zero : cycleColumn base width 0 = base := by
  simp [cycleColumn]

/-- One press further along the cycle. -/
theorem cycleColumn_succ (hbase : 0 ≤ base) (hwidth : 0 < width) (n : Nat) :
    cycleColumn base width (n + 1) =
      if 0 ≤ cycleColumn base width n - width then cycleColumn base width n - width else base := by
  have hfit : width * (base / width) ≤ base := Int.mul_ediv_self_le (Int.ne_of_gt hwidth)
  have hover : base < width * (base / width) + width := Int.lt_mul_ediv_self_add hwidth
  have hnext : ((n + 1 : Nat) : Int) % (base / width + 1) =
      ((n : Int) % (base / width + 1) + 1) % (base / width + 1) := by
    rw [Int.emod_add_emod]
    rfl
  obtain ⟨hlow, hhigh⟩ := levels_gone_le hbase hwidth n
  rw [cycleColumn, cycleColumn, hnext]
  -- `r` levels are gone. Either that was the last one, or there is room for one more.
  generalize (n : Int) % (base / width + 1) = r at hlow hhigh
  rcases Int.lt_or_eq_of_le hhigh with hlt | heq
  · have hgone : width * (r + 1) ≤ width * (base / width) :=
      Int.mul_le_mul_of_nonneg_left hlt (Int.le_of_lt hwidth)
    rw [Int.mul_add, Int.mul_one] at hgone
    rw [Int.emod_eq_of_lt (by omega) (by omega), if_pos (by omega), Int.mul_add, Int.mul_one]
    omega
  · rw [heq, Int.emod_self, if_neg (by omega)]
    omega

end Cycle

namespace Session

theorem run_append (room : Nat) (s : Session) (steps steps' : List Step) :
    s.run room (steps ++ steps') =
      (((s.run room steps).1.run room steps').1,
        (s.run room steps).2 ++ ((s.run room steps).1.run room steps').2) := by
  induction steps generalizing s with
  | nil => rfl
  | cons st steps ih => simp only [List.cons_append, run, ih]

theorem run_replicate_succ (room : Nat) (s : Session) (st : Step) (n : Nat) :
    (s.run room (List.replicate (n + 1) st)).1 =
      ((s.run room (List.replicate n st)).1.step room st).1 := by
  rw [List.replicate_succ', run_append]
  rfl

/-- The column that press `n + 1` on line `i` asks for. -/
def cycleTarget (s : Session) (i n : Nat) : Int :=
  cycleColumn (s.config.columnFor s.view .fresh i) s.config.indentWidth.toInt n

/-- Line `i` as press `n + 1` leaves it. -/
def cycleLine (s : Session) (i n : Nat) : Text :=
  s.config.reindent (s.cycleTarget i n) (s.view.lineAt i)

/-- The session after `n` presses on line `i`, all of them performed. -/
def pressed (s : Session) (i : Nat) : Nat → Session
  | 0 => s
  | n + 1 => s.withLine i (s.cycleLine i n)

theorem cycleTarget_nonneg (s : Session) (i n : Nat) : 0 ≤ s.cycleTarget i n :=
  cycleColumn_nonneg (s.config.columnFor_nonneg _ _ _) s.config.indentWidth.toInt_pos n

theorem cycleTarget_le (s : Session) (i n : Nat) :
    s.cycleTarget i n ≤ s.config.columnFor s.view .fresh i :=
  cycleColumn_le (s.config.columnFor_nonneg _ _ _) s.config.indentWidth.toInt_pos n

variable {s : Session} {i : Nat}

theorem config_pressed (s : Session) (i n : Nat) : (s.pressed i n).config = s.config := by
  cases n <;> rfl

theorem length_lines_pressed (s : Session) (i n : Nat) :
    (s.pressed i n).lines.length = s.lines.length := by
  cases n with
  | zero => rfl
  | succ n => exact List.length_set

theorem withLine_pressed (s : Session) (i n : Nat) (l : Text) :
    (s.pressed i n).withLine i l = s.withLine i l := by
  cases n with
  | zero => rfl
  | succ n => exact withLine_withLine _ l

/-- The first press is a fresh request, and every further one repeats it. -/
theorem kindFor_pressed (hi : i < s.lines.length) (hreset : s.tracker = .empty) (n : Nat) :
    (s.pressed i n).tracker.kindFor (s.pressed i n).lines i =
      if n = 0 then .fresh else .again := by
  cases n with
  | zero =>
    rw [pressed, hreset]
    rfl
  | succ n => exact kindFor_withLine hi _

/-- The presses ask for the columns of the cycle. -/
theorem tabColumn_pressed (hi : i < s.lines.length) (hreset : s.tracker = .empty) (n : Nat) :
    (s.pressed i n).tabColumn i = s.cycleTarget i n := by
  cases n with
  | zero =>
    rw [pressed, tabColumn, hreset, cycleTarget, cycleColumn_zero]
    rfl
  | succ n =>
    rw [cycleTarget, cycleColumn_succ (s.config.columnFor_nonneg _ _ _)
      s.config.indentWidth.toInt_pos]
    exact tabColumn_withLine hi (s.cycleTarget_nonneg i n)

/-- The presses write the lines of the cycle. -/
theorem tabbedLine_pressed (hi : i < s.lines.length) (hreset : s.tracker = .empty) (n : Nat) :
    (s.pressed i n).tabbedLine i = s.cycleLine i n := by
  rw [cycleLine, ← tabColumn_pressed hi hreset n]
  cases n with
  | zero => exact tabbedLine_of_lt hi
  | succ n => exact tabbedLine_withLine hi _

/-- One press more, if it can be performed. -/
theorem step_tab_pressed {room n : Nat} (hi : i < s.lines.length) (hreset : s.tracker = .empty)
    (h : s.config.Fits room (s.cycleTarget i n)) :
    (s.pressed i n).step room (.tab i) =
      (s.pressed i (n + 1),
        .ok (.tabbed (if n = 0 then .fresh else .again) (s.cycleLine i n))) := by
  have hlength : i < (s.pressed i n).lines.length := by rwa [length_lines_pressed]
  rw [← tabColumn_pressed hi hreset, ← config_pressed s i n] at h
  rw [step_tab_of_fits hlength h, kindFor_pressed hi hreset, tabbedLine_pressed hi hreset,
    withLine_pressed, pressed]

/-- Presses that can all be performed make up a run. -/
theorem run_replicate_tab {room n : Nat} (hi : i < s.lines.length) (hreset : s.tracker = .empty)
    (h : ∀ m, m < n → s.config.Fits room (s.cycleTarget i m)) :
    (s.run room (List.replicate n (.tab i))).1 = s.pressed i n := by
  induction n with
  | zero => rfl
  | succ n ih =>
    rw [run_replicate_succ, ih fun m hm => h m (Nat.lt_succ_of_lt hm),
      step_tab_pressed hi hreset (h n (Nat.lt_succ_self n))]

/-- Where a step changes nothing, it can be taken any number of times. -/
theorem run_replicate_of_step {room : Nat} {st : Step} (h : (s.step room st).1 = s) (k : Nat) :
    (s.run room (List.replicate k st)).1 = s := by
  induction k with
  | zero => rfl
  | succ k ih => rw [run_replicate_succ, ih, h]

/-- The cycle of the tab key, from a fresh start. Press `n + 1` asks for the structural column of
line `i` less one level for each press before it, counted over the levels that fit. If the white
space for that can be written, the press leaves the line there with its content, touches no other
line, and is a fresh request only if it is the first. If it is the first for which it cannot, this
press and all that follow are refused for the same reason and change nothing. If the structural
column fits a word and the room, no press is refused. -/
theorem tab_cycle (room : Nat) (s : Session) (i : Nat) (hi : i < s.lines.length)
    (hreset : s.tracker = .empty) :
    let base := s.config.columnFor s.view .fresh i
    let width := s.config.indentWidth.toInt
    let original := (Buffer.mk s.lines).lineAt i
    let col := fun n : Nat => base - width * (n % (base / width + 1))
    let after := fun n : Nat => (s.run room (List.replicate n (.tab i))).1
    (∀ n, (∀ m, m < n → s.config.Fits room (col m)) →
      (s.config.Fits room (col n) → ∃ l,
        (after n).step room (.tab i) =
          (after (n + 1), .ok (.tabbed (if n = 0 then .fresh else .again) l)) ∧
        (after (n + 1)).lines = s.lines.set i l ∧
        column s.config.tabWidth.toInt l = col n ∧
        l.content = if s.verbatim then original.content else original.core) ∧
      (¬ s.config.Fits room (col n) → ∃ e : RunFault,
        e.Explains room (s.config.padding (col n)) ∧
        ∀ k, after (n + k) = after n ∧
          (after (n + k)).step room (.tab i) = (after (n + k), .error (.run e)))) ∧
    (FitsWord base → base ≤ room → ∀ n, s.config.Fits room (col n)) := by
  intro base width original col after
  refine ⟨fun n hbefore => ?_, fun hword hroom n => ?_⟩
  · have hafter : after n = s.pressed i n := run_replicate_tab hi hreset hbefore
    refine ⟨fun hfit => ⟨s.cycleLine i n, ?_⟩, fun hfit => ?_⟩
    · have hnext : after (n + 1) = s.pressed i (n + 1) :=
        run_replicate_tab hi hreset (Nat.forall_lt_succ_right.2 ⟨hbefore, hfit⟩)
      rw [hafter, hnext]
      refine ⟨step_tab_pressed hi hreset hfit, rfl, ?_, ?_⟩
      · exact Config.column_reindent_of_nonneg _ (s.cycleTarget_nonneg i n) _
      · rw [cycleLine, Config.reindent, content_reindent]
        exact s.content_lineAt_view i
    -- A refused press changes nothing, so the next one is refused too.
    · have hlength : i < (s.pressed i n).lines.length := by rwa [length_lines_pressed]
      have hrefused : ¬ (s.pressed i n).config.Fits room ((s.pressed i n).tabColumn i) := by
        rwa [config_pressed, tabColumn_pressed hi hreset]
      obtain ⟨e, hexplains, hstep⟩ := step_tab_of_not_fits hlength hrefused
      rw [config_pressed, tabColumn_pressed hi hreset] at hexplains
      refine ⟨e, hexplains, fun k => ?_⟩
      have hstuck : ((after n).step room (.tab i)).1 = after n := by rw [hafter, hstep]
      have hstays : after (n + k) = after n := by
        show (s.run room _).1 = _
        rw [List.replicate_add, run_append]
        exact run_replicate_of_step hstuck k
      rw [hstays, hafter]
      exact ⟨rfl, hstep⟩
  · have hle : col n ≤ base := s.cycleTarget_le i n
    have hnonneg : 0 ≤ col n := s.cycleTarget_nonneg i n
    exact Config.fits_of_le hnonneg ⟨by omega, Int.le_trans hle hword.2⟩ (Int.le_trans hle hroom)

/-- Tabs of eight columns against levels of three, and line ends within the lines. -/
private def jagged : Session :=
  .start (["fn f()\r\n", "\tif x", "y\r"].map String.toList)
    (some { Config.default with indentWidth := .columns 3 (by decide), useTabs := .flag true })
    false

/-- The columns are 11, 8, 5 and 2. With room for five characters the sixth press is back at 8. With
room for four of them the third press, which needs five spaces, is refused, and so are all after
it. -/
theorem run_tab_jagged :
    jagged.config.columnFor jagged.view .fresh 2 = 11 ∧
    (∃ l, (jagged.run 5 (List.replicate 6 (.tab 2))).1.lines[2]? = some l ∧
      column 8 l = 8 ∧ l.content = "y".toList) ∧
    ∀ k, (jagged.run 4 (List.replicate (2 + k) (.tab 2))).1.lines[2]? = some "\ty".toList := by
  refine ⟨by decide +kernel, ?_, ?_⟩
  · have hfit : ∀ m, m < 6 → jagged.config.Fits 5 (jagged.cycleTarget 2 m) := by
      intro m hm
      apply Config.columnFault?_eq_none_iff.1
      revert m
      decide +kernel
    obtain ⟨hcycle, -⟩ := tab_cycle 5 jagged 2 (by decide) rfl
    obtain ⟨l, -, hlines, hcolumn, hcontent⟩ := (hcycle 5 fun m hm => hfit m (by omega)).1
      (hfit 5 (by decide))
    refine ⟨l, ?_, hcolumn.trans (by decide +kernel), hcontent⟩
    exact (congrArg (·[2]?) hlines).trans rfl
  · have hfit : ∀ m, m < 2 → jagged.config.Fits 4 (jagged.cycleTarget 2 m) := by
      intro m hm
      apply Config.columnFault?_eq_none_iff.1
      revert m
      decide +kernel
    have hrefused : ¬ jagged.config.Fits 4 (jagged.cycleTarget 2 2) := by
      rw [← Config.columnFault?_eq_none_iff]
      decide +kernel
    obtain ⟨hcycle, -⟩ := tab_cycle 4 jagged 2 (by decide) rfl
    obtain ⟨e, -, hstays⟩ := (hcycle 2 hfit).2 hrefused
    intro k
    refine (congrArg (fun s => s.lines[2]?) (hstays k).1).trans ?_
    decide +kernel

private theorem boundless_pos : (0 : Int) < 9223372036854775808 := by decide

/-- Levels of a width that fits no word. -/
private def boundless : Session :=
  .start (["fn f()", "x"].map String.toList)
    (some { Config.default with indentWidth := .columns 9223372036854775808 boundless_pos }) false

/-- No machine performs the first press of a cycle whose structural column fits no word. -/
theorem run_tab_boundless :
    boundless.config.columnFor boundless.view .fresh 1 = 9223372036854775808 ∧
    ¬ ∃ (room : Nat) (l : Text), (boundless.run room [.tab 1]).1.lines[1]? = some l ∧
      column boundless.config.tabWidth.toInt l = 9223372036854775808 := by
  have hbase : boundless.config.columnFor boundless.view .fresh 1 = 9223372036854775808 := by
    decide +kernel
  refine ⟨hbase, ?_⟩
  rintro ⟨room, l, hl, hcolumn⟩
  have hfault : boundless.config.columnFault? room 9223372036854775808 = some .uncountable := by
    rfl
  have hrefused : ¬ boundless.config.Fits room (boundless.tabColumn 1) := by
    have hcolumn : boundless.tabColumn 1 = 9223372036854775808 := hbase
    rw [hcolumn]
    exact Config.not_fits_of_columnFault? hfault
  obtain ⟨e, -, hstep⟩ := step_tab_of_not_fits (s := boundless) (i := 1) (by decide) hrefused
  have hkept : (boundless.run room [.tab 1]).1 = boundless := congrArg Prod.fst hstep
  rw [hkept] at hl
  obtain rfl : "x".toList = l := Option.some.inj hl
  revert hcolumn
  decide +kernel

end Session

end FabEdit
