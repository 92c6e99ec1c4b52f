import FabEdit.Proofs.TabKey

/-!
# The tab key after any history

Whether a press of the tab key repeats an earlier one is decided by a tracker, which is a piece of
state. This module says what that means for a session that has gone through any steps at all.

Shape of the argument:

* `Session.history` lists the steps of a run with the sessions in which they were taken, and
  `Session.lastTracked` is the last of them that the tracker took notice of: a press that was
  performed, a record, or a reset.
* One step leaves the tracker alone, or leaves it with what the step itself remembers
  (`tracker_step`). By induction a run leaves it with what its last tracked step remembers
  (`tracker_run`).
* So a press repeats exactly if its line is still the one that this step left
  (`kindFor_run_eq_again_iff`).

Whether a press can be performed depends on the room, and so does everything that is said of a run.
A press that is refused leaves no trace.
-/

namespace FabEdit

/-! ## Histories -/

/-- A step, and the session in which it is taken. -/
structure Moment where
  before : Session
  step : Step

namespace Moment

/-- The session after the step. -/
def after (room : Nat) (m : Moment) : Session := (m.before.step room m.step).1

/-- Whether the tracker takes notice of the step. A press that cannot be performed changes nothing,
so it does not count. -/
def tracks (room : Nat) (m : Moment) : Bool :=
  match m.step with
  | .tab _ => (m.before.step room m.step).2.isOk
  | .record _ | .reset => true
  | _ => false

/-- What the step remembers. -/
def memory (room : Nat) (m : Moment) : Tracker :=
  match m.step with
  | .tab i | .record i => .record (m.after room).lines i
  | _ => .empty

end Moment

namespace Session

/-- The steps of a run, each with the session in which it is taken. -/
def history (room : Nat) (s : Session) : List Step → List Moment
  | [] => []
  | st :: steps => ⟨s, st⟩ :: (s.step room st).1.history room steps

/-- The last step of a run of which the tracker takes notice. -/
def lastTracked (room : Nat) (s : Session) (steps : List Step) : Option Moment :=
  ((s.history room steps).filter (Moment.tracks room)).getLast?

theorem history_append (room : Nat) (s : Session) (steps steps' : List Step) :
    s.history room (steps ++ steps') =
      s.history room steps ++ (s.run room steps).1.history room steps' := by
  induction steps generalizing s with
  | nil => rfl
  | cons st steps ih => simp only [List.cons_append, history, ih, run]

theorem lastTracked_append_singleton (room : Nat) (s : Session) (steps : List Step) (st : Step) :
    s.lastTracked room (steps ++ [st]) =
      if (Moment.mk (s.run room steps).1 st).tracks room then some ⟨(s.run room steps).1, st⟩
      else s.lastTracked room steps := by
  rw [lastTracked, history_append, List.filter_append, history, history]
  split
  next htracks => rw [List.filter_cons_of_pos htracks, List.filter_nil, List.getLast?_concat]
  next htracks =>
    rw [List.filter_cons_of_neg htracks, List.filter_nil, List.append_nil, lastTracked]

/-! ## The tracker -/

/-- A press is refused, or performed. -/
theorem step_tab_cases (room : Nat) (s : Session) (i : Int) :
    (∃ e : RunFault, s.step room (.tab i) = (s, .error (.run e))) ∨
      s.step room (.tab i) = ((s.tab i).1, .ok (s.tab i).2) := by
  rw [step]
  split
  · exact .inl ⟨_, rfl⟩
  · exact .inr rfl

/-- A step leaves the tracker with what it remembers, or leaves it alone. -/
theorem tracker_step (room : Nat) (s : Session) (st : Step) :
    (s.step room st).1.tracker =
      if (Moment.mk s st).tracks room then (Moment.mk s st).memory room else s.tracker := by
  cases st with
  | tab i =>
    simp only [Moment.tracks, Moment.memory, Moment.after]
    rcases s.step_tab_cases room i with ⟨e, hstep⟩ | hstep
    · simp only [hstep, Except.isOk, Except.toBool, Bool.false_eq_true, if_false]
    · simp only [hstep, Except.isOk, Except.toBool, if_true]
      rfl
  | record | reset => rfl
  | region start stop commit =>
    rw [step]
    split
    · rfl
    · cases commit <;> rfl
  | indentLine i kind =>
    rw [step]
    split <;> rfl
  | setLine i l => exact apply_editLine tracker (fun _ => rfl) i _
  | delete i => exact apply_editLine tracker (fun _ => rfl) i _
  | insert i l =>
    rw [step]
    split <;> rfl
  | indenter setting =>
    cases setting with
    | none => rfl
    | some setting => exact apply_withConfig tracker (fun _ => by rfl) setting
  | setConfig setting => exact apply_withConfig tracker (fun _ => by rfl) setting
  | enter setting => exact apply_withConfig tracker (fun _ => by rfl) setting
  | leave =>
    rw [step]
    split <;> rfl
  | kindFor | columnFor | viewAs | resetConfig | activeConfig | indenterConfig | lines => rfl

/-- A run leaves the tracker with what its last tracked step remembers. -/
theorem tracker_run (room : Nat) (s : Session) (steps : List Step) :
    (s.run room steps).1.tracker =
      ((s.lastTracked room steps).map (Moment.memory room)).getD s.tracker := by
  induction steps using List.reverseRecOn with
  | nil => rfl
  | append_singleton steps st ih =>
    rw [run_append, lastTracked_append_singleton]
    show ((s.run room steps).1.step room st).1.tracker = _
    rw [tracker_step]
    split
    · rfl
    · exact ih

/-! ## Repetition -/

/-- A remembered line is repeated if the same line is asked for again and has the text it had. -/
theorem kindFor_record_eq_again_iff {ls ls' : List Text} {i j : Int} :
    (Tracker.record ls j).kindFor ls' i = .again ↔
      j = i ∧ ∃ l, Tracker.lineOf ls i = some l ∧ Tracker.lineOf ls' i = some l := by
  unfold Tracker.record Tracker.kindFor
  cases h : Tracker.lineOf ls j with
  | none =>
    simp only [Option.map_none, reduceCtorEq, false_iff]
    rintro ⟨rfl, l, hl, -⟩
    simp [h] at hl
  | some l =>
    simp only [Option.map_some]
    constructor
    · intro hagain
      split at hagain
      next hsame => exact ⟨hsame.1, l, hsame.1 ▸ h, hsame.2⟩
      next => contradiction
    · rintro ⟨rfl, l', hl', hl⟩
      obtain rfl : l = l' := Option.some.inj (h.symm.trans hl')
      rw [if_pos ⟨rfl, hl⟩]

theorem lineOf_natCast (ls : List Text) (i : Nat) : Tracker.lineOf ls i = ls[i]? := by
  simp [Tracker.lineOf]

/-- A press or a record keeps the number of lines. -/
theorem length_lines_step (room : Nat) {s : Session} {st : Step} (h : st.isEdit = false) :
    (s.step room st).1.lines.length = s.lines.length := by
  simpa [cores] using congrArg List.length (s.cores_step room h)

/-- What a moment remembers is repeated if its line is asked for and has stayed as it was left. -/
theorem kindFor_memory_eq_again_iff {room : Nat} {m : Moment} {ls : List Text} {i : Nat} :
    (m.memory room).kindFor ls i = .again ↔ (m.step = .tab i ∨ m.step = .record i) ∧
      i < m.before.lines.length ∧ ls[i]? = (m.after room).lines[i]? := by
  have hrecord : ∀ j : Int, (m.after room).lines.length = m.before.lines.length →
      ((Tracker.record (m.after room).lines j).kindFor ls i = .again ↔
        j = i ∧ i < m.before.lines.length ∧ ls[i]? = (m.after room).lines[i]?) := by
    intro j hlength
    rw [kindFor_record_eq_again_iff, lineOf_natCast, lineOf_natCast, ← hlength]
    refine and_congr_right fun _ => ⟨?_, ?_⟩
    · rintro ⟨l, hleft, hnow⟩
      exact ⟨(List.getElem?_eq_some_iff.1 hleft).1, hnow.trans hleft.symm⟩
    · rintro ⟨hlt, hsame⟩
      exact ⟨_, List.getElem?_eq_getElem hlt, hsame.trans (List.getElem?_eq_getElem hlt)⟩
  obtain ⟨before, st⟩ := m
  cases st with
  | tab j =>
    rw [Moment.memory, hrecord j (length_lines_step room rfl)]
    simp
  | record j =>
    rw [Moment.memory, hrecord j (length_lines_step room rfl)]
    simp
  | _ => simp [Moment.memory, Tracker.kindFor, Tracker.empty]

/-- After any run, a press repeats exactly if the last tracked step was a press or a record for the
same line and the line has stayed as that step left it. -/
theorem kindFor_run_eq_again_iff (room : Nat) {s : Session} (hreset : s.tracker = .empty)
    (steps : List Step) (i : Nat) :
    (s.run room steps).1.tracker.kindFor (s.run room steps).1.lines i = .again ↔
      ∃ m, s.lastTracked room steps = some m ∧ (m.step = .tab i ∨ m.step = .record i) ∧
        i < m.before.lines.length ∧
        (s.run room steps).1.lines[i]? = (m.after room).lines[i]? := by
  rw [tracker_run, hreset]
  cases s.lastTracked room steps with
  | none => simp [Tracker.kindFor, Tracker.empty]
  | some m =>
    rw [Option.map_some, Option.getD_some, kindFor_memory_eq_again_iff]
    simp only [Option.some.injEq, exists_eq_left']

/-! ## Presses outside -/

/-- A press outside the lines is performed, changes no line and leaves nothing to be repeated. -/
theorem step_tab_outside (room : Nat) {s : Session} {i : Int}
    (hi : ¬ (0 ≤ i ∧ i < s.lines.length)) :
    s.step room (.tab i) =
      ({ s with tracker := .empty }, .ok (.tabbed (s.tracker.kindFor s.lines i) [])) := by
  have hnone : s.config.lineFault? room s.view (s.tracker.kindFor s.lines i) i = none := by
    rw [Config.lineFault?, if_neg (mt inRange_view.1 hi)]
  have hstore : ∀ l, s.store i l = s := by
    intro l
    rw [store]
    split
    next hlow => rw [List.set_eq_of_length_le (by omega)]
    next => rfl
  have hline : s.tabbedLine i = [] := by
    rw [tabbedLine, Config.indentLine, if_neg (mt inRange_view.1 hi)]
  have hmissing : Tracker.lineOf s.lines i = none := by
    rw [Tracker.lineOf]
    split
    next hlow => exact List.getElem?_eq_none (by omega)
    next => rfl
  simp only [step, hnone, tab, hstore, hline, Tracker.record, hmissing]
  rfl

/-- Without presses and records nothing is remembered. -/
theorem tracker_run_eq_empty (room : Nat) {s : Session} (hempty : s.tracker = .empty)
    {steps : List Step} (h : ∀ st ∈ steps, (∀ j, st ≠ .tab j) ∧ ∀ j, st ≠ .record j) :
    (s.run room steps).1.tracker = .empty := by
  induction steps generalizing s with
  | nil => exact hempty
  | cons st steps ih =>
    refine ih ?_ fun st' hst' => h st' (List.mem_cons_of_mem st hst')
    obtain ⟨htab, hrecord⟩ := h st List.mem_cons_self
    rw [tracker_step]
    split
    · cases st with
      | tab j => exact absurd rfl (htab j)
      | record j => exact absurd rfl (hrecord j)
      | _ => rfl
    · exact hempty

/-- The tab key after any run of a session. A press on line `i` is a repetition exactly if the last
tracked step before it was a press or a record for line `i`, which was there, and the line is still
as that step left it. A repetition asks for the column one level to the left of where the line
stands, if there is one, and every other press for its structural column. If the white space for
that can be written, the press moves the line there, and if not, it is refused and changes nothing.
A press outside the lines is performed and changes none of them, and unless a record comes in
between, the next press is no repetition. -/
theorem run_tab_repeats_iff (room : Nat) (lines : List Text) (own : Option Config) (verbatim : Bool)
    (steps : List Step) :
    let first := Session.start lines own verbatim
    let s := (first.run room steps).1
    (∀ i : Nat, i < s.lines.length → ∃ kind : RequestKind,
      let line := s.view.lineAt i
      let left := column s.config.tabWidth.toInt line - s.config.indentWidth.toInt
      let target := if kind = .again ∧ 0 ≤ left then left else s.config.columnFor s.view .fresh i
      s.step room (.kindFor i) = (s, .ok (.kind kind)) ∧
      (kind = .again ↔ ∃ m, first.lastTracked room steps = some m ∧
        (m.step = .tab i ∨ m.step = .record i) ∧ i < m.before.lines.length ∧
        s.lines[i]? = (m.after room).lines[i]?) ∧
      (s.config.Fits room target → ∃ l,
        s.step room (.tab i) = (s.withLine i l, .ok (.tabbed kind l)) ∧
        column s.config.tabWidth.toInt l = target ∧ l.content = line.content) ∧
      (¬ s.config.Fits room target → ∃ e : RunFault,
        e.Explains room (s.config.padding target) ∧
        s.step room (.tab i) = (s, .error (.run e)))) ∧
    ∀ i : Int, ¬ (0 ≤ i ∧ i < s.lines.length) →
      let s₁ := (s.step room (.tab i)).1
      (∃ kind, (s.step room (.tab i)).2 = .ok (.tabbed kind [])) ∧ s₁.lines = s.lines ∧
      ∀ between : List Step, (∀ st ∈ between, (∀ j, st ≠ .tab j) ∧ ∀ j, st ≠ .record j) →
        ∀ j : Int, let s₂ := (s₁.run room between).1
          s₂.step room (.kindFor j) = (s₂, .ok (.kind .fresh)) ∧
          ((∃ l, (s₂.step room (.tab j)).2 = .ok (.tabbed .fresh l)) ∨
            ∃ e : RunFault, s₂.step room (.tab j) = (s₂, .error (.run e))) := by
  intro first s
  refine ⟨fun i hi => ?_, fun i hi => ?_⟩
  · have htarget := Config.columnFor_of_inRange s.config
      (inRange_view.2 ⟨Int.natCast_nonneg i, Int.ofNat_lt.2 hi⟩) (s.tracker.kindFor s.lines i)
    rw [Int.toNat_natCast] at htarget
    refine ⟨s.tracker.kindFor s.lines i, rfl, kindFor_run_eq_again_iff room rfl steps i, ?_, ?_⟩
    · intro hfit
      refine ⟨s.tabbedLine i, step_tab_of_fits hi (by rwa [tabColumn, htarget]), ?_, ?_⟩
      · rw [tabbedLine_of_lt hi, Config.column_reindent_of_nonneg _ (s.tabColumn_nonneg i)]
        exact htarget
      · rw [tabbedLine_of_lt hi, Config.reindent, content_reindent]
    · intro hfit
      rw [← htarget] at hfit ⊢
      exact step_tab_of_not_fits hi hfit
  · intro s₁
    have hstep := step_tab_outside room hi
    have hs₁ : s₁ = { s with tracker := .empty } := congrArg Prod.fst hstep
    refine ⟨⟨_, congrArg Prod.snd hstep⟩, by rw [hs₁], fun between hbetween j => ?_⟩
    intro s₂
    have hempty : s₂.tracker = .empty :=
      tracker_run_eq_empty room (congrArg Session.tracker hs₁) hbetween
    have hfresh : s₂.tracker.kindFor s₂.lines j = .fresh := by rw [hempty]; rfl
    refine ⟨by rw [step, hfresh], ?_⟩
    rcases s₂.step_tab_cases room j with hrefused | hperformed
    · exact .inr hrefused
    · refine .inl ⟨s₂.tabbedLine j, ?_⟩
      rw [hperformed, tab, hfresh]

private def carried : Session := .start (["if a", "x", "y"].map String.toList) none false

/-- Line 2 becomes line 3 and gets a line end, which only the tracker sees. -/
private def shifts : List Step :=
  [.tab 1, .insert 0 "fn f()".toList, .region 0 (some 2) true, .setLine 3 "      y\r\n".toList,
    .tab (-1), .record 3, .setLine 1 "while a".toList, .kindFor 0]

/-- A press on the recorded line takes a level away. After a press outside, it would not. -/
theorem run_tab_carried :
    let s := (carried.run 8 shifts).1
    (∃ l, s.step 8 (.tab 3) = (s.withLine 3 l, .ok (.tabbed .again l)) ∧ column 8 l = 2 ∧
      l.content = "y".toList) ∧
    let s₁ := (s.step 8 (.tab 4)).1
    s₁.lines = s.lines ∧
    let s₂ := (s₁.run 8 [.viewAs true]).1
    s₂.step 8 (.kindFor 3) = (s₂, .ok (.kind .fresh)) := by
  intro s
  have hlast : carried.lastTracked 8 shifts =
      some ⟨(carried.run 8 (shifts.take 5)).1, .record 3⟩ := by
    show carried.lastTracked 8 (shifts.take 5 ++ [.record 3] ++ [.setLine 1 _] ++ [.kindFor 0]) = _
    simp only [lastTracked_append_singleton]
    rfl
  obtain ⟨hinside, houtside⟩ :=
    run_tab_repeats_iff 8 (["if a", "x", "y"].map String.toList) none false shifts
  obtain ⟨kind, -, hkind, hperformed, -⟩ := hinside 3 (by decide +kernel)
  obtain rfl : kind = .again :=
    hkind.2 ⟨_, hlast, .inr rfl, by decide +kernel, by decide +kernel⟩
  obtain ⟨l, hstep, hcolumn, hcontent⟩ :=
    hperformed (Config.columnFault?_eq_none_iff.1 (by decide +kernel))
  obtain ⟨-, hlines, hnext⟩ := houtside 4 (by decide +kernel)
  refine ⟨⟨l, hstep, ?_, hcontent.trans (by decide +kernel)⟩, hlines,
    (hnext [.viewAs true] (by simp) 3).1⟩
  have hwidth : s.config.tabWidth.toInt = 8 := by decide +kernel
  exact hwidth ▸ hcolumn.trans (by decide +kernel)

/-- Whether a step is of a kind that the tracker can take notice of. -/
private def isNoticed : Step → Bool
  | .tab _ | .record _ | .reset => true
  | _ => false

/-- Levels of a width that fits no word. -/
private def boundlessLevels : Setting :=
  .table [("indent_width".toList, .int 9223372036854775808)]

/-- A press, and then one on another line, which no machine can perform. -/
private def interlude : List Step := [.tab 1, .setConfig boundlessLevels, .tab 2, .resetConfig]

private def listed : Session := .start (["fn f()", "x", "y"].map String.toList) none false

/-- The session in which the second press is refused. -/
private def widened : Session :=
  ((listed.withLine 1 (listed.tabbedLine 1)).step 0 (.setConfig boundlessLevels)).1

/-- A refused press is not noticed. The last step of its kind is a press on line 2, and still the
next press on line 1 repeats the first. -/
theorem kindFor_run_interlude :
    (interlude.filter isNoticed).getLast? = some (.tab 2) ∧
    ¬ ∃ room : Nat, 4 ≤ room ∧
      ((listed.run room interlude).1.step room (.kindFor 1)).2 ≠ .ok (.kind .again) := by
  refine ⟨rfl, ?_⟩
  rintro ⟨room, hroom, hother⟩
  have hfit : listed.config.Fits room (listed.tabColumn 1) := by
    have hcolumn : listed.tabColumn 1 = 4 := by decide +kernel
    rw [hcolumn]
    exact Config.fits_of_le (by decide) (by decide) (Int.ofNat_le.2 hroom)
  have hrefused : ¬ widened.config.Fits room (widened.tabColumn 2) := by
    have hcolumn : widened.tabColumn 2 = 9223372036854775808 := by decide +kernel
    have hfault : widened.config.columnFault? room 9223372036854775808 = some .uncountable := by
      rfl
    rw [hcolumn]
    exact Config.not_fits_of_columnFault? hfault
  have hfirst := step_tab_of_fits (s := listed) (i := 1) (by decide) hfit
  obtain ⟨e, -, hsecond⟩ := step_tab_of_not_fits (s := widened) (i := 2) (by decide) hrefused
  have hkind : widened.tracker.kindFor widened.lines 1 = .again := by decide +kernel
  apply hother
  show ((((((listed.step room (.tab (1 : Nat))).1.step room (.setConfig _)).1.step room
    (.tab (2 : Nat))).1.step room .resetConfig).1).step room (.kindFor 1)).2 = _
  rw [hfirst]
  show ((((widened.step room (.tab (2 : Nat))).1.step room .resetConfig).1).step room _).2 = _
  rw [hsecond]
  show Except.ok (Reply.kind (widened.tracker.kindFor widened.lines 1)) = _
  rw [hkind]

end Session

end FabEdit
