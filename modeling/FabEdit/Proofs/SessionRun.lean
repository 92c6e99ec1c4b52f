import FabEdit.Session
import FabEdit.Proofs.Region

/-!
# Sessions without edits

Between edits of the text, a session indents lines, answers questions and keeps books. None of that
adds or removes a line, and none of it touches the core of a line. Since the kind of every line
follows from the cores (`Buffer.kind_congr`), the kinds stay as they are too, whatever is indented,
under whatever configurations, and however often the view changes in between.

Shape of the argument: `Session.cores` is the invariant, `cores_step` says that one step keeps it,
and `cores_run` that a run does.
-/

namespace FabEdit

/-- Steps that change the text at the host's command. -/
def Step.isEdit : Step → Bool
  | .setLine _ _ | .insert _ _ | .delete _ => true
  | _ => false

namespace Session

/-- What is left of the lines without leading blanks and line ends. -/
def cores (s : Session) : List Text := s.lines.map Text.core

/-- The indenter sees the cores as they are. -/
theorem cores_view (s : Session) : s.view.lines.map Text.core = s.cores := by
  rw [view]
  split
  · rfl
  · exact Buffer.cores_ofLines s.lines

theorem count_view (s : Session) : s.view.count = s.lines.length := by
  simpa [cores, Buffer.count] using congrArg List.length s.cores_view

theorem inRange_view {s : Session} {i : Int} :
    s.view.InRange i ↔ 0 ≤ i ∧ i < s.lines.length := by
  rw [Buffer.InRange, count_view]

/-! ## Steps -/

theorem core_tabbedLine {s : Session} {i : Int} (hlow : 0 ≤ i) (hhigh : i.toNat < s.lines.length) :
    (s.tabbedLine i).core = ((Buffer.mk s.lines).lineAt i.toNat).core := by
  have hrange : s.view.InRange i := inRange_view.2 ⟨hlow, by omega⟩
  rw [tabbedLine, Config.indentLine, if_pos hrange, Config.reindent, core_reindent]
  exact Buffer.apply_lineAt_congr s.cores_view i.toNat

/-- A press of the tab key stores a line with the core that was there. -/
theorem cores_tab (s : Session) (i : Int) : (s.tab i).1.cores = s.cores := by
  show (s.store i (s.tabbedLine i)).cores = s.cores
  rw [store]
  split
  next hlow =>
    by_cases hhigh : i.toNat < s.lines.length
    · exact Buffer.map_lines_set (core_tabbedLine hlow hhigh)
    -- Below the last line there is nothing to exchange.
    · rw [List.set_eq_of_length_le (by omega)]
  next => rfl

/-- A step that is about the configuration, whether its settings make one or not, keeps whatever no
configuration does something to. -/
theorem apply_withConfig {α : Type*} (g : Session → α) {s : Session} {f : Config → Session × Reply}
    (h : ∀ c, g (f c).1 = g s) (setting : Setting) : g (s.withConfig setting f).1 = g s := by
  rw [withConfig]
  split
  · rfl
  · exact h _

/-- An edit, whether it finds its line or not, keeps whatever does not depend on the lines. -/
theorem apply_editLine {α : Type*} (g : Session → α) {s : Session}
    (h : ∀ ls, g { s with lines := ls } = g s) (i : Int) (f : Nat → List Text) :
    g (s.editLine i f).1 = g s := by
  rw [editLine]
  split
  · split
    · rfl
    · exact h _
  · rfl

/-- A step that is no edit keeps the cores of the lines. -/
theorem cores_step (room : Nat) (s : Session) {st : Step} (h : st.isEdit = false) :
    (s.step room st).1.cores = s.cores := by
  cases st with
  | tab i =>
    rw [step]
    split
    · rfl
    · exact cores_tab s i
  | region start stop commit =>
    rw [step]
    split
    · rfl
    · cases commit with
      | false => rfl
      -- The indenter's view is stored, so line ends may go, which the cores do not see.
      | true => exact (Config.cores_indentRegion _ _ _ _).trans s.cores_view
  | indentLine i kind =>
    rw [step]
    split <;> rfl
  | indenter setting =>
    cases setting with
    | none => rfl
    | some setting => exact apply_withConfig cores (fun _ => by rfl) setting
  | setConfig setting => exact apply_withConfig cores (fun _ => by rfl) setting
  | enter setting => exact apply_withConfig cores (fun _ => by rfl) setting
  | leave =>
    rw [step]
    split <;> rfl
  | setLine | insert | delete => simp [Step.isEdit] at h
  | kindFor | record | reset | columnFor | viewAs | resetConfig | activeConfig | indenterConfig
  | lines => rfl

/-- A run without edits keeps the cores of the lines. -/
theorem cores_run (room : Nat) (s : Session) {steps : List Step}
    (h : ∀ st ∈ steps, st.isEdit = false) : (s.run room steps).1.cores = s.cores := by
  induction steps generalizing s with
  | nil => rfl
  | cons st steps ih =>
    rw [run]
    exact (ih _ fun st' hst' => h st' (List.mem_cons_of_mem st hst')).trans
      (s.cores_step room (h st (by simp)))

/-- Whatever a session does between edits, and whatever room there is, the lines stay in number,
their cores stay, and so do their kinds: for the lines exactly as they are, for the lines without
their line ends, and for the view that the indenter has of them at the time. -/
theorem run_keeps_cores_and_kinds (room : Nat) (s : Session) (steps : List Step)
    (h : ∀ st ∈ steps, st.isEdit = false) :
    let s' := (s.run room steps).1
    s'.lines.length = s.lines.length ∧
    (∀ k : Nat, s'.lines[k]?.map Text.core = s.lines[k]?.map Text.core) ∧
    ∀ i : Int,
      Buffer.kind ⟨s'.lines⟩ (.ofBuffer ⟨s'.lines⟩) i =
        Buffer.kind ⟨s.lines⟩ (.ofBuffer ⟨s.lines⟩) i ∧
      (Buffer.ofLines s'.lines).kind (.ofBuffer (.ofLines s'.lines)) i =
        (Buffer.ofLines s.lines).kind (.ofBuffer (.ofLines s.lines)) i ∧
      s'.view.kind (.ofBuffer s'.view) i = s.view.kind (.ofBuffer s.view) i := by
  intro s'
  have hcores : s'.cores = s.cores := s.cores_run room h
  refine ⟨?_, ?_, ?_⟩
  · simpa [cores] using congrArg List.length hcores
  · intro k
    rw [← List.getElem?_map, ← List.getElem?_map]
    exact congrArg (·[k]?) hcores
  · intro i
    refine ⟨Buffer.kind_congr ?_ i, Buffer.kind_congr ?_ i, Buffer.kind_congr ?_ i⟩
    · exact hcores
    · rw [Buffer.cores_ofLines, Buffer.cores_ofLines]
      exact hcores
    · rw [cores_view, cores_view]
      exact hcores

/-- A session with line ends, a string that breaks off after a backslash, and a comment that hides
an opener. -/
private def draft : Session :=
  .start (["fn f()\r\n", "x = \"a\\", "  /* if", "\t y */ z\r", "w"].map String.toList) none true

/-- Presses of the tab key, some of them outside, a region, and changes of configuration and view,
one of which fails. -/
private def tidying : List Step :=
  [.tab 1, .tab 1, .viewAs false, .setConfig (.table [("indent_width".toList, .int 2)]),
   .region 0 none true, .leave, .tab 4, .tab 99, .tab (-1)]

/-- The steps move lines of `draft`, and the line that starts inside the comment is still there. -/
theorem run_draft_tidying :
    (draft.run 8 tidying).1.lines ≠ draft.lines ∧
    draft.view.kind (.ofBuffer draft.view) 3 = .ok .comment ∧
    let s' := (draft.run 8 tidying).1
    s'.lines.length = draft.lines.length ∧
    (∀ k : Nat, s'.lines[k]?.map Text.core = draft.lines[k]?.map Text.core) ∧
    ∀ i : Int,
      Buffer.kind ⟨s'.lines⟩ (.ofBuffer ⟨s'.lines⟩) i =
        Buffer.kind ⟨draft.lines⟩ (.ofBuffer ⟨draft.lines⟩) i ∧
      (Buffer.ofLines s'.lines).kind (.ofBuffer (.ofLines s'.lines)) i =
        (Buffer.ofLines draft.lines).kind (.ofBuffer (.ofLines draft.lines)) i ∧
      s'.view.kind (.ofBuffer s'.view) i = draft.view.kind (.ofBuffer draft.view) i :=
  ⟨by decide +kernel, by decide +kernel, run_keeps_cores_and_kinds 8 draft tidying (by decide)⟩

end Session

end FabEdit
