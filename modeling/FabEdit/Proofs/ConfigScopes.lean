import FabEdit.Proofs.TabKey

/-!
# Configurations entered and left

A configuration can be put in force for a while: entering it (`Step.enter`) saves the one that was
active, and leaving it (`Step.leave`) brings that one back. In between the active configuration may
be exchanged, others may be entered, and a fault may cut the whole short.

Shape of the argument:

* `Session.Nested` are the sequences of steps that leave what they enter and nothing else.
* Steps other than entering and leaving may exchange the active configuration but do not touch the
  saved ones (`saved_step`). By induction on the nesting, a nested sequence leaves the saved ones as
  it finds them (`Nested.saved_run`), so that leaving finds on top what entering has put there
  (`step_leave_scope`).
* Each time a nested sequence leaves a configuration, that one was entered earlier in the sequence
  (`Nested.exists_enteredAfter`).
* A `Script` enters configurations for blocks of steps. A fault ends every block that it crosses,
  and each of them still leaves its configuration, so the steps that are performed are nested
  (`Script.nested_perform`).
-/

namespace FabEdit

/-- Steps that enter or leave a configuration. -/
def Step.isScope : Step → Bool
  | .enter _ | .leave => true
  | _ => false

namespace Session

/-! ## Nested steps -/

/-- Sequences of steps in which every configuration that is entered is left again, and none is left
that was not entered. Settings that make no configuration enter none. -/
inductive Nested : List Step → Prop where
  | nil : Nested []
  | other {st : Step} {steps : List Step} (hst : st.isScope = false) (hrest : Nested steps) :
    Nested (st :: steps)
  | refused {setting : Setting} {steps : List Step}
    (hsetting : (Config.ofSetting setting).isOk = false) (hrest : Nested steps) :
    Nested (.enter setting :: steps)
  | scope {setting : Setting} {body steps : List Step}
    (hsetting : (Config.ofSetting setting).isOk = true) (hbody : Nested body)
    (hrest : Nested steps) :
    Nested (.enter setting :: (body ++ .leave :: steps))

/-- After the steps `u`, the configuration that was entered last and not left is the one that was
entered right after `pre`. -/
def EnteredAfter (pre u : List Step) : Prop :=
  ∃ (setting : Setting) (body : List Step),
    u = pre ++ .enter setting :: body ∧ (Config.ofSetting setting).isOk = true ∧ Nested body

theorem EnteredAfter.append_left {pre u : List Step} (h : EnteredAfter pre u) (steps : List Step) :
    EnteredAfter (steps ++ pre) (steps ++ u) := by
  obtain ⟨setting, body, rfl, hopen⟩ := h
  exact ⟨setting, body, (List.append_assoc ..).symm, hopen⟩

/-- If all that is left in some steps was entered before, a step in front that leaves nothing makes
no difference to that. -/
theorem exists_enteredAfter_of_cons {st : Step} {steps : List Step} (hst : st ≠ .leave)
    (hsteps : ∀ {u v : List Step}, steps = u ++ .leave :: v → ∃ pre, EnteredAfter pre u)
    {u v : List Step} (hleave : st :: steps = u ++ .leave :: v) : ∃ pre, EnteredAfter pre u := by
  cases u with
  | nil => exact absurd (List.cons.inj hleave).1 hst
  | cons st' u =>
    obtain ⟨pre, hpre⟩ := hsteps (List.cons.inj hleave).2
    exact ⟨_, hpre.append_left [st']⟩

namespace Nested

theorem append {steps steps' : List Step} (h : Nested steps) (h' : Nested steps') :
    Nested (steps ++ steps') := by
  induction h with
  | nil => exact h'
  | other hst _ ih => exact .other hst ih
  | refused hsetting _ ih => exact .refused hsetting ih
  | scope hsetting hbody _ _ ih =>
    rw [List.cons_append, List.append_assoc, List.cons_append]
    exact .scope hsetting hbody ih

/-- What a nested sequence leaves it has entered before. -/
theorem exists_enteredAfter {steps : List Step} (h : Nested steps) {u v : List Step}
    (hleave : steps = u ++ .leave :: v) : ∃ pre, EnteredAfter pre u := by
  induction h generalizing u v with
  | nil => simp at hleave
  | other hst _ ih =>
    refine exists_enteredAfter_of_cons ?_ ih hleave
    rintro rfl
    simp [Step.isScope] at hst
  | refused _ _ ih => exact exists_enteredAfter_of_cons (by simp) ih hleave
  | @scope setting body steps hsetting hbody _ ihbody ihrest =>
    have hscope : EnteredAfter [] (.enter setting :: body) := ⟨setting, body, rfl, hsetting, hbody⟩
    rw [← List.cons_append, List.append_eq_append_iff] at hleave
    -- The scope ends before the step, with it, or after it.
    rcases hleave with ⟨w, rfl, hw⟩ | ⟨w, hw, hw'⟩
    · cases w with
      | nil => exact ⟨[], by rwa [List.append_nil]⟩
      | cons st w =>
        obtain ⟨pre, hpre⟩ := ihrest (List.cons.inj hw).2
        rw [List.append_cons]
        exact ⟨_, hpre.append_left _⟩
    · cases w with
      | nil => exact ⟨[], by rwa [hw, List.append_nil] at hscope⟩
      | cons st w =>
        obtain ⟨rfl, -⟩ := List.cons.inj hw'
        exact exists_enteredAfter_of_cons (by simp) ihbody hw

end Nested

/-! ## The saved configurations -/

variable {room : Nat}

theorem step_enter_of_ok {setting : Setting} {c : Config} (h : Config.ofSetting setting = .ok c)
    (s : Session) :
    s.step room (.enter setting) =
      ({ s with active := c, saved := s.active :: s.saved }, .ok .done) := by
  rw [step, withConfig, h]

theorem step_enter_of_error {setting : Setting} {e : Config.Fault}
    (h : Config.ofSetting setting = .error e) (s : Session) :
    s.step room (.enter setting) = (s, .error (.config e)) := by
  rw [step, withConfig, h]

theorem isOk_step_enter (room : Nat) (s : Session) (setting : Setting) :
    (s.step room (.enter setting)).2.isOk = (Config.ofSetting setting).isOk := by
  cases hsetting : Config.ofSetting setting with
  | error e =>
    rw [step_enter_of_error hsetting]
    rfl
  | ok c =>
    rw [step_enter_of_ok hsetting]
    rfl

theorem step_leave_of_cons {s : Session} {c : Config} {saved : List Config}
    (h : s.saved = c :: saved) :
    s.step room .leave = ({ s with active := c, saved }, .ok .left) := by
  rw [step, h]

/-- Steps that neither enter nor leave keep the saved configurations. -/
theorem saved_step (s : Session) {st : Step} (h : st.isScope = false) :
    (s.step room st).1.saved = s.saved := by
  cases st with
  | tab i =>
    rw [step]
    split
    · rfl
    · show (s.store i (s.tabbedLine i)).saved = s.saved
      rw [store]
      split <;> rfl
  | region start stop commit =>
    rw [step]
    split
    · rfl
    · cases commit <;> rfl
  | indentLine i kind =>
    rw [step]
    split <;> rfl
  | setLine i l => exact apply_editLine saved (fun _ => rfl) i _
  | delete i => exact apply_editLine saved (fun _ => rfl) i _
  | insert i l =>
    rw [step]
    split <;> rfl
  | indenter setting =>
    cases setting with
    | none => rfl
    | some setting => exact apply_withConfig saved (fun _ => by rfl) setting
  | setConfig setting => exact apply_withConfig saved (fun _ => by rfl) setting
  | enter | leave => simp [Step.isScope] at h
  | kindFor | record | reset | columnFor | viewAs | resetConfig | activeConfig | indenterConfig
  | lines => rfl

/-- The configuration that settings make, if they make one. -/
theorem exists_ofSetting_of_isOk {setting : Setting}
    (h : (Config.ofSetting setting).isOk = true) : ∃ c, Config.ofSetting setting = .ok c := by
  cases hsetting : Config.ofSetting setting with
  | error e => simp [hsetting, Except.isOk, Except.toBool] at h
  | ok c => exact ⟨c, rfl⟩

theorem step_enter_of_not_isOk {setting : Setting}
    (h : (Config.ofSetting setting).isOk = false) (s : Session) :
    (s.step room (.enter setting)).1 = s := by
  cases hsetting : Config.ofSetting setting with
  | error e => rw [step_enter_of_error hsetting]
  | ok c => simp [hsetting, Except.isOk, Except.toBool] at h

/-- If the steps of a scope keep the saved configurations, leaving it restores the configuration
that was active when it was entered. -/
theorem step_leave_scope {s : Session} {setting : Setting} {body : List Step}
    (hsetting : (Config.ofSetting setting).isOk = true)
    (hbody : ∀ t : Session, (t.run room body).1.saved = t.saved) :
    let last := (s.run room (.enter setting :: body)).1
    last.step room .leave = ({ last with active := s.active, saved := s.saved }, .ok .left) := by
  obtain ⟨c, hc⟩ := exists_ofSetting_of_isOk hsetting
  apply step_leave_of_cons
  rw [run, hbody, step_enter_of_ok hc]

/-- Nested steps keep the saved configurations. -/
theorem Nested.saved_run {steps : List Step} (h : Nested steps) (s : Session) :
    (s.run room steps).1.saved = s.saved := by
  induction h generalizing s with
  | nil => rfl
  | other hst _ ih => exact (ih _).trans (s.saved_step hst)
  | refused hsetting _ ih => exact (ih _).trans (congrArg saved (step_enter_of_not_isOk hsetting s))
  | @scope setting body steps hsetting _ _ ihbody ihrest =>
    rw [← List.cons_append, run_append]
    refine (ihrest _).trans ?_
    rw [step_leave_scope hsetting ihbody]

/-! ## Leaving a configuration -/

/-- Leaving a configuration restores the one that was active when it was entered, and touches
nothing else. -/
theorem EnteredAfter.step_leave {pre u : List Step} (h : EnteredAfter pre u) (s : Session) :
    let before := (s.run room pre).1
    let last := (s.run room u).1
    last.step room .leave =
      ({ last with active := before.active, saved := before.saved }, .ok .left) := by
  obtain ⟨setting, body, rfl, hsetting, hbody⟩ := h
  rw [run_append]
  exact step_leave_scope hsetting hbody.saved_run

/-- Nested steps do not end in a configuration that is still to be left: from a session that has
entered none, they would have to leave one that is not there. -/
theorem not_nested_append_enter {setting : Setting} {body : List Step}
    (hsetting : (Config.ofSetting setting).isOk = true) (hbody : Nested body) (steps : List Step) :
    ¬ Nested (steps ++ .enter setting :: body) := by
  intro h
  obtain ⟨c, hc⟩ := exists_ofSetting_of_isOk hsetting
  have hsaved : ((start [] none false).run 0 _).1.saved = _ := h.saved_run _
  rw [run_append, run, hbody.saved_run, step_enter_of_ok hc] at hsaved
  exact List.cons_ne_nil _ _ hsaved

/-- There is only one point at which the configuration to be left was entered. -/
theorem EnteredAfter.unique {pre pre' u : List Step} (h : EnteredAfter pre u)
    (h' : EnteredAfter pre' u) : pre = pre' := by
  obtain ⟨setting, body, rfl, hsetting, hbody⟩ := h
  obtain ⟨setting', body', heq, hsetting', hbody'⟩ := h'
  rcases List.append_eq_append_iff.1 heq with ⟨w, rfl, hw⟩ | ⟨w, rfl, hw⟩
  · cases w with
    | nil => rw [List.append_nil]
    | cons st w =>
      obtain ⟨-, rfl⟩ := List.cons.inj hw
      exact absurd hbody (not_nested_append_enter hsetting' hbody' w)
  · cases w with
    | nil => rw [List.append_nil]
    | cons st w =>
      obtain ⟨-, rfl⟩ := List.cons.inj hw
      exact absurd hbody' (not_nested_append_enter hsetting hbody w)

/-- The session with an indenter that follows the active configuration, and with some lines. -/
def following (s : Session) (ls : List Text) (verbatim : Bool) : Session :=
  { s with own := none, lines := ls, verbatim }

/-- The columns of an indenter that follows the active configuration depend on nothing else in the
session but the lines. -/
theorem step_columnFor_following {s s' : Session} (h : s.active = s'.active) (ls : List Text)
    (verbatim : Bool) (i : Int) (kind : RequestKind) (oracle : Option Oracle) :
    ((s.following ls verbatim).step room (.columnFor i kind oracle)).2 =
      ((s'.following ls verbatim).step room (.columnFor i kind oracle)).2 := by
  have hconfig : (s.following ls verbatim).config = (s'.following ls verbatim).config := h
  have hview : (s.following ls verbatim).view = (s'.following ls verbatim).view := rfl
  simp only [step, hconfig, hview]

end Session

/-! ## Scripts -/

/-- A program in blocks: a configuration is entered for a block, and a fault in it can be caught. -/
inductive Script where
  | step (st : Step) (hst : st.isScope = false)
  /-- A fault that does not come from a step. -/
  | fault
  | andThen (first second : Script)
  /-- Perform a block under a configuration. -/
  | within (setting : Setting) (block : Script)
  /-- Perform a block, and carry on after a fault in it. -/
  | attempt (block : Script)

namespace Script

/-- What comes of a script: the session it leaves behind, the steps that were performed, and whether
a fault has cut it short. -/
structure Performance where
  session : Session
  steps : List Step
  faulted : Bool

/-- Perform a script. A step that cannot be performed is a fault; a fault in a block ends the block,
but its configuration is left all the same. -/
def perform (room : Nat) : Script → Session → Performance
  | .step st _, s => ⟨(s.step room st).1, [st], !(s.step room st).2.isOk⟩
  | .fault, s => ⟨s, [], true⟩
  | .andThen first second, s =>
    let p := first.perform room s
    if p.faulted then p
    else
      let q := second.perform room p.session
      ⟨q.session, p.steps ++ q.steps, q.faulted⟩
  | .within setting block, s =>
    let entered := s.step room (.enter setting)
    if entered.2.isOk then
      let p := block.perform room entered.1
      ⟨(p.session.step room .leave).1, .enter setting :: (p.steps ++ [.leave]), p.faulted⟩
    else ⟨entered.1, [.enter setting], true⟩
  | .attempt block, s => { block.perform room s with faulted := false }

/-- A script does to the session what the steps do that it performs. -/
theorem session_perform (room : Nat) (script : Script) (s : Session) :
    (script.perform room s).session = (s.run room (script.perform room s).steps).1 := by
  induction script generalizing s with
  | step | fault => rfl
  | andThen first second ihfirst ihsecond =>
    rw [perform]
    split
    · exact ihfirst s
    · show (second.perform room _).session = _
      rw [Session.run_append, ihsecond, ← ihfirst]
  | within setting block ih =>
    rw [perform]
    split
    · show (((block.perform room _).session).step room .leave).1 = _
      rw [Session.run, Session.run_append, ← ih]
      rfl
    · rfl
  | attempt block ih => exact ih s

/-- A script leaves every configuration that it has entered, faults or not. -/
theorem nested_perform (room : Nat) (script : Script) (s : Session) :
    Session.Nested (script.perform room s).steps := by
  induction script generalizing s with
  | step st hst => exact .other hst .nil
  | fault => exact .nil
  | andThen first second ihfirst ihsecond =>
    rw [perform]
    split
    · exact ihfirst s
    · exact (ihfirst s).append (ihsecond _)
  | within setting block ih =>
    rw [perform]
    split
    next hentered => exact .scope (s.isOk_step_enter room setting ▸ hentered) (ih _) .nil
    next hentered =>
      rw [Session.isOk_step_enter, Bool.not_eq_true] at hentered
      exact .refused hentered .nil
  | attempt block ih => exact ih s

/-- A block gives back the configuration that it finds, faults or not, whether its own could be
entered or not. -/
theorem active_perform_within (room : Nat) (setting : Setting) (block : Script) (s : Session) :
    ((within setting block).perform room s).session.active = s.active := by
  rw [perform]
  split
  next hentered =>
    have hsetting : (Config.ofSetting setting).isOk = true :=
      s.isOk_step_enter room setting ▸ hentered
    have hbody := block.nested_perform room (s.step room (.enter setting)).1
    show ((block.perform room _).session.step room .leave).1.active = s.active
    rw [session_perform]
    exact congrArg (·.1.active) (Session.step_leave_scope hsetting hbody.saved_run)
  next hentered =>
    rw [Session.isOk_step_enter, Bool.not_eq_true] at hentered
    exact congrArg Session.active (Session.step_enter_of_not_isOk hentered s)

end Script

namespace Session

/-- Whenever nested steps leave a configuration, there is exactly one point at which it was entered.
Entering puts it in force, and leaving it succeeds and restores the configuration that was active at
that point, whatever has been set, reset, entered, left or refused since, so that an indenter that
follows the active configuration gives the columns that it gave there. The steps that a script
performs are nested even if faults cut it short, so no block of it changes the configuration for
what comes after. -/
theorem leaving_restores_active (room : Nat) (s : Session) :
    (∀ u v : List Step, Nested (u ++ .leave :: v) → ∃! pre, EnteredAfter pre u) ∧
    (∀ (pre : List Step) (setting : Setting) (c : Config), Config.ofSetting setting = .ok c →
      (s.run room (pre ++ [.enter setting])).1.active = c) ∧
    (∀ pre u : List Step, EnteredAfter pre u →
      let before := (s.run room pre).1
      let last := (s.run room u).1
      last.step room .leave =
        ({ last with active := before.active, saved := before.saved }, .ok .left) ∧
      ∀ (ls : List Text) (verbatim : Bool) (i : Int) (kind : RequestKind) (oracle : Option Oracle),
        (((last.step room .leave).1.following ls verbatim).step room (.columnFor i kind oracle)).2 =
          ((before.following ls verbatim).step room (.columnFor i kind oracle)).2) ∧
    (∀ script : Script, Nested (script.perform room s).steps ∧
      (script.perform room s).session = (s.run room (script.perform room s).steps).1) ∧
    ∀ (setting : Setting) (block : Script),
      ((Script.within setting block).perform room s).session.active = s.active := by
  refine ⟨?_, ?_, ?_, ?_, ?_⟩
  · intro u v hnested
    obtain ⟨pre, hpre⟩ := hnested.exists_enteredAfter rfl
    exact ⟨pre, hpre, fun pre' hpre' => hpre'.unique hpre⟩
  · intro pre setting c hc
    rw [run_append, run, step_enter_of_ok hc]
    rfl
  · intro pre u h before last
    have hleave : last.step room .leave = _ := h.step_leave s
    refine ⟨hleave, fun ls verbatim i kind oracle => ?_⟩
    exact step_columnFor_following (by rw [hleave]) ls verbatim i kind oracle
  · exact fun script => ⟨script.nested_perform room s, script.session_perform room s⟩
  · exact fun setting block => Script.active_perform_within room setting block s

/-- Settings that make levels of `n` columns. -/
private def levels (n : Int) : Setting := .table [("indent_width".toList, .int n)]

/-- Steps that enter a configuration and change it in many ways without leaving it: they set
another, are refused one, enter a third, go back to the default there and leave that one. -/
private def detour : List Step :=
  [.setConfig (levels 3), .enter (levels 2), .setConfig (levels 5), .enter (levels 0),
   .enter (levels 7), .resetConfig, .leave, .tab 1]

private theorem enteredAfter_detour : EnteredAfter [.setConfig (levels 3)] detour := by
  have hreset : Nested [.resetConfig] := .other rfl .nil
  have htab : Nested [.tab 1] := .other rfl .nil
  have hinner := Nested.scope (by decide +kernel : (Config.ofSetting (levels 7)).isOk) hreset htab
  exact ⟨levels 2, _, rfl, by decide +kernel, .other rfl (.refused (by decide +kernel) hinner)⟩

/-- A block in a block, both ended by a fault. -/
private def mishap : Script :=
  .within (levels 2) (.andThen (.step (.setConfig (levels 6)) rfl) (.within (levels 7) .fault))

/-- After the detour levels have five columns, and leaving it makes it three again. -/
theorem leaving_detour :
    let s := start (["fn f()", "x"].map String.toList) none false
    (s.run 4 detour).1.active.indentWidth.toInt = 5 ∧
    EnteredAfter [.setConfig (levels 3)] detour ∧
    ((s.run 4 detour).1.step 4 .leave).1.active = (s.run 4 [.setConfig (levels 3)]).1.active ∧
    (s.run 4 [.setConfig (levels 3)]).1.active.indentWidth.toInt = 3 ∧
    (mishap.perform 4 s).faulted = true ∧
    (mishap.perform 4 s).session.active = s.active := by
  intro s
  refine ⟨by decide +kernel, enteredAfter_detour, ?_, by decide +kernel, by decide +kernel, ?_⟩
  · exact congrArg (·.1.active) ((leaving_restores_active 4 s).2.2.1 _ _ enteredAfter_detour).1
  · exact (leaving_restores_active 4 s).2.2.2.2 _ _

end Session

end FabEdit
