import FabEdit.Session
import FabEdit.Proofs.CheckedEngine

/-!
# The engine always answers

Whatever it is asked, the engine gives a column, and the column is never negative. A line and a
region it gives unless there is white space in them that cannot be written, and then it says why.
Nothing else can go wrong: no line that is read is missing, no tab lacks a stop, and no failure of
an oracle gets through.

Shape of the argument: the checked engine, in which all of that could go wrong, does what the engine
does (`Checked.columnFor_eq`, `Checked.indentLine_eq`, `Checked.indentRegion_eq`), so that its
faults are those of white space alone. Columns are not negative because the engine adds levels to
measured columns, and takes one away only if there is one (`column_place_nonneg`). Requests with
widths that nobody has checked are refused by the widths alone (`Checked.request_of_tab_lt`).
-/

namespace FabEdit

/-! ## Columns are never negative -/

/-- Whatever the oracle, a structural column is not negative. -/
theorem columnBelow_nonneg {layout : Layout} (htab : 0 < layout.tab) {width : Int}
    (hwidth : 0 ≤ width) {tr : Trail} {l : Text} {col : Int}
    (h : columnBelow layout width tr l = .ok col) : 0 ≤ col := by
  cases tr with
  | done =>
    cases h
    exact Int.le_refl 0
  | fault e => cases h
  | row r above =>
    have hcol : 0 ≤ column layout.tab r.line := column_nonneg htab r.line
    rw [columnBelow] at h
    split at h
    · cases h
      exact hcol
    · split at h
      · cases h
        exact Int.add_nonneg hcol hwidth
      next rule _ =>
        cases hfind : rule.findPeer layout.tab none (.row r above) with
        | error e =>
          rw [hfind] at h
          cases h
        | ok found =>
          rw [hfind] at h
          cases h
          cases found with
          | none => exact Int.add_nonneg hcol hwidth
          | some peer => exact column_nonneg htab peer.line

theorem column_place_nonneg {layout : Layout} (htab : 0 < layout.tab) {width : Int}
    (hwidth : 0 ≤ width) (b : Buffer) (o : Oracle) (kind : RequestKind) (i : Int) :
    0 ≤ (place layout b o width kind i).column := by
  rw [place]
  split
  case isFalse => exact Int.le_refl 0
  simp only
  split
  case isTrue hleft => exact hleft.2
  cases hcol : structuralColumn layout b o width i.toNat with
  | error e => exact Int.le_refl 0
  | ok col => exact columnBelow_nonneg htab hwidth hcol

/-! ## Requests with unchecked widths -/

namespace Checked

variable {layout : Layout} {width : Int} (hwidth : 1 ≤ width) (b : Buffer) (o : Oracle)
  (kind : RequestKind) (i : Int)

include hwidth

/-- A tab width below one is refused. The message names it, if it can be written down. -/
theorem request_of_tab_lt (htab : layout.tab < 1) :
    request layout b o width kind i =
      .error (.config (if FitsNumeral layout.tab then .badWidth .tabWidth (.int layout.tab)
        else .unwritable)) := by
  rw [request, if_neg (Int.not_lt.2 hwidth), if_pos htab, Config.Fault.ofWidth, Setting.isWritable]
  simp only [decide_eq_true_eq]

/-- Every other tab width will do. -/
theorem request_of_tab_pos (htab : 1 ≤ layout.tab) :
    request layout b o width kind i = .ok (place layout b o width kind i).column := by
  rw [request_eq, FabEdit.request, if_neg (Int.not_lt.2 hwidth), if_neg (Int.not_lt.2 htab)]
  rfl

end Checked

namespace Session

/-- The engine always answers. A column is always found and never negative, whatever the index, the
kind of the request, the configuration and the oracle, even one that fails. A line and a region are
given if the white space in them can be written, and otherwise the white space is at fault and the
session stays as it was; nothing else can go wrong. White space can be written at least up to the
room, as far as a word can count it. Widths that nobody has checked are refused exactly if the tab
width is below one. -/
theorem engine_answers (room : Nat) (s : Session) :
    (∀ (i : Int) (kind : RequestKind) (oracle : Option Oracle), ∃ col : Int, 0 ≤ col ∧
      Checked.columnFor s.config s.view (oracle.getD (.ofBuffer s.view)) kind i = .ok col ∧
      s.step room (.columnFor i kind oracle) = (s, .ok (.column col))) ∧
    (∀ (i : Int) (kind : RequestKind),
      (s.config.LineFits room s.view kind i → ∃ l : Text,
        Checked.indentLine room s.config s.view kind i = .ok l ∧
        s.step room (.indentLine i kind) = (s, .ok (.line l))) ∧
      (¬ s.config.LineFits room s.view kind i → ∃ e : RunFault,
        e.Explains room (s.config.padding (s.config.columnFor s.view kind i)) ∧
        Checked.indentLine room s.config s.view kind i = .error (.run e) ∧
        s.step room (.indentLine i kind) = (s, .error (.run e)))) ∧
    (∀ (start : Int) (stop : Option Int) (commit : Bool),
      (s.config.RegionFits room s.view start stop → ∃ out : Buffer,
        Checked.indentRegion room s.config s.view start stop = .ok out ∧
        (s.step room (.region start stop commit)).2 = .ok (.lines out.lines)) ∧
      (¬ s.config.RegionFits room s.view start stop → ∃ e : RunFault,
        s.config.RegionFault room s.view start stop e ∧
        Checked.indentRegion room s.config s.view start stop = .error (.run e) ∧
        s.step room (.region start stop commit) = (s, .error (.run e)))) ∧
    (∀ col : Int, 0 ≤ col → FitsWord col → col ≤ room → s.config.Fits room col) ∧
    (∀ (layout : Layout) (o : Oracle) (width : Int) (kind : RequestKind) (i : Int), 1 ≤ width →
      (layout.tab < 1 → Checked.request layout s.view o width kind i =
        .error (.config (if FitsNumeral layout.tab then .badWidth .tabWidth (.int layout.tab)
          else .unwritable))) ∧
      (1 ≤ layout.tab → ∃ p : Placement, 0 ≤ p.column ∧
        Checked.request layout s.view o width kind i = .ok p.column ∧
        request layout s.view o width kind i = .ok p)) := by
  have htab : 0 < s.config.layout.tab := s.config.tabWidth.toInt_pos
  have hwidth : 0 ≤ s.config.indentWidth.toInt := Int.le_of_lt s.config.indentWidth.toInt_pos
  refine ⟨fun i kind oracle => ?_, fun i kind => ⟨fun hfits => ?_, fun hfits => ?_⟩,
    fun start stop commit => ⟨fun hfits => ?_, fun hfits => ?_⟩, fun _ => Config.fits_of_le,
    fun layout o width kind i hone => ⟨fun hlow => ?_, fun hhigh => ?_⟩⟩
  · exact ⟨_, column_place_nonneg htab hwidth _ _ kind i, Checked.columnFor_eq _ _ _ kind i, rfl⟩
  · rw [Checked.indentLine_eq, step, Config.lineFault?_eq_none_iff.2 hfits]
    exact ⟨_, rfl, rfl⟩
  · obtain ⟨e, hfault, hexplains⟩ := Config.exists_lineFault? hfits
    refine ⟨e, hexplains, ?_⟩
    rw [Checked.indentLine_eq, step, hfault]
    exact ⟨rfl, rfl⟩
  · rw [Checked.indentRegion_eq, step, Config.regionFault?_eq_none_iff.2 hfits]
    exact ⟨_, rfl, rfl⟩
  · obtain ⟨e, hfault, hexplains⟩ := Config.exists_regionFault? hfits
    refine ⟨e, hexplains, ?_⟩
    rw [Checked.indentRegion_eq, step, hfault]
    exact ⟨rfl, rfl⟩
  · exact Checked.request_of_tab_lt hone s.view o kind i hlow
  · refine ⟨_, column_place_nonneg hhigh (Int.le_trans (by decide) hone) s.view o kind i,
      Checked.request_of_tab_pos hone s.view o kind i hhigh, ?_⟩
    rw [request, if_neg (Int.not_lt.2 hone), if_neg (Int.not_lt.2 hhigh)]

/-- A function with a line inside it, under an indenter of its own. -/
private def shallow (c : Config) : Session :=
  .start (["fn f()", "\tx"].map String.toList) (some c) false

/-- Levels so wide that a word cannot count the columns of one. -/
private def wide : Config :=
  { Config.default with indentWidth := .columns 9223372036854775808 (by decide) }

private theorem lineFault?_wide (room : Nat) :
    wide.lineFault? room (shallow wide).view .fresh 1 = some .uncountable := by
  have hcolumn : wide.columnFor (shallow wide).view .fresh 1 = 9223372036854775808 := by
    decide +kernel
  rw [Config.lineFault?, if_pos (by decide), hcolumn]
  rfl

/-- Settings can ask for levels so wide that no machine writes a line below an opener. -/
theorem step_indentLine_wide :
    ∃ c, Config.ofSetting (.table [("indent_width".toList, .int 9223372036854775808)]) = .ok c ∧
      ¬ ∃ (room : Nat) (l : Text),
        ((shallow c).step room (.indentLine 1 .fresh)).2 = .ok (.line l) := by
  have hconfig : (shallow wide).config = wide := rfl
  refine ⟨wide, rfl, ?_⟩
  rintro ⟨room, l, hline⟩
  rw [step, hconfig, lineFault?_wide] at hline
  cases hline

/-- Ordinary levels need a room of four; an oracle that fails does not show, nor does an index far
outside. With a room of three the line inside the function is refused, and so it is under `wide`. -/
theorem engine_answers_shallow :
    (∃ col : Int, 0 ≤ col ∧
      Checked.columnFor .default (shallow .default).view (.failing ⟨7, 0⟩) .fresh 1 = .ok col ∧
      (shallow .default).step 4 (.columnFor 1 .fresh (some (.failing ⟨7, 0⟩))) =
        (shallow .default, .ok (.column col))) ∧
    (Config.default.LineFits 4 (shallow .default).view .again (-9223372036854775809) ∧ ∃ l : Text,
      Checked.indentLine 4 .default (shallow .default).view .again (-9223372036854775809) = .ok l ∧
      (shallow .default).step 4 (.indentLine (-9223372036854775809) .again) =
        (shallow .default, .ok (.line l))) ∧
    (¬ wide.LineFits 4 (shallow wide).view .fresh 1 ∧ ∃ e : RunFault,
      Checked.indentLine 4 wide (shallow wide).view .fresh 1 = .error (.run e) ∧
      (shallow wide).step 4 (.indentLine 1 .fresh) = (shallow wide, .error (.run e))) ∧
    (Config.default.RegionFits 4 (shallow .default).view (-3) (some 99) ∧ ∃ out : Buffer,
      Checked.indentRegion 4 .default (shallow .default).view (-3) (some 99) = .ok out ∧
      ((shallow .default).step 4 (.region (-3) (some 99) true)).2 = .ok (.lines out.lines)) ∧
    (¬ Config.default.RegionFits 3 (shallow .default).view (-3) (some 99) ∧ ∃ e : RunFault,
      Checked.indentRegion 3 .default (shallow .default).view (-3) (some 99) = .error (.run e)) ∧
    Checked.request ⟨Vocabulary.blockOpeners, Vocabulary.continuations, 0⟩ (shallow .default).view
        .everywhere 4 .again 1 = .error (.config (.badWidth .tabWidth (.int 0))) := by
  obtain ⟨hcolumn, hline, hregion, -, hrequest⟩ := engine_answers 4 (shallow .default)
  have houtside : Config.default.LineFits 4 (shallow .default).view .again (-9223372036854775809) :=
    fun hrange => absurd hrange (by decide)
  have hwide : ¬ wide.LineFits 4 (shallow wide).view .fresh 1 := by
    rw [← Config.lineFault?_eq_none_iff, lineFault?_wide]
    exact Option.some_ne_none _
  have hfits : Config.default.RegionFits 4 (shallow .default).view (-3) (some 99) :=
    Config.regionFault?_eq_none_iff.1 (by decide +kernel)
  have hcramped : ¬ Config.default.RegionFits 3 (shallow .default).view (-3) (some 99) := by
    rw [← Config.regionFault?_eq_none_iff]
    decide +kernel
  obtain ⟨e, -, hwideLine⟩ := ((engine_answers 4 (shallow wide)).2.1 1 .fresh).2 hwide
  obtain ⟨e', -, hcrampedRegion, -⟩ :=
    ((engine_answers 3 (shallow .default)).2.2.1 (-3) (some 99) true).2 hcramped
  refine ⟨hcolumn 1 .fresh (some (.failing ⟨7, 0⟩)), ⟨houtside, (hline _ .again).1 houtside⟩,
    ⟨hwide, e, hwideLine⟩, ⟨hfits, (hregion (-3) (some 99) true).1 hfits⟩,
    ⟨hcramped, e', hcrampedRegion⟩, ?_⟩
  exact (hrequest ⟨Vocabulary.blockOpeners, Vocabulary.continuations, 0⟩ .everywhere 4 .again 1
    (by decide)).1 (by decide)

end Session

end FabEdit
