import FabEdit.Checked
import FabEdit.Proofs.CanonicalRegion

/-!
# The checked engine and the engine

The checked engine takes nothing for granted: every access to a line, every measure and every
judgement can fail there. It does what the engine does all the same, and all that can go wrong is
white space that cannot be written.

Shape of the argument:

* A search of the checked engine fails exactly if an oracle does; otherwise it finds a line that the
  buffer has, and the engine finds the same (`Checked.SameFind`). The searches go up from a line, so
  the induction is on the number of lines that are left above.
* So what is read at the lines found is there, and columns, requests, lines and regions of the
  checked engine are those of the engine (`Checked.request_eq`, `Checked.indentLine_eq`,
  `Checked.indentRegion_eq`).
* What remains is white space. A pass from top to bottom meets the first fault that a row of the
  result has (`Config.rowsFault?_eq_findSome?`), so a region is given exactly if every line of the
  result can be written (`Config.RegionFits`).
-/

namespace FabEdit

/-! ## The checked engine finds what the engine finds -/

namespace Checked

variable {b : Buffer} {o : Oracle} {openers : WordSet} {k : Nat}

theorem kind_eq (hk : k < b.count) (o : Oracle) :
    kind b o k = (b.kindAt o k).mapError .line := by
  rw [kind, if_neg (by omega), if_neg (by omega), Buffer.lineOrFault_natCast hk,
    Buffer.offset_natCast hk, Buffer.kindAt, Buffer.contentAt]
  simp only [Except.mapError, bind, Except.bind]
  split
  · rfl
  · split
    · rfl
    · cases o (b.offsetAt k + (b.lineAt k).lead.length) <;> rfl

/-- What a search of the checked engine and one of the engine give, if they are the same: no line, a
line among the first `k`, or the failure of an oracle. -/
inductive SameFind (b : Buffer) (k : Nat) :
    Except EngineFault (Option Nat) → Except LineFault (Option Row) → Prop
  | none : SameFind b k (.ok none) (.ok none)
  | found {p : Nat} (hp : p < k) : SameFind b k (.ok (some p)) (.ok (some ⟨p, b.lineAt p⟩))
  | fault (e : LineFault) : SameFind b k (.error (.line e)) (.error e)

theorem SameFind.succ {r : Except EngineFault (Option Nat)} {r' : Except LineFault (Option Row)}
    (h : SameFind b k r r') : SameFind b (k + 1) r r' := by
  cases h with
  | none => exact .none
  | found hp => exact .found (Nat.lt_succ_of_lt hp)
  | fault e => exact .fault e

/-- A line opens a block, does not, or cannot be judged, and the trail of the openers goes on
accordingly. -/
theorem opens_cases (hk : k < b.count) (o : Oracle) (openers : WordSet) :
    (opens b o openers k = .ok true ∧
      b.openersAbove o openers (k + 1) = .row ⟨k, b.lineAt k⟩ (b.openersAbove o openers k)) ∨
    (opens b o openers k = .ok false ∧
      b.openersAbove o openers (k + 1) = b.openersAbove o openers k) ∨
    ∃ e, opens b o openers k = .error (.line e) ∧
      b.openersAbove o openers (k + 1) = .fault e := by
  rw [Buffer.openersAbove_succ, opens, kind_eq hk, Buffer.firstWord_natCast hk]
  cases b.kindAt o k with
  | error e => exact .inr (.inr ⟨e, rfl, rfl⟩)
  | ok kind =>
    cases kind with
    | blank => exact .inr (.inl ⟨rfl, rfl⟩)
    | comment => exact .inr (.inl ⟨rfl, rfl⟩)
    | source =>
      by_cases hword : (b.lineAt k).firstWord ∈ openers
      · exact .inl ⟨congrArg Except.ok (decide_eq_true hword), if_pos hword⟩
      · exact .inr (.inl ⟨congrArg Except.ok (decide_eq_false hword), if_neg hword⟩)

theorem sameFind_opener (hk : k ≤ b.count) (o : Oracle) (openers : WordSet) :
    SameFind b k (opener b o openers k) (b.openersAbove o openers k).first? := by
  induction k with
  | zero => exact .none
  | succ k ih =>
    rw [opener]
    rcases opens_cases hk o openers with ⟨hopens, htrail⟩ | ⟨hopens, htrail⟩ | ⟨e, hopens, htrail⟩
    · rw [hopens, htrail]
      exact .found (Nat.lt_succ_self k)
    · rw [hopens, htrail]
      exact (ih (Nat.le_of_succ_le hk)).succ
    · rw [hopens, htrail]
      exact .fault e

theorem sameFind_peer {tab : Int} (htab : 0 < tab) (rule : Continuation) (hk : k ≤ b.count)
    (o : Oracle) (openers : WordSet) (ceiling : Option Int) :
    SameFind b k (peer b o openers tab rule ceiling k)
      (rule.findPeer tab ceiling (b.openersAbove o openers k)) := by
  induction k generalizing ceiling with
  | zero => exact .none
  | succ k ih =>
    have hle := Nat.le_of_succ_le hk
    rw [peer]
    rcases opens_cases hk o openers with ⟨hopens, htrail⟩ | ⟨hopens, htrail⟩ | ⟨e, hopens, htrail⟩
    · rw [hopens, htrail, Continuation.findPeer, Buffer.firstWord_natCast hk,
        Buffer.column_natCast hk htab, Buffer.get_natCast hk]
      simp only [Except.mapError, bind, Except.bind, if_true]
      split
      · exact .found (Nat.lt_succ_self k)
      · split
        · exact .none
        · exact (ih hle _).succ
    · rw [hopens, htrail]
      exact (ih hle ceiling).succ
    · rw [hopens, htrail]
      exact .fault e

/-! ## The checked engine answers what the engine answers -/

theorem linesAbove_natCast (hk : k ≤ b.count) : b.linesAbove k = k := Nat.min_eq_left hk

theorem peerColumn_eq {layout : Layout} (htab : 0 < layout.tab) (hk : k ≤ b.count) (o : Oracle)
    (rule : Continuation) (otherwise : Int) :
    peerColumn layout b o rule k otherwise =
      ((rule.findPeer layout.tab none (b.openersAbove o layout.openers k)).map fun
        | none => otherwise
        | some r => FabEdit.column layout.tab r.line).mapError .line := by
  have hpeer := sameFind_peer htab rule hk o layout.openers none
  rw [peerColumn, linesAbove_natCast hk]
  generalize peer b o layout.openers layout.tab rule none k = found,
    rule.findPeer layout.tab none (b.openersAbove o layout.openers k) = found' at hpeer ⊢
  cases hpeer with
  | none => rfl
  | @found p hp =>
    show (b.column layout.tab p).mapError EngineFault.buffer = _
    rw [Buffer.column_natCast (Nat.lt_of_lt_of_le hp hk) htab]
    rfl
  | fault e => rfl

theorem structuralColumn_eq {layout : Layout} (htab : 0 < layout.tab) (hk : k < b.count)
    (o : Oracle) (width : Int) :
    structuralColumn layout b o width k =
      (FabEdit.structuralColumn layout b o width k).mapError .line := by
  have hle := Nat.le_of_lt hk
  have hopener := sameFind_opener hle o layout.openers
  rw [structuralColumn, linesAbove_natCast hle, FabEdit.structuralColumn]
  generalize opener b o layout.openers k = found at hopener ⊢
  cases htrail : b.openersAbove o layout.openers k with
  | done =>
    rw [htrail] at hopener
    cases hopener
    rfl
  | fault e =>
    rw [htrail] at hopener
    cases hopener
    rfl
  | row r above =>
    rw [htrail] at hopener
    cases hopener with
    | @found p hp =>
      have hcolumn := Buffer.column_natCast (Nat.lt_trans hp hk) htab
      rw [columnBelow]
      simp only [bind, Except.bind, hcolumn, Buffer.isAnnotationLine_natCast hk,
        Buffer.firstWord_natCast hk, Except.mapError]
      split
      · rfl
      cases layout.continuations.get? (b.lineAt k).firstWord with
      | none => rfl
      | some rule =>
        rw [← htrail]
        exact peerColumn_eq htab hle o rule _

theorem recover_mapError (r : Except LineFault Int) :
    recover (r.mapError .line) = .ok (Placement.ofExcept r).column := by
  cases r <;> rfl

/-- A request to the checked engine is answered or refused as one to the engine. -/
theorem request_eq (layout : Layout) (b : Buffer) (o : Oracle) (width : Int) (kind : RequestKind)
    (i : Int) :
    request layout b o width kind i =
      ((FabEdit.request layout b o width kind i).map Placement.column).mapError .config := by
  rw [request, FabEdit.request]
  split
  · rfl
  split
  · rfl
  next htab =>
    rw [place]
    by_cases hi : b.InRange i
    · rw [if_pos hi, if_pos hi]
      obtain ⟨k, rfl, hk⟩ := hi.exists_natCast
      have hpos : 0 < layout.tab := by omega
      have hstructural := structuralColumn_eq hpos hk o width
      rw [Int.toNat_natCast]
      cases kind with
      | fresh =>
        rw [column, hstructural, recover_mapError]
        rfl
      | again =>
        rw [column, Buffer.column_natCast hk hpos]
        simp only [Except.mapError, bind, Except.bind, true_and]
        split
        · rfl
        · rw [hstructural, recover_mapError]
          rfl
    · rw [if_neg hi, if_neg hi]
      rfl

theorem columnFor_eq (c : Config) (b : Buffer) (o : Oracle) (kind : RequestKind) (i : Int) :
    columnFor c b o kind i = .ok (c.place b o kind i).column := by
  have hwidth : ¬ c.indentWidth.toInt < 1 := Int.not_lt.2 c.indentWidth.toInt_pos
  have htab : ¬ c.layout.tab < 1 := Int.not_lt.2 c.tabWidth.toInt_pos
  rw [columnFor, request_eq, FabEdit.request, if_neg hwidth, if_neg htab]
  rfl

theorem columnFor_ofBuffer (c : Config) (b : Buffer) (kind : RequestKind) (i : Int) :
    columnFor c b (.ofBuffer b) kind i = .ok (c.columnFor b kind i) :=
  columnFor_eq c b (.ofBuffer b) kind i

/-- An answer, unless white space is too long for it. -/
def answer {α : Type} (fault : Option RunFault) (a : α) : Except EngineFault α :=
  match fault with
  | some e => .error (.run e)
  | none => .ok a

variable (room : Nat) (c : Config)

theorem reindent_eq (col : Int) (l : Text) :
    reindent room c col l = answer (c.columnFault? room col) (c.reindent col l) := by
  rw [reindent, reindent?_eq c.tabWidth.toInt_pos, Config.columnFault?]
  cases paddingFault? room c.tabs c.tabWidth.toInt (max col 0) <;> rfl

theorem indentLine_eq (b : Buffer) (kind : RequestKind) (i : Int) :
    indentLine room c b kind i =
      answer (c.lineFault? room b kind i) (c.indentLine b kind i) := by
  rw [indentLine, columnFor_ofBuffer, Config.lineFault?, Config.indentLine]
  by_cases hi : b.InRange i
  · simp only [bind, Except.bind, if_pos hi]
    obtain ⟨k, rfl, hk⟩ := hi.exists_natCast
    rw [Buffer.get_natCast hk]
    exact reindent_eq room c _ _
  · simp only [bind, Except.bind, if_neg hi]
    rfl

theorem indentRow_eq (hk : k < b.count) :
    indentRow room c b k = answer (c.rowFault? room b k) (c.indentRow b k) := by
  rw [indentRow, Buffer.get_natCast hk, columnFor_ofBuffer, Config.rowFault?, Config.indentRow,
    Config.lineFault?_natCast room c hk]
  simp only [Except.mapError, bind, Except.bind, Buffer.replace_natCast hk, reindent_eq]
  split
  · rfl
  cases c.columnFault? room (c.columnFor b .fresh k) with
  | some e => rfl
  | none =>
    simp only [answer]
    -- A line that is where it belongs is left alone.
    split
    next hsame =>
      rw [hsame, Buffer.set_lineAt]
      rfl
    next => rfl

theorem foldlM_indentRow_eq {rows : List Nat} (hrows : ∀ k ∈ rows, k < b.count) :
    rows.foldlM (fun b (k : Nat) => indentRow room c b k) b =
      answer (c.rowsFault? room b rows) (rows.foldl c.indentRow b) := by
  induction rows generalizing b with
  | nil => rfl
  | cons k rows ih =>
    have hk := hrows k List.mem_cons_self
    rw [List.foldlM_cons, indentRow_eq room c hk, Config.rowsFault?, List.foldl_cons]
    cases c.rowFault? room b k with
    | some e => rfl
    | none =>
      apply ih
      intro j hj
      rw [Config.count_indentRow]
      exact hrows j (List.mem_cons_of_mem k hj)

theorem indentRegion_eq (b : Buffer) (start : Int) (stop : Option Int) :
    indentRegion room c b start stop =
      answer (c.regionFault? room b start stop) (c.indentRegion b start stop) :=
  foldlM_indentRow_eq room c fun _ hk => (Config.mem_regionRows.1 hk).2

end Checked

/-! ## White space that cannot be written -/

namespace Config

/-- The line at an index can be written where it belongs, or there is none. -/
def LineFits (room : Nat) (c : Config) (b : Buffer) (kind : RequestKind) (i : Int) : Prop :=
  b.InRange i → c.Fits room (c.columnFor b kind i)

/-- Every line of a region that is not blank can be written where it belongs. -/
def RegionFits (room : Nat) (c : Config) (b : Buffer) (start : Int) (stop : Option Int) : Prop :=
  ∀ (k : Nat) (l : Text), (c.indentRegion b start stop).lines[k]? = some l →
    InRegion start stop k → l.content ≠ [] → c.Fits room (column c.tabWidth.toInt l)

/-- A line that is not blank and belongs in a region cannot be written there, for a reason. -/
def RegionFault (room : Nat) (c : Config) (b : Buffer) (start : Int) (stop : Option Int)
    (e : RunFault) : Prop :=
  ∃ (k : Nat) (l : Text), (c.indentRegion b start stop).lines[k]? = some l ∧
    InRegion start stop k ∧ l.content ≠ [] ∧
    e.Explains room (c.padding (column c.tabWidth.toInt l))

variable {room : Nat} {c : Config}

theorem lineFault?_eq_none_iff {b : Buffer} {kind : RequestKind} {i : Int} :
    c.lineFault? room b kind i = none ↔ c.LineFits room b kind i := by
  rw [lineFault?, LineFits, ← columnFault?_eq_none_iff]
  by_cases hi : b.InRange i <;> simp [hi]

theorem exists_lineFault? {b : Buffer} {kind : RequestKind} {i : Int}
    (h : ¬ c.LineFits room b kind i) : ∃ e : RunFault,
      c.lineFault? room b kind i = some e ∧ e.Explains room (c.padding (c.columnFor b kind i)) := by
  obtain ⟨hi, hfits⟩ := Classical.not_imp.1 h
  rw [lineFault?, if_pos hi]
  exact exists_columnFault? hfits

/-- A pass changes nothing but the leading blanks of its rows. -/
theorem sameBut_foldl_indentRow (c : Config) (b : Buffer) (rows : List Nat) :
    b.SameBut rows (rows.foldl c.indentRow b) := by
  refine ⟨(count_foldl_indentRow c b rows).symm, fun k => ?_, fun k hk => ?_⟩
  · exact Buffer.apply_lineAt_congr (contents_foldl_indentRow c b rows).symm k
  · rw [Buffer.lineAt, Buffer.lineAt, List.getD_eq_getElem?_getD, List.getD_eq_getElem?_getD,
      getElem?_foldl_indentRow c hk]

/-- A pass from top to bottom meets the first fault that one of its rows has in the result. -/
theorem rowsFault?_eq_findSome? (room : Nat) (c : Config) {b : Buffer} {rows : List Nat}
    (hsorted : rows.Pairwise (· < ·)) (hrows : ∀ k ∈ rows, k < b.count) :
    c.rowsFault? room b rows = rows.findSome? (c.rowFault? room (rows.foldl c.indentRow b)) := by
  induction rows generalizing b with
  | nil => rfl
  | cons k rows ih =>
    obtain ⟨hfirst, hsorted⟩ := List.pairwise_cons.1 hsorted
    have hrest : ∀ j ∈ rows, j < (c.indentRow b k).count := by
      intro j hj
      rw [count_indentRow]
      exact hrows j (List.mem_cons_of_mem k hj)
    -- The first row is placed by what lies above it, which no later row changes.
    have hsame : c.rowFault? room b k = c.rowFault? room ((k :: rows).foldl c.indentRow b) k :=
      rowFault?_congr (c.sameBut_foldl_indentRow b (k :: rows)) hfirst
        (hrows k List.mem_cons_self) room
    rw [rowsFault?, hsame, List.findSome?_cons, ih hsorted hrest, List.foldl_cons]
    cases c.rowFault? room _ k <;> rfl

/-- What stands against a row of the result, if it is not blank, stands against the column at which
it is. -/
theorem rowFault?_indentRegion (room : Nat) (c : Config) (b : Buffer) {start : Int}
    {stop : Option Int} {k : Nat} (hk : k ∈ regionRows b.count start stop) :
    let out := c.indentRegion b start stop
    c.rowFault? room out k =
      if (out.lineAt k).content = [] then none
      else c.columnFault? room (column c.tabWidth.toInt (out.lineAt k)) := by
  intro out
  have hlt : k < out.count := (c.count_indentRegion b start stop).symm ▸ (mem_regionRows.1 hk).2
  rw [rowFault?_eq]
  split
  · rfl
  next hline =>
    rw [lineFault?_natCast room c hlt, (settled_indentRegion hk).column_eq hline]

theorem regionFault?_eq_findSome? (room : Nat) (c : Config) (b : Buffer) (start : Int)
    (stop : Option Int) :
    c.regionFault? room b start stop =
      (regionRows b.count start stop).findSome?
        (c.rowFault? room (c.indentRegion b start stop)) :=
  rowsFault?_eq_findSome? room c List.pairwise_lt_range' fun _ hk => (mem_regionRows.1 hk).2

/-- The rows of a region are the lines of the result that are in it. -/
theorem getElem?_indentRegion_eq_some_iff (c : Config) (b : Buffer) (start : Int)
    (stop : Option Int) (k : Nat) (l : Text) :
    (c.indentRegion b start stop).lines[k]? = some l ∧ InRegion start stop k ↔
      k ∈ regionRows b.count start stop ∧ (c.indentRegion b start stop).lineAt k = l := by
  rw [mem_regionRows, ← c.count_indentRegion b start stop, List.getElem?_eq_some_iff]
  constructor
  · rintro ⟨⟨hk, hl⟩, hregion⟩
    exact ⟨⟨hregion, hk⟩, (Buffer.lineAt_eq_getElem hk).trans hl⟩
  · rintro ⟨⟨hregion, hk⟩, hl⟩
    exact ⟨⟨hk, (Buffer.lineAt_eq_getElem hk).symm.trans hl⟩, hregion⟩

/-- A region can be written exactly if all lines of the result can. -/
theorem regionFault?_eq_none_iff {b : Buffer} {start : Int} {stop : Option Int} :
    c.regionFault? room b start stop = none ↔ c.RegionFits room b start stop := by
  rw [regionFault?_eq_findSome?, List.findSome?_eq_none_iff]
  constructor
  · intro h k l hl hregion hline
    obtain ⟨hk, rfl⟩ := (c.getElem?_indentRegion_eq_some_iff b start stop k l).1 ⟨hl, hregion⟩
    have hfault := h k hk
    rwa [rowFault?_indentRegion room c b hk, if_neg hline, columnFault?_eq_none_iff] at hfault
  · intro h k hk
    obtain ⟨hl, hregion⟩ := (c.getElem?_indentRegion_eq_some_iff b start stop k _).2 ⟨hk, rfl⟩
    rw [rowFault?_indentRegion room c b hk]
    split
    · rfl
    next hline => exact columnFault?_eq_none_iff.2 (h k _ hl hregion hline)

/-- The fault of a region is the fault of a line of the result. -/
theorem exists_regionFault? {b : Buffer} {start : Int} {stop : Option Int}
    (h : ¬ c.RegionFits room b start stop) :
    ∃ e : RunFault, c.regionFault? room b start stop = some e ∧
      c.RegionFault room b start stop e := by
  obtain ⟨e, he⟩ := Option.ne_none_iff_exists'.1 (mt regionFault?_eq_none_iff.1 h)
  refine ⟨e, he, ?_⟩
  rw [regionFault?_eq_findSome?] at he
  obtain ⟨k, hk, hfault⟩ := List.exists_of_findSome?_eq_some he
  obtain ⟨hl, hregion⟩ := (c.getElem?_indentRegion_eq_some_iff b start stop k _).2 ⟨hk, rfl⟩
  rw [rowFault?_indentRegion room c b hk] at hfault
  split at hfault
  · cases hfault
  next hline => exact ⟨k, _, hl, hregion, hline, explains_of_columnFault? hfault⟩

/-- A region whose lines can be written is given. -/
theorem checked_indentRegion_of_fits {b : Buffer} {start : Int} {stop : Option Int}
    (h : c.RegionFits room b start stop) :
    Checked.indentRegion room c b start stop = .ok (c.indentRegion b start stop) := by
  rw [Checked.indentRegion_eq, regionFault?_eq_none_iff.2 h]
  rfl

/-- A region with a line that cannot be written is not given, and nothing else stands against it. -/
theorem checked_indentRegion_of_not_fits {b : Buffer} {start : Int} {stop : Option Int}
    (h : ¬ c.RegionFits room b start stop) :
    ∃ e : RunFault, c.RegionFault room b start stop e ∧
      Checked.indentRegion room c b start stop = .error (.run e) := by
  obtain ⟨e, hfault, hexplains⟩ := exists_regionFault? h
  refine ⟨e, hexplains, ?_⟩
  rw [Checked.indentRegion_eq, hfault]
  rfl

/-! ## One pass is enough -/

/-- The same stands against the second pass as against the first. -/
theorem regionFault?_indentRegion (room : Nat) (c : Config) (b : Buffer) (start : Int)
    (stop : Option Int) :
    c.regionFault? room (c.indentRegion b start stop) start stop =
      c.regionFault? room b start stop := by
  rw [regionFault?_eq_findSome?, regionFault?_eq_findSome?, indentRegion_indentRegion,
    count_indentRegion]

/-- A second pass of the checked engine gives what the first gave, lines or fault. -/
theorem checked_indentRegion_indentRegion (room : Nat) (c : Config) (b : Buffer) (start : Int)
    (stop : Option Int) :
    Checked.indentRegion room c (c.indentRegion b start stop) start stop =
      Checked.indentRegion room c b start stop := by
  rw [Checked.indentRegion_eq, Checked.indentRegion_eq, regionFault?_indentRegion,
    indentRegion_indentRegion]

/-- One pass over a region is enough. A second pass over what the first one gives changes nothing,
and every line of the region that is not blank stands where it belongs in the result. Both hold for
plain lines, which lose their line ends on every pass, and for buffers, which are taken as they are.
Whatever the room, these lines are really given if they can be written, and then the second pass
gives them again; otherwise there is a fault. -/
theorem indentRegion_reaches_fixed_point (c : Config) (start : Int) (stop : Option Int) :
    (∀ ls : List Text,
      let out := (c.indentRegion (.ofLines ls) start stop).lines
      (c.indentRegion (.ofLines out) start stop).lines = out ∧
      (∀ (k : Nat) (l : Text), out[k]? = some l → InRegion start stop k → l.content ≠ [] →
        column c.tabWidth.toInt l = c.columnFor (.ofLines out) .fresh k) ∧
      ∀ room : Nat,
        (c.RegionFits room (.ofLines ls) start stop →
          Checked.indentRegion room c (.ofLines ls) start stop = .ok ⟨out⟩ ∧
          Checked.indentRegion room c (.ofLines out) start stop = .ok ⟨out⟩) ∧
        (¬ c.RegionFits room (.ofLines ls) start stop → ∃ e : RunFault,
          c.RegionFault room (.ofLines ls) start stop e ∧
          Checked.indentRegion room c (.ofLines ls) start stop = .error (.run e))) ∧
    (∀ b : Buffer,
      let out := c.indentRegion b start stop
      c.indentRegion out start stop = out ∧
      (∀ (k : Nat) (l : Text), out.lines[k]? = some l → InRegion start stop k → l.content ≠ [] →
        column c.tabWidth.toInt l = c.columnFor out .fresh k) ∧
      ∀ room : Nat,
        (c.RegionFits room b start stop →
          Checked.indentRegion room c b start stop = .ok out ∧
          Checked.indentRegion room c out start stop = .ok out) ∧
        (¬ c.RegionFits room b start stop → ∃ e : RunFault,
          c.RegionFault room b start stop e ∧
          Checked.indentRegion room c b start stop = .error (.run e))) := by
  have hcolumns : ∀ (b : Buffer) (k : Nat) (l : Text),
      (c.indentRegion b start stop).lines[k]? = some l → InRegion start stop k → l.content ≠ [] →
      column c.tabWidth.toInt l = c.columnFor (c.indentRegion b start stop) .fresh k := by
    intro b k l hl hregion hline
    obtain ⟨hk, rfl⟩ := (c.getElem?_indentRegion_eq_some_iff b start stop k l).1 ⟨hl, hregion⟩
    exact (settled_indentRegion hk).column_eq hline
  have hgiven : ∀ (b : Buffer) (room : Nat), c.RegionFits room b start stop →
      Checked.indentRegion room c b start stop = .ok (c.indentRegion b start stop) ∧
      Checked.indentRegion room c (c.indentRegion b start stop) start stop =
        .ok (c.indentRegion b start stop) := by
    intro b room hfits
    rw [checked_indentRegion_indentRegion]
    exact ⟨checked_indentRegion_of_fits hfits, checked_indentRegion_of_fits hfits⟩
  constructor
  · intro ls out
    have hout : Buffer.ofLines out = c.indentRegion (.ofLines ls) start stop :=
      (trimmed_indentRegion c ls start stop).ofLines_lines
    rw [hout, indentRegion_indentRegion]
    exact ⟨rfl, hcolumns (.ofLines ls),
      fun room => ⟨hgiven (.ofLines ls) room, checked_indentRegion_of_not_fits⟩⟩
  · intro b out
    exact ⟨indentRegion_indentRegion c b start stop, hcolumns b,
      fun room => ⟨hgiven b room, checked_indentRegion_of_not_fits⟩⟩

/-- Lines that carry line ends, with a tab, a blank line and a chain of branches. -/
private def unkempt : List Text :=
  ["fn f()\r\n", "if x\r", "\ty", "  \t", "      else", "z\n"].map String.toList

/-- The branch of `unkempt` ends up at the column that it has when asked for again, and a room of
eight is enough for both passes. -/
theorem indentRegion_unkempt :
    let out := (Config.default.indentRegion (.ofLines unkempt) (-3) (some 99)).lines
    out = ["fn f()", "    if x", "        y", "", "    else", "        z"].map String.toList ∧
      column 8 "    else".toList = Config.default.columnFor (.ofLines out) .fresh 4 ∧
      Checked.indentRegion 8 .default (.ofLines out) (-3) (some 99) = .ok ⟨out⟩ := by
  intro out
  obtain ⟨-, hcolumns, hgiven⟩ :=
    (indentRegion_reaches_fixed_point .default (-3) (some 99)).1 unkempt
  refine ⟨by decide +kernel, ?_, ?_⟩
  · exact hcolumns 4 "    else".toList (by decide +kernel) ⟨by decide, by simp⟩ (by decide)
  · exact ((hgiven 8).1 (regionFault?_eq_none_iff.1 (by decide +kernel))).2

end Config

end FabEdit
