import FabEdit.Indenter
import FabEdit.Proofs.LineKinds
import FabEdit.Proofs.Measure

/-!
# The lines above decide

Where a line belongs is decided by the block openers above it and by its own content. The lines
below it, its own indentation, and the indentation of the lines above that open no block play no
part, although the comments are found by a scan over the whole text.

Shape of the argument:

* `Trail.Alike` relates two trails whose rows have, one by one, the same core and the same column.
  The peer search and the column that follows from it are the same on both (`findPeer_alike`,
  `columnBelow_alike`).
* `Buffer.SameAbove` says that two buffers agree on what counts above a line. Then their openers are
  alike (`SameAbove.openersAbove_alike`).
* A trail without failures (`Trail.Whole`) always leads to an answer, and under positive widths the
  answer is no negative column (`columnBelow_whole`).
-/

namespace FabEdit

/-! ## Alike trails -/

/-- Two trails that no search can tell apart. -/
inductive Trail.Alike (tab : Int) : Trail → Trail → Prop
  | done : Alike tab .done .done
  | fault (e : LineFault) : Alike tab (.fault e) (.fault e)
  | row {r r' : Row} {above above' : Trail} (core : r.line.core = r'.line.core)
      (col : column tab r.line = column tab r'.line) (rest : Alike tab above above') :
      Alike tab (.row r above) (.row r' above')

theorem firstWord_congr {l l' : Text} (h : l.core = l'.core) : l.firstWord = l'.firstWord := by
  rw [← Text.firstWord_core, h, Text.firstWord_core]

/-- A rule looks at the first two words of a line. -/
theorem Continuation.continues_eq (rule : Continuation) (l : Text) :
    rule.continues l =
      (decide (l.firstWord ∈ rule.peers) && (!decide (l.firstWord ∈ rule.terminal) ||
        l.words[1]?.any fun second => decide (second ∈ rule.peers))) := by
  have hsecond : (l.pieces 2)[1]? = l.words[1]? := by
    rw [← List.getElem?_take_of_lt Nat.one_lt_two, Text.take_pieces,
      List.getElem?_take_of_lt Nat.one_lt_two]
  rw [continues, ← hsecond]
  rcases l.pieces 2 with _ | ⟨first, _ | ⟨second, rest⟩⟩ <;> rfl

theorem Continuation.continues_congr (rule : Continuation) {l l' : Text} (h : l.core = l'.core) :
    rule.continues l = rule.continues l' := by
  have hwords : l.words = l'.words := by rw [← Text.words_core, h, Text.words_core]
  rw [continues_eq, continues_eq, firstWord_congr h, hwords]

/-- The peer search gives rows with the same column on alike trails. -/
theorem Continuation.findPeer_alike (rule : Continuation) {tab : Int} {tr tr' : Trail}
    (h : Trail.Alike tab tr tr') (ceiling : Option Int) :
    (rule.findPeer tab ceiling tr).map (Option.map fun r => column tab r.line) =
      (rule.findPeer tab ceiling tr').map (Option.map fun r => column tab r.line) := by
  induction h generalizing ceiling with
  | done => rfl
  | fault e => rfl
  | @row r r' above above' core col rest ih =>
    rw [findPeer, findPeer, rule.continues_congr core, col, firstWord_congr core]
    split
    · exact congrArg (fun c => Except.ok (some c)) col
    · split
      · rfl
      · exact ih _

/-- The column of a peer, or a default, through its column alone. -/
private theorem map_peer_eq (tab width : Int) (x : Except LineFault (Option Row)) :
    (x.map fun
      | none => width
      | some peer => column tab peer.line) =
      (x.map (Option.map fun r => column tab r.line)).map fun col => col.getD width := by
  rcases x with e | none | r <;> rfl

/-- Alike trails put lines with one core at the same column. -/
theorem columnBelow_alike {layout : Layout} {tr tr' : Trail} (h : Trail.Alike layout.tab tr tr')
    (width : Int) {l l' : Text} (hline : l.core = l'.core) :
    columnBelow layout width tr l = columnBelow layout width tr' l' := by
  have hannotation : isAnnotationLine l = isAnnotationLine l' := by
    rw [← isAnnotationLine_core, hline, isAnnotationLine_core]
  cases h with
  | done => rfl
  | fault e => rfl
  | @row r r' above above' core col rest =>
    rw [columnBelow, columnBelow, hannotation, col, firstWord_congr hline]
    split
    · rfl
    · split
      · rfl
      · next rule _ =>
        have hpeer := rule.findPeer_alike (.row core col rest) none
        exact (map_peer_eq _ _ _).trans ((congrArg _ hpeer).trans (map_peer_eq _ _ _).symm)

namespace Buffer

/-- The openers above a line, one line further down. -/
theorem openersAbove_succ (b : Buffer) (o : Oracle) (openers : WordSet) (k : Nat) :
    b.openersAbove o openers (k + 1) =
      match b.kindAt o k with
      | .error e => .fault e
      | .ok .source =>
        if (b.lineAt k).firstWord ∈ openers then .row ⟨k, b.lineAt k⟩ (b.openersAbove o openers k)
        else b.openersAbove o openers k
      | .ok _ => b.openersAbove o openers k := by
  rw [openersAbove, sourcesAbove]
  rcases b.kindAt o k with e | kind
  · rfl
  · cases kind with
    | source => simp [Trail.filter, openersAbove]
    | blank | comment => rfl

/-- Openers above two lines are alike if they are alike one line further up and the lines there
have the same kind, the same core and, if they open a block, the same column. -/
theorem openersAbove_succ_alike {tab : Int} {openers : WordSet} {b b' : Buffer} {o o' : Oracle}
    {i i' : Nat} (hkind : b.kindAt o i = b'.kindAt o' i')
    (hcore : (b.lineAt i).core = (b'.lineAt i').core)
    (hcolumn : b.kindAt o i = .ok .source → (b.lineAt i).firstWord ∈ openers →
      FabEdit.column tab (b.lineAt i) = FabEdit.column tab (b'.lineAt i'))
    (h : Trail.Alike tab (b.openersAbove o openers i) (b'.openersAbove o' openers i')) :
    Trail.Alike tab (b.openersAbove o openers (i + 1)) (b'.openersAbove o' openers (i' + 1)) := by
  rw [openersAbove_succ, openersAbove_succ, ← hkind, ← firstWord_congr hcore]
  split
  next e _ => exact .fault e
  next hsource =>
    split
    next hopener => exact .row hcore (hcolumn hsource hopener) h
    next => exact h
  next => exact h

/-- Two buffers agree on what counts above line `k`: the cores of the lines, and the columns of
those that open a block. -/
structure SameAbove (layout : Layout) (b b' : Buffer) (k : Nat) : Prop where
  le_count : k ≤ b.count
  le_count' : k ≤ b'.count
  core : ∀ j, j < k → (b.lineAt j).core = (b'.lineAt j).core
  column : ∀ j, j < k → b.kindAt (.ofBuffer b) j = .ok .source →
    (b.lineAt j).firstWord ∈ layout.openers →
    FabEdit.column layout.tab (b.lineAt j) = FabEdit.column layout.tab (b'.lineAt j)

theorem SameAbove.openersAbove_alike {layout : Layout} {b b' : Buffer} {k : Nat}
    (h : SameAbove layout b b' k) :
    Trail.Alike layout.tab (b.openersAbove (.ofBuffer b) layout.openers k)
      (b'.openersAbove (.ofBuffer b') layout.openers k) := by
  induction k with
  | zero => exact .done
  | succ k ih =>
    have hle := h.le_count
    have hle' := h.le_count'
    have habove : SameAbove layout b b' k :=
      ⟨by omega, by omega, fun j hj => h.core j (by omega), fun j hj => h.column j (by omega)⟩
    exact openersAbove_succ_alike (kindAt_congr hle hle' fun j hj => h.core j (by omega))
      (h.core k (Nat.lt_succ_self k)) (h.column k (Nat.lt_succ_self k)) (ih habove)

/-- Buffers that agree above a line put it at the same column, if its cores are the same. -/
theorem SameAbove.structuralColumn_eq {layout : Layout} {b b' : Buffer} {k : Nat}
    (h : SameAbove layout b b' k) (hline : (b.lineAt k).core = (b'.lineAt k).core) (width : Int) :
    structuralColumn layout b (.ofBuffer b) width k =
      structuralColumn layout b' (.ofBuffer b') width k :=
  columnBelow_alike h.openersAbove_alike width hline

end Buffer

/-! ## There is always an answer -/

namespace Trail

/-- No failure is on the trail. -/
def Whole : Trail → Prop
  | .done => True
  | .fault _ => False
  | .row _ above => above.Whole

end Trail

/-- On a trail without failures the peer search comes to an end. -/
theorem Continuation.findPeer_whole (rule : Continuation) (tab : Int) {tr : Trail} (h : tr.Whole)
    (ceiling : Option Int) : ∃ peer, rule.findPeer tab ceiling tr = .ok peer := by
  induction tr generalizing ceiling with
  | done => exact ⟨none, rfl⟩
  | fault e => exact h.elim
  | row r above ih =>
    rw [findPeer]
    split
    · exact ⟨some r, rfl⟩
    · split
      · exact ⟨none, rfl⟩
      · exact ih h _

/-- On a trail without failures a line has a column, and with positive widths it is not negative. -/
theorem columnBelow_whole {layout : Layout} (htab : 0 < layout.tab) {width : Int}
    (hwidth : 0 ≤ width) {tr : Trail} (h : tr.Whole) (l : Text) :
    ∃ col, columnBelow layout width tr l = .ok col ∧ 0 ≤ col := by
  cases tr with
  | done => exact ⟨0, rfl, Int.le_refl 0⟩
  | fault e => exact h.elim
  | row r above =>
    have hcol : 0 ≤ column layout.tab r.line := column_nonneg htab r.line
    rw [columnBelow]
    split
    · exact ⟨_, rfl, hcol⟩
    · split
      · exact ⟨_, rfl, by omega⟩
      · next rule _ =>
        obtain ⟨peer, hpeer⟩ := rule.findPeer_whole layout.tab h none
        rw [hpeer]
        cases peer with
        | none => exact ⟨column layout.tab r.line + width, rfl, by omega⟩
        | some peer => exact ⟨_, rfl, column_nonneg htab peer.line⟩

/-- The buffer's own comments leave no line unjudged. -/
theorem Buffer.openersAbove_whole {b : Buffer} {k : Nat} (h : k ≤ b.count) (openers : WordSet) :
    (b.openersAbove (.ofBuffer b) openers k).Whole := by
  induction k with
  | zero => trivial
  | succ k ih =>
    rw [openersAbove_succ, kindAt_ofBuffer h]
    split
    · contradiction
    · split
      · exact ih (by omega)
      · exact ih (by omega)
    · exact ih (by omega)

theorem exists_structuralColumn {layout : Layout} (htab : 0 < layout.tab) {width : Int}
    (hwidth : 0 ≤ width) {b : Buffer} {k : Nat} (h : k ≤ b.count) :
    ∃ col, structuralColumn layout b (.ofBuffer b) width k = .ok col ∧ 0 ≤ col :=
  columnBelow_whole htab hwidth (Buffer.openersAbove_whole h layout.openers) (b.lineAt k)

/-! ## Requests -/

/-- With the buffer's own comments and positive widths a line of the buffer always has a place. -/
theorem exists_place_found (layout : Layout) (htab : 0 < layout.tab) {width : Int}
    (hwidth : 0 ≤ width) {b : Buffer} {i : Int} (hi : b.InRange i) (kind : RequestKind) :
    ∃ col, place layout b (.ofBuffer b) width kind i = .found col ∧ 0 ≤ col := by
  obtain ⟨hlow, hhigh⟩ := hi
  obtain ⟨col, hcol, hnonneg⟩ := exists_structuralColumn htab hwidth (b := b) (k := i.toNat)
    (by omega)
  rw [place, if_pos ⟨hlow, hhigh⟩, hcol]
  simp only
  split
  next hagain => exact ⟨_, rfl, hagain.2⟩
  next => exact ⟨col, rfl, hnonneg⟩

/-- Buffers that agree above a line give the same place for it. A repeated request looks at the
line's own column besides. -/
theorem Buffer.SameAbove.place_eq {layout : Layout} {b b' : Buffer} {i : Int}
    (h : b.SameAbove layout b' i.toNat) (hi : b.InRange i) (hi' : b'.InRange i)
    (hline : (b.lineAt i.toNat).core = (b'.lineAt i.toNat).core) {kind : RequestKind}
    (hagain : kind = .again →
      FabEdit.column layout.tab (b.lineAt i.toNat) = FabEdit.column layout.tab (b'.lineAt i.toNat))
    (width : Int) :
    place layout b (.ofBuffer b) width kind i = place layout b' (.ofBuffer b') width kind i := by
  rw [place, place, if_pos hi, if_pos hi', h.structuralColumn_eq hline width]
  cases kind with
  | fresh => simp
  | again => rw [hagain rfl]

/-- The answer for a line depends only on what lies above it: on the contents of the lines above, on
the columns of those that open a block, and on the content of the line itself. A repeated request
looks at the line's own column besides. -/
theorem request_decided_by_lines_above (layout : Layout) (width : Int) (b b' : Buffer) (i : Int)
    (hwidth : 1 ≤ width) (htab : 1 ≤ layout.tab) (hi : b.InRange i) (hi' : b'.InRange i)
    (habove : ∀ j : Nat, j < i → (b.lineAt j).content = (b'.lineAt j).content)
    (hopeners : ∀ j : Nat, j < i → b.kind (.ofBuffer b) j = .ok .source →
      (b.lineAt j).firstWord ∈ layout.openers →
      column layout.tab (b.lineAt j) = column layout.tab (b'.lineAt j))
    (hline : (b.lineAt i.toNat).content = (b'.lineAt i.toNat).content) :
    (∃ col, request layout b (.ofBuffer b) width .fresh i = .ok (.found col) ∧
      request layout b' (.ofBuffer b') width .fresh i = .ok (.found col)) ∧
    (column layout.tab (b.lineAt i.toNat) = column layout.tab (b'.lineAt i.toNat) →
      ∃ col, request layout b (.ofBuffer b) width .again i = .ok (.found col) ∧
        request layout b' (.ofBuffer b') width .again i = .ok (.found col)) := by
  obtain ⟨hlow, hhigh⟩ := hi
  obtain ⟨-, hhigh'⟩ := hi'
  have hcore := Text.core_congr hline
  have hsame : b.SameAbove layout b' i.toNat := by
    refine ⟨by omega, by omega, fun j hj => Text.core_congr (habove j (by omega)), ?_⟩
    intro j hj hsource
    refine hopeners j (by omega) ?_
    rwa [Buffer.kind_natCast (by omega)]
  -- Both widths pass the check, so a request is answered by the place of the line.
  have hrequest : ∀ (a : Buffer) (kind : RequestKind), request layout a (.ofBuffer a) width kind i =
      .ok (place layout a (.ofBuffer a) width kind i) := by
    intro a kind
    rw [request, if_neg (by omega), if_neg (by omega)]
  have hfound : ∀ kind, ∃ col, place layout b (.ofBuffer b) width kind i = .found col ∧ 0 ≤ col :=
    exists_place_found layout (by omega) (by omega) ⟨hlow, hhigh⟩
  simp only [hrequest]
  constructor
  · obtain ⟨col, hcol, -⟩ := hfound .fresh
    rw [← hsame.place_eq ⟨hlow, hhigh⟩ ⟨hlow, hhigh'⟩ hcore (by simp) width, hcol]
    exact ⟨col, rfl, rfl⟩
  · intro hcolumn
    obtain ⟨col, hcol, -⟩ := hfound .again
    rw [← hsame.place_eq ⟨hlow, hhigh⟩ ⟨hlow, hhigh'⟩ hcore (fun _ => hcolumn) width, hcol]
    exact ⟨col, rfl, rfl⟩

/-- A function with a line to indent, below a comment that hides an opener. -/
private def sparse : Buffer :=
  ⟨["/* old", "if x */", "fn main()", "x = 1", "y"].map String.toList⟩

/-- The same with other indentation where it does not count, and with more text below. -/
private def shifted : Buffer :=
  ⟨["\t/* old", "   if x */", "fn main()", "      x = 1", "y", "  /* if"].map String.toList⟩

/-- The two buffers differ in the column of a hidden opener, of a comment and of a statement, and in
what follows; the answers for line 4 are the same. -/
theorem request_sparse_eq_request_shifted :
    (∃ col, request Config.default.layout sparse (.ofBuffer sparse) 4 .fresh 4 = .ok (.found col) ∧
      request Config.default.layout shifted (.ofBuffer shifted) 4 .fresh 4 = .ok (.found col)) ∧
    (column Config.default.layout.tab (sparse.lineAt 4) =
        column Config.default.layout.tab (shifted.lineAt 4) →
      ∃ col, request Config.default.layout sparse (.ofBuffer sparse) 4 .again 4 = .ok (.found col) ∧
        request Config.default.layout shifted (.ofBuffer shifted) 4 .again 4 =
          .ok (.found col)) := by
  have hlines : ∀ j : Nat, (j : Int) < 4 → j = 0 ∨ j = 1 ∨ j = 2 ∨ j = 3 := by omega
  refine request_decided_by_lines_above Config.default.layout 4 sparse shifted 4 (by decide)
    (by decide) (by decide) (by decide) ?_ ?_ (by decide)
  · intro j hj
    rcases hlines j hj with rfl | rfl | rfl | rfl <;> decide
  · intro j hj hsource hopener
    rcases hlines j hj with rfl | rfl | rfl | rfl
    · exact absurd hopener (by decide)
    · exact absurd hsource (by decide +kernel)
    · decide
    · exact absurd hopener (by decide)

end FabEdit
