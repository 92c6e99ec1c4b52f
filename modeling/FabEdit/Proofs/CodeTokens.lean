import FabEdit.Proofs.CheckedEngine
import FabEdit.Proofs.LexerRestart

/-!
# Indenting keeps the tokens of code

The lexer looks at what stands before a token: a label has to start its line, a word must not
continue another one, and a comment goes on over the end of a line. Indenting changes exactly that,
the white space at the start of every line. Yet apart from white space and comments the tokens stay
the same.

Shape of the argument:

* `Lexer.codeFrom` is the sequence of tokens that are code. Spaces and tabs at the start of a line
  add nothing to it, neither outside a comment, where they are part of a label or a token of their
  own, nor inside one (`Lexer.codeFrom_lead`).
* What the lexer carries over the end of a line is its mode and nothing else, and what is code in
  front of the line end does not depend on what lies behind it (`Lexer.exists_codeFrom_newline`).
* So by induction over the lines, lines have the same code as their contents
  (`Lexer.codeFrom_ofLines`), and the contents are what indenting keeps.
-/

namespace FabEdit

/-- Whether a token is code: neither white space nor inside a comment. -/
def Token.isCode (tok : Token) : Bool := tok.kind != .whitespace && !tok.kind.isComment

/-- The tokens of a text that are code, without their positions. -/
def Token.codeOfText (t : Text) : List Token := ((placedOfText t).map Prod.snd).filter isCode

namespace Lexer

/-- The tokens of the rest of a text that are code, in a mode and after a character. -/
def codeFrom (mode : LexMode) (before : Option Char) (t : Text) : List Token :=
  (tokensFrom mode before t).filter Token.isCode

theorem codeFrom_of_rule {mode : LexMode} {before : Option Char} {t : Text} {r : Rule} {n : Nat}
    (h : firstRule? mode.rules before t = some (r, n)) :
    codeFrom mode before t =
      (r.cut (t.take n)).filter Token.isCode ++ codeFrom r.next (t.take n).getLast? (t.drop n) := by
  rw [codeFrom, tokensFrom_of_rule h, List.filter_append]
  rfl

theorem codeFrom_of_none {mode : LexMode} {before : Option Char} {c : Char} {t : Text}
    (h : firstRule? mode.rules before (c :: t) = none) :
    codeFrom mode before (c :: t) = ⟨.error, [c]⟩ :: codeFrom mode (some c) t := by
  rw [codeFrom, tokensFrom_of_none h]
  rfl

/-- In a mode whose rules do the same after either of two characters, the tokens are the same. -/
theorem codeFrom_congr {mode : LexMode} {before before' : Option Char} {t : Text}
    (h : ∀ r ∈ mode.rules, r.pattern before t = r.pattern before' t) :
    codeFrom mode before t = codeFrom mode before' t := by
  cases t with
  | nil => rw [codeFrom, codeFrom, tokensFrom_nil, tokensFrom_nil]
  | cons c t => rw [codeFrom, codeFrom, tokensFrom, tokensFrom, firstRule?_congr h]

/-! ## Inside comments -/

/-- The lexer in a comment does not look back. -/
theorem codeFrom_comment (d : Nat) (before : Option Char) (t : Text) :
    codeFrom (.comment d) before t = codeFrom (.comment d) none t := by
  apply codeFrom_congr
  simp only [LexMode.rules, Rule.comment, List.forall_mem_cons]
  exact ⟨rfl, rfl, rfl, rfl, by simp⟩

/-- A character inside a comment that is no half of a mark. -/
def isFiller (c : Char) : Bool := c != '*' && c != '/'

/-- Inside a comment filler is no code and changes nothing. -/
theorem codeFrom_comment_dropWhile (d : Nat) (before : Option Char) (t : Text) :
    codeFrom (.comment d) before t = codeFrom (.comment d) none (t.dropWhile isFiller) := by
  cases t with
  | nil => exact codeFrom_comment d before []
  | cons c t =>
    by_cases hc : isFiller c = true
    · have hrule : firstRule? (LexMode.comment d).rules before (c :: t) = some
          (.single (.run isFiller) .blockComment (.comment d), runLength isFiller (c :: t)) :=
        firstRule?_cons_of_some (Pattern.run_eq_some hc before)
      rw [codeFrom_of_rule hrule, drop_runLength]
      exact codeFrom_comment d _ _
    · rw [List.dropWhile_cons_of_neg hc]
      exact codeFrom_comment d before (c :: t)

theorem codeFrom_comment_append {u : Text} (hu : ∀ c ∈ u, isFiller c = true) (d : Nat)
    (before : Option Char) (v : Text) :
    codeFrom (.comment d) before (u ++ v) = codeFrom (.comment d) none v := by
  rw [codeFrom_comment_dropWhile, List.dropWhile_append_of_pos hu, ← codeFrom_comment_dropWhile]

/-! ## Leads -/

/-- Outside comments and strings the lexer looks back for two things: whether a word ends there, and
whether a label may start there. -/
theorem codeFrom_root_congr {before before' : Option Char} {t : Text}
    (hword : before.any isWordChar = before'.any isWordChar)
    (hlabel : Pattern.label before t = Pattern.label before' t) :
    codeFrom .root before t = codeFrom .root before' t := by
  have hwordOf : ∀ ws, Pattern.wordOf ws before t = Pattern.wordOf ws before' t := by
    intro ws
    rw [Pattern.wordOf, Pattern.wordOf, Pattern.boundary, Pattern.boundary, hword]
  apply codeFrom_congr
  simp only [LexMode.rules, Rule.root, List.forall_mem_cons]
  refine ⟨hlabel, rfl, rfl, rfl, rfl, rfl, rfl, rfl, hwordOf _, hwordOf _, hwordOf _,
    congrArg (Option.map _) (hwordOf _), ?_⟩
  repeat refine ⟨rfl, ?_⟩
  simp

/-- What spaces and tabs are to the lexer. -/
theorem of_isSpaceOrTab {c : Char} (h : Pattern.isSpaceOrTab c = true) :
    Rule.isGap c = true ∧ isFiller c = true ∧ isWordChar c = false ∧ c ≠ '\n' := by
  simp only [Pattern.isSpaceOrTab, Bool.or_eq_true, beq_iff_eq] at h
  rcases h with rfl | rfl <;> decide

/-- Spaces and tabs before a label belong to it. -/
theorem label_append {w : Text} (hw : ∀ c ∈ w, Pattern.isSpaceOrTab c = true) (t : Text) :
    Pattern.label none (w ++ t) = (Pattern.label none t).map (w.length + ·) := by
  have hindent : runLength Pattern.isSpaceOrTab (w ++ t) =
      w.length + runLength Pattern.isSpaceOrTab t := by
    rw [runLength, List.takeWhile_append_of_pos hw, List.length_append, runLength]
  simp only [Pattern.label, hindent, List.drop_length_add_append, Option.all_none, if_true]
  split
  · rw [Option.map_map]
    congr 1
    funext n
    simp only [Function.comp_apply]
    omega
  · rfl

/-- The white space before a label is no code. -/
theorem filter_cutLabel_append {w : Text} (hw : ∀ c ∈ w, Pattern.isSpaceOrTab c = true)
    (u : Text) :
    (Rule.cutLabel (w ++ u)).filter Token.isCode = (Rule.cutLabel u).filter Token.isCode := by
  have hcons : ∀ (v : Text) (ts : List Token),
      (Rule.nonEmpty (⟨.whitespace, v⟩ :: ts)).filter Token.isCode =
        (Rule.nonEmpty ts).filter Token.isCode := by
    intro v ts
    rw [Rule.nonEmpty, List.filter_cons]
    split <;> rfl
  simp only [Rule.cutLabel, List.dropWhile_append_of_pos hw, hcons]

/-- Where no label stands, spaces and tabs in front of something else are a token of their own. -/
theorem firstRule?_root_lead {w t : Text} (hne : w ≠ [])
    (hw : ∀ c ∈ w, Pattern.isSpaceOrTab c = true) (ht : ∀ c ∈ t.head?, Rule.isGap c = false)
    (hlabel : Pattern.label none (w ++ t) = none) :
    firstRule? LexMode.root.rules none (w ++ t) =
      some (.single (.run Rule.isGap) .whitespace .root, w.length) := by
  have hrun : runLength Rule.isGap (w ++ t) = w.length := by
    have hgap : ∀ d ∈ w, Rule.isGap d = true := fun d hd => (of_isSpaceOrTab (hw d hd)).1
    have hnil : t.takeWhile Rule.isGap = [] := by
      cases t with
      | nil => rfl
      | cons d t => exact List.takeWhile_cons_of_neg (by rw [ht d rfl]; exact Bool.false_ne_true)
    rw [runLength, List.takeWhile_append_of_pos hgap, hnil, List.append_nil]
  obtain ⟨c, w, rfl⟩ := List.exists_cons_of_ne_nil hne
  obtain ⟨hgap, -, -, hnewline⟩ := of_isSpaceOrTab (hw c List.mem_cons_self)
  rw [LexMode.rules, Rule.root, firstRule?_cons_of_none hlabel,
    firstRule?_cons_of_none (if_neg (by simpa using hnewline)), ← hrun]
  exact firstRule?_cons_of_some (Pattern.run_eq_some hgap none)

/-- At the start of a line outside comments, spaces and tabs in front of something else are no code
and change nothing. -/
theorem codeFrom_root_lead {w t : Text} (hw : ∀ c ∈ w, Pattern.isSpaceOrTab c = true)
    (ht : ∀ c ∈ t.head?, Rule.isGap c = false) :
    codeFrom .root none (w ++ t) = codeFrom .root none t := by
  have hlabels := label_append hw t
  cases hlabel : Pattern.label none t with
  | some n =>
    rw [hlabel] at hlabels
    have hrule : firstRule? LexMode.root.rules none t = some (⟨.label, Rule.cutLabel, .root⟩, n) :=
      firstRule?_cons_of_some hlabel
    have hrule' : firstRule? LexMode.root.rules none (w ++ t) =
        some (⟨.label, Rule.cutLabel, .root⟩, w.length + n) :=
      firstRule?_cons_of_some hlabels
    have htaken : t.take n ≠ [] := by
      obtain ⟨hpos, hle⟩ := bounds_of_firstRule? hrule
      rw [← List.length_pos_iff, List.length_take_of_le hle]
      exact hpos
    rw [codeFrom_of_rule hrule, codeFrom_of_rule hrule', List.take_length_add_append,
      List.drop_length_add_append, filter_cutLabel_append hw,
      List.getLast?_append_of_ne_nil _ htaken]
  | none =>
    rw [hlabel] at hlabels
    by_cases hne : w = []
    · rw [hne, List.nil_append]
    obtain ⟨-, -, hword, hnewline⟩ := of_isSpaceOrTab (hw _ (List.getLast_mem hne))
    rw [codeFrom_of_rule (firstRule?_root_lead hne hw ht hlabels), List.take_left, List.drop_left,
      List.getLast?_eq_some_getLast hne]
    -- Behind the white space no word goes on, and a label does not start there either.
    refine codeFrom_root_congr hword ?_
    rw [hlabel, Pattern.label, if_neg (by simpa using hnewline)]

/-- At the start of a line, spaces and tabs in front of something else are no code and change
nothing. No line starts inside a string, since a string ends with its line. -/
theorem codeFrom_lead {mode : LexMode} (hmode : ∀ q, mode ≠ .string q) {w t : Text}
    (hw : ∀ c ∈ w, Pattern.isSpaceOrTab c = true) (ht : ∀ c ∈ t.head?, Rule.isGap c = false) :
    codeFrom mode none (w ++ t) = codeFrom mode none t := by
  cases mode with
  | root => exact codeFrom_root_lead hw ht
  | comment d =>
    have hfiller : ∀ c ∈ w, isFiller c = true := fun c hc => (of_isSpaceOrTab (hw c hc)).2.1
    exact codeFrom_comment_append hfiller d none t
  | string q => exact absurd rfl (hmode q)

/-! ## From line to line -/

/-- A comment without a half of a mark before the newline goes on behind it. -/
theorem codeFrom_comment_newline {u : Text} (hu : ∀ c ∈ u, isFiller c = true) (d : Nat)
    (before : Option Char) (v : Text) :
    codeFrom (.comment d) before (u ++ '\n' :: v) = codeFrom (.comment d) none v := by
  rw [codeFrom_comment_append hu]
  exact codeFrom_comment_append (u := ['\n']) (by simp [isFiller]) d none v

/-- What is code in front of a newline, and the mode in which the lexer goes on behind it, do not
depend on what lies behind it. -/
theorem exists_codeFrom_newline (mode : LexMode) (before : Option Char) (u : Text) :
    ∃ code next, (∀ q, next ≠ .string q) ∧
      ∀ v, codeFrom mode before (u ++ '\n' :: v) = code ++ codeFrom next none v := by
  induction mode, before, u using Lexer.induction with
  | nil mode before =>
    by_cases hcomment : ∃ d, mode = .comment d
    · obtain ⟨d, rfl⟩ := hcomment
      exact ⟨[], .comment d, nofun, codeFrom_comment_newline (by simp) d before⟩
    · refine ⟨[], .root, nofun, fun v => ?_⟩
      rw [codeFrom, List.nil_append, tokensFrom_cons_newline (not_exists.1 hcomment)]
      rfl
  | rule mode before u r n hrule ih =>
    by_cases hfiller : ∃ d, mode = .comment d ∧ ∀ c ∈ u, isFiller c = true
    · obtain ⟨d, rfl, hu⟩ := hfiller
      exact ⟨[], .comment d, nofun, codeFrom_comment_newline hu d before⟩
    obtain ⟨code, next, hnext, hcode⟩ := ih
    obtain ⟨hpos, hle⟩ := bounds_of_firstRule? hrule
    have hu : u ≠ [] := List.length_pos_iff.1 (Nat.lt_of_lt_of_le hpos hle)
    refine ⟨(r.cut (u.take n)).filter Token.isCode ++ code, next, hnext, fun v => ?_⟩
    have hrule' : firstRule? mode.rules before (u ++ '\n' :: v) = some (r, n) :=
      (firstRule?_append_newline hu fun d hd hall => hfiller ⟨d, hd, hall⟩).trans hrule
    rw [codeFrom_of_rule hrule', List.take_append_of_le_length hle,
      List.drop_append_of_le_length hle, hcode, List.append_assoc]
  | error mode before c u hnone ih =>
    by_cases hfiller : ∃ d, mode = .comment d ∧ ∀ x ∈ c :: u, isFiller x = true
    · obtain ⟨d, rfl, hu⟩ := hfiller
      exact ⟨[], .comment d, nofun, codeFrom_comment_newline hu d before⟩
    obtain ⟨code, next, hnext, hcode⟩ := ih
    refine ⟨⟨.error, [c]⟩ :: code, next, hnext, fun v => ?_⟩
    have hnone' : firstRule? mode.rules before (c :: (u ++ '\n' :: v)) = none :=
      (firstRule?_append_newline (List.cons_ne_nil c u)
        fun d hd hall => hfiller ⟨d, hd, hall⟩).trans hnone
    rw [List.cons_append, codeFrom_of_none hnone', hcode, List.cons_append]

theorem isGap_eq_false_of_isBlank {c : Char} (h : isBlank c = false) : Rule.isGap c = false := by
  rw [← Bool.not_eq_true] at h ⊢
  intro hgap
  simp only [Rule.isGap, Bool.or_eq_true, beq_iff_eq] at hgap
  rcases hgap with (((rfl | rfl) | rfl) | rfl) | rfl <;> exact h (by decide)

/-- The lead of a line is no code and changes nothing. -/
theorem codeFrom_line {mode : LexMode} (hmode : ∀ q, mode ≠ .string q) {l t : Text}
    (hlead : ∀ c ∈ l.lead, Pattern.isSpaceOrTab c = true)
    (ht : ∀ c ∈ t.head?, Rule.isGap c = false) :
    codeFrom mode none (l ++ t) = codeFrom mode none (l.content ++ t) := by
  have hhead : ∀ c ∈ (l.content ++ t).head?, Rule.isGap c = false := by
    intro c hc
    cases hcontent : l.content with
    | nil =>
      rw [hcontent] at hc
      exact ht c hc
    | cons d v =>
      rw [hcontent] at hc
      obtain rfl := Option.some.inj hc
      exact isGap_eq_false_of_isBlank (Text.isBlank_of_content_eq_cons hcontent)
  calc codeFrom mode none (l ++ t)
      = codeFrom mode none (l.lead ++ (l.content ++ t)) := by
        rw [← List.append_assoc, Text.lead_append_content]
    _ = codeFrom mode none (l.content ++ t) := codeFrom_lead hmode hlead hhead

/-- Lines have the same code as their contents. -/
theorem codeFrom_ofLines {ls : List Text}
    (hlead : ∀ l ∈ ls, ∀ c ∈ l.lead, Pattern.isSpaceOrTab c = true) {mode : LexMode}
    (hmode : ∀ q, mode ≠ .string q) :
    codeFrom mode none (Text.ofLines ls) =
      codeFrom mode none (Text.ofLines (ls.map Text.content)) := by
  induction ls generalizing mode with
  | nil => rfl
  | cons l ls ih =>
    obtain ⟨hl, hls⟩ := List.forall_mem_cons.1 hlead
    cases ls with
    | nil =>
      have hend := codeFrom_line (t := []) hmode hl nofun
      rw [List.append_nil, List.append_nil] at hend
      rwa [List.map_singleton, Text.ofLines_singleton, Text.ofLines_singleton]
    | cons m ls =>
      obtain ⟨code, next, hnext, hcode⟩ := exists_codeFrom_newline mode none l.content
      have hrest := ih hls hnext
      rw [List.map_cons] at hrest
      rw [List.map_cons, List.map_cons, Text.ofLines_cons_cons, Text.ofLines_cons_cons, hcode,
        ← hrest, ← hcode]
      apply codeFrom_line hmode hl
      intro c hc
      obtain rfl := Option.some.inj hc
      rfl

end Lexer

theorem Token.codeOfText_eq_codeFrom (t : Text) :
    codeOfText t = Lexer.codeFrom .root none t := by
  rw [codeOfText, placedOfText, map_snd_positionsFrom]
  rfl

namespace Config

/-- Indenting a row puts nothing but spaces and tabs in front of it. -/
theorem lead_rowText (c : Config) (b : Buffer) (k : Nat) :
    ∀ ch ∈ (c.rowText b k).lead, Pattern.isSpaceOrTab ch = true := by
  rw [rowText]
  split
  · intro ch hch
    exact absurd hch List.not_mem_nil
  · intro ch hch
    rw [reindent, reindent_eq,
      Text.lead_blank_append_content fun _ => isBlank_of_mem_padding] at hch
    rcases eq_tab_or_space_of_mem_padding hch with rfl | rfl <;> decide

/-- No line has other white space in front of it than spaces and tabs. -/
def PlainLeads (b : Buffer) : Prop :=
  ∀ l ∈ b.lines, ∀ ch ∈ l.lead, Pattern.isSpaceOrTab ch = true

theorem PlainLeads.indentRow {b : Buffer} (h : PlainLeads b) (c : Config) (k : Nat) :
    PlainLeads (c.indentRow b k) := by
  intro l hl
  rw [indentRow_eq_set] at hl
  rcases List.mem_or_eq_of_mem_set hl with hmem | rfl
  · exact h l hmem
  · exact lead_rowText c b k

theorem PlainLeads.indentRegion {b : Buffer} (h : PlainLeads b) (c : Config) (start : Int)
    (stop : Option Int) : PlainLeads (c.indentRegion b start stop) :=
  foldl_indentRow_induction h (fun _ k h => h.indentRow c k) _

/-- Indenting a region recolours no code: apart from white space and comments, the tokens of the
lines are the same before and after. Whatever the room, the lines after it are really given if they
can be written, and otherwise there is a fault. -/
theorem indentRegion_keeps_code (c : Config) (ls : List Text) (start : Int) (stop : Option Int)
    (hends : ∀ l ∈ ls, '\n' ∉ l ∧ '\r' ∉ l)
    (hlead : ∀ l ∈ ls, ∀ ch ∈ l.lead, ch = ' ' ∨ ch = '\t') :
    Token.codeOfText (Text.ofLines (c.indentRegion (.ofLines ls) start stop).lines) =
      Token.codeOfText (Text.ofLines ls) ∧
    ∀ room : Nat,
      (c.RegionFits room (.ofLines ls) start stop →
        Checked.indentRegion room c (.ofLines ls) start stop =
          .ok (c.indentRegion (.ofLines ls) start stop)) ∧
      (¬ c.RegionFits room (.ofLines ls) start stop → ∃ e : RunFault,
        c.RegionFault room (.ofLines ls) start stop e ∧
        Checked.indentRegion room c (.ofLines ls) start stop = .error (.run e)) := by
  refine ⟨?_, fun room => ⟨checked_indentRegion_of_fits, checked_indentRegion_of_not_fits⟩⟩
  have htrimmed : Trimmed ⟨ls⟩ := by
    intro l hl
    refine List.rdropWhile_eq_self_iff.2 fun hne hend => ?_
    obtain ⟨hnewline, hreturn⟩ := hends l hl
    simp only [Buffer.isLineEnd, Bool.or_eq_true, beq_iff_eq] at hend
    rcases hend with hend | hend
    · exact hreturn (hend ▸ List.getLast_mem hne)
    · exact hnewline (hend ▸ List.getLast_mem hne)
  have hplain : PlainLeads ⟨ls⟩ := by
    intro l hl ch hch
    rcases hlead l hl ch hch with rfl | rfl <;> rfl
  have hroot : ∀ q, LexMode.root ≠ .string q := by
    intro q h
    cases h
  rw [htrimmed.ofLines_lines, Token.codeOfText_eq_codeFrom, Token.codeOfText_eq_codeFrom,
    Lexer.codeFrom_ofLines (hplain.indentRegion c start stop) hroot, contents_indentRegion,
    ← Lexer.codeFrom_ofLines hplain hroot]

/-- Lines with a label, a comment over a line end, a string that breaks off and a blank line. -/
private def littered : List Text :=
  ["fn f()", "\t : go", "  /* :x", "*/ 'a\\", " \t", "if y"].map String.toList

/-- Every line of `littered` but the first moves, for which a room of four is enough, and its code
stays the same. -/
theorem indentRegion_littered :
    let out := (Config.default.indentRegion (.ofLines littered) 0 none).lines
    (∀ l ∈ littered, '\n' ∉ l ∧ '\r' ∉ l) ∧
      (∀ l ∈ littered, ∀ ch ∈ l.lead, ch = ' ' ∨ ch = '\t') ∧
      out = ["fn f()", ": go", "    /* :x", "    */ 'a\\", "", "    if y"].map String.toList ∧
      Token.codeOfText (Text.ofLines out) = Token.codeOfText (Text.ofLines littered) ∧
      Checked.indentRegion 4 .default (.ofLines littered) 0 none = .ok ⟨out⟩ := by
  intro out
  have hends : ∀ l ∈ littered, '\n' ∉ l ∧ '\r' ∉ l := by
    have hall : littered.all (fun l => !l.contains '\n' && !l.contains '\r') = true := by
      decide +kernel
    intro l hl
    simpa using List.all_eq_true.1 hall l hl
  have hlead : ∀ l ∈ littered, ∀ ch ∈ l.lead, ch = ' ' ∨ ch = '\t' := by
    have hall : littered.all (fun l => l.lead.all fun ch => ch == ' ' || ch == '\t') = true := by
      decide +kernel
    intro l hl
    simpa using List.all_eq_true.1 hall l hl
  obtain ⟨hcode, hgiven⟩ := indentRegion_keeps_code .default littered 0 none hends hlead
  exact ⟨hends, hlead, by decide +kernel, hcode,
    (hgiven 4).1 (regionFault?_eq_none_iff.1 (by decide +kernel))⟩

end Config

end FabEdit
