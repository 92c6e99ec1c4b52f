import FabEdit.Proofs.LexerComments
import FabEdit.Proofs.PatternReach
import Mathlib.Data.List.Chain

/-!
# Tokens tile the text, and where errors are

The tokens of a text, one after the other, are the text: none is empty, nothing is left out and
nothing is added. The only characters that no rule takes are backslashes at the end of a line, or of
the text, inside a string.

Shape of the argument:

* Every rule takes at least one character and no more than there are (`Lexer.bounds_of_firstRule?`),
  and cuts what it takes into tokens that are neither empty nor errors (`Rule.Cuts`).
* So a rule moves the lexer on by what it takes (`Lexer.tokensFrom_of_rule`), and every statement
  about the tokens of a text goes by induction over these moves (`Lexer.induction`).
* `Lexer.Reaches` says in which modes and at which positions the lexer stands between its moves. The
  token at such a position is the first that the lexer finds from there on
  (`Reaches.mem_placedOfText_iff`). It is an error exactly if no rule applies
  (`Reaches.error_mem_iff`), and errors stand at no other positions (`exists_reaches_of_error`).
* `Lexer.firstRule?_eq_none_iff` says when no rule applies.
-/

namespace FabEdit

/-! ## Cutting -/

namespace Rule

/-- A rule cuts what it takes into tokens that are neither empty nor errors. -/
structure Cuts (r : Rule) : Prop where
  flatMap_text : ∀ u, (r.cut u).flatMap Token.text = u
  text_ne_nil : ∀ u, u ≠ [] → ∀ tok ∈ r.cut u, tok.text ≠ []
  kind_ne_error : ∀ u, ∀ tok ∈ r.cut u, tok.kind ≠ .error

theorem cuts_single (pat : Pattern) {kind : TokenKind} (next : LexMode) (hkind : kind ≠ .error) :
    (single pat kind next).Cuts := by
  refine ⟨fun u => by simp [single], fun u hu tok htok => ?_, fun u tok htok => ?_⟩
  · rw [List.mem_singleton.1 htok]
    exact hu
  · rw [List.mem_singleton.1 htok]
    exact hkind

theorem flatMap_text_nonEmpty (ts : List Token) :
    (nonEmpty ts).flatMap Token.text = ts.flatMap Token.text := by
  induction ts with
  | nil => rfl
  | cons tok ts ih =>
    rw [nonEmpty, List.filter_cons]
    cases htext : tok.text with
    | nil => simpa [nonEmpty, htext] using ih
    | cons c u => simpa [nonEmpty, htext] using ih

/-- The four pieces of a label make up the label. -/
theorem cuts_label : (⟨.label, cutLabel, .root⟩ : Rule).Cuts := by
  refine ⟨fun u => ?_, fun u _ tok htok => ?_, fun u tok htok => ?_⟩
  · simp only [cutLabel, flatMap_text_nonEmpty, List.flatMap_cons, List.flatMap_nil,
      List.append_nil, List.takeWhile_append_dropWhile, List.take_append_drop]
  · simpa using (List.mem_filter.1 htok).2
  · have hmem := (List.mem_filter.1 htok).1
    simp only [List.mem_cons, List.not_mem_nil, or_false] at hmem
    rcases hmem with rfl | rfl | rfl | rfl <;> simp

end Rule

namespace LexMode

theorem cuts_of_mem_rules {mode : LexMode} {r : Rule} (h : r ∈ mode.rules) : r.Cuts := by
  revert r
  cases mode with
  | root =>
    simp only [rules, Rule.root, List.forall_mem_cons]
    refine ⟨Rule.cuts_label, ?_⟩
    repeat refine ⟨Rule.cuts_single _ _ (by simp), ?_⟩
    simp
  | comment d =>
    simp only [rules, Rule.comment, List.forall_mem_cons]
    repeat refine ⟨Rule.cuts_single _ _ (by simp), ?_⟩
    simp
  | string q =>
    simp only [rules, Rule.string, List.forall_mem_cons]
    repeat refine ⟨Rule.cuts_single _ _ (by simp), ?_⟩
    simp

open Pattern in
theorem bounded_of_mem_rules {mode : LexMode} {r : Rule} (h : r ∈ mode.rules) :
    r.pattern.Bounded := by
  revert r
  cases mode with
  | root =>
    simp only [rules, Rule.root, List.forall_mem_cons]
    exact ⟨bounded_label, bounded_one _, bounded_run _,
      bounded_restOfLine (by simp [Vocabulary.lineMark]), bounded_oneOf rfl, bounded_one _,
      bounded_one _, bounded_one _,
      bounded_wordOf (by decide +kernel), bounded_wordOf (by decide +kernel),
      bounded_wordOf (by decide +kernel), bounded_typeName (by decide +kernel), bounded_marked _,
      bounded_markedDigits _ _, bounded_zeroDigits _ _ _, bounded_markedDigits _ _,
      bounded_zeroDigits _ _ _, bounded_decimalFraction, bounded_run _, bounded_identifier,
      bounded_oneOf (by decide), bounded_one _, bounded_one _, bounded_one _, by simp⟩
  | comment d =>
    simp only [rules, Rule.comment, List.forall_mem_cons]
    exact ⟨bounded_run _, bounded_oneOf rfl, bounded_oneOf rfl, bounded_one _, by simp⟩
  | string q =>
    simp only [rules, Rule.string, List.forall_mem_cons]
    exact ⟨bounded_escaped, bounded_one _, bounded_one _, bounded_run _, by simp⟩

end LexMode

namespace Lexer

/-! ## Moves of the lexer -/

theorem bounds_of_firstRule? {mode : LexMode} {before : Option Char} {t : Text} {r : Rule} {n : Nat}
    (h : firstRule? mode.rules before t = some (r, n)) : 0 < n ∧ n ≤ t.length := by
  obtain ⟨hmem, hpattern⟩ := of_firstRule? h
  exact LexMode.bounded_of_mem_rules hmem before t n hpattern

theorem cuts_of_firstRule? {mode : LexMode} {before : Option Char} {t : Text} {r : Rule} {n : Nat}
    (h : firstRule? mode.rules before t = some (r, n)) : r.Cuts :=
  LexMode.cuts_of_mem_rules (of_firstRule? h).1

theorem tokensFrom_nil (mode : LexMode) (before : Option Char) :
    tokensFrom mode before [] = [] := by
  rw [tokensFrom]

/-- A rule that applies cuts off what it takes, and the lexer goes on behind it. -/
theorem tokensFrom_of_rule {mode : LexMode} {before : Option Char} {t : Text} {r : Rule} {n : Nat}
    (h : firstRule? mode.rules before t = some (r, n)) :
    tokensFrom mode before t =
      r.cut (t.take n) ++ tokensFrom r.next (t.take n).getLast? (t.drop n) := by
  obtain ⟨hpos, hle⟩ := bounds_of_firstRule? h
  cases t with
  | nil => exact absurd hpos (Nat.not_lt_of_le hle)
  | cons c t =>
    obtain ⟨n, rfl⟩ := Nat.exists_eq_add_one_of_ne_zero (Nat.ne_of_gt hpos)
    rw [tokensFrom, h]
    rfl

/-- A character that no rule takes is an error of its own. -/
theorem tokensFrom_of_none {mode : LexMode} {before : Option Char} {c : Char} {t : Text}
    (h : firstRule? mode.rules before (c :: t) = none) :
    tokensFrom mode before (c :: t) = ⟨.error, [c]⟩ :: tokensFrom mode (some c) t := by
  rw [tokensFrom, h]

/-- Induction over the moves of the lexer: a rule that takes something, or an error. -/
@[elab_as_elim]
theorem induction {P : LexMode → Option Char → Text → Prop}
    (nil : ∀ mode before, P mode before [])
    (rule : ∀ mode before t r n, firstRule? mode.rules before t = some (r, n) →
      P r.next (t.take n).getLast? (t.drop n) → P mode before t)
    (error : ∀ mode before c t, firstRule? mode.rules before (c :: t) = none →
      P mode (some c) t → P mode before (c :: t))
    (mode : LexMode) (before : Option Char) (t : Text) : P mode before t := by
  induction hlen : t.length using Nat.strongRecOn generalizing mode before t with
  | ind len ih =>
    cases t with
    | nil => exact nil mode before
    | cons c t =>
      cases hrule : firstRule? mode.rules before (c :: t) with
      | none => exact error mode before c t hrule (ih t.length (by simp [← hlen]) mode _ t rfl)
      | some result =>
        obtain ⟨r, n⟩ := result
        obtain ⟨hpos, hle⟩ := bounds_of_firstRule? hrule
        have hshort : ((c :: t).drop n).length < len := by
          rw [List.length_drop, hlen]
          omega
        exact rule mode before (c :: t) r n hrule (ih _ hshort r.next _ _ rfl)

/-- The tokens of a text, put together, are the text. -/
theorem flatMap_text_tokensFrom (mode : LexMode) (before : Option Char) (t : Text) :
    (tokensFrom mode before t).flatMap Token.text = t := by
  induction mode, before, t using Lexer.induction with
  | nil mode before => rw [tokensFrom_nil, List.flatMap_nil]
  | rule mode before t r n hrule ih =>
    rw [tokensFrom_of_rule hrule, List.flatMap_append, (cuts_of_firstRule? hrule).flatMap_text, ih,
      List.take_append_drop]
  | error mode before c t hnone ih => rw [tokensFrom_of_none hnone, List.flatMap_cons, ih]; rfl

/-- No token of a text is empty. -/
theorem text_ne_nil_of_mem_tokensFrom (mode : LexMode) (before : Option Char) (t : Text) :
    ∀ tok ∈ tokensFrom mode before t, tok.text ≠ [] := by
  induction mode, before, t using Lexer.induction with
  | nil mode before =>
    rw [tokensFrom_nil]
    exact fun tok h => absurd h List.not_mem_nil
  | rule mode before t r n hrule ih =>
    obtain ⟨hpos, hle⟩ := bounds_of_firstRule? hrule
    have htaken : t.take n ≠ [] := by
      rw [← List.length_pos_iff, List.length_take_of_le hle]
      exact hpos
    rw [tokensFrom_of_rule hrule]
    intro tok htok
    rcases List.mem_append.1 htok with hcut | hlater
    · exact (cuts_of_firstRule? hrule).text_ne_nil _ htaken tok hcut
    · exact ih tok hlater
  | error mode before c t hnone ih =>
    rw [tokensFrom_of_none hnone]
    intro tok htok
    rcases List.mem_cons.1 htok with rfl | hlater
    · simp
    · exact ih tok hlater

/-! ## Where no rule applies -/

theorem pattern_eq_none_of_firstRule? {rules : List Rule} {before : Option Char} {t : Text}
    (h : firstRule? rules before t = none) {r : Rule} (hr : r ∈ rules) :
    r.pattern before t = none :=
  Option.map_eq_none_iff.1 (List.findSome?_eq_none_iff.1 h r hr)

/-- Inside a comment there is always a rule that applies. -/
theorem firstRule?_comment_ne_none (d : Nat) (before : Option Char) (c : Char) (t : Text) :
    firstRule? (LexMode.comment d).rules before (c :: t) ≠ none := by
  intro hnone
  have hrun := pattern_eq_none_of_firstRule? hnone (List.mem_of_getElem? (i := 0) rfl)
  have hhalf := pattern_eq_none_of_firstRule? hnone (List.mem_of_getElem? (i := 3) rfl)
  have hmark : c = '*' ∨ c = '/' := by
    simpa [Decidable.or_iff_not_imp_left] using Pattern.eq_false_of_run_eq_none before hrun
  rcases hmark with rfl | rfl <;> simp [Rule.single, Pattern.one] at hhalf

/-- Inside a string the only character that no rule takes is a backslash at the end of a line. -/
theorem firstRule?_string_eq_none_iff {q : Quote} {before : Option Char} {c : Char} {t : Text} :
    firstRule? (LexMode.string q).rules before (c :: t) = none ↔
      c = '\\' ∧ ∀ x, t.head? = some x → x = '\n' := by
  constructor
  · intro hnone
    have hescaped := pattern_eq_none_of_firstRule? hnone (List.mem_of_getElem? (i := 0) rfl)
    have hquote := pattern_eq_none_of_firstRule? hnone (List.mem_of_getElem? (i := 1) rfl)
    have hnewline := pattern_eq_none_of_firstRule? hnone (List.mem_of_getElem? (i := 2) rfl)
    have hrun := pattern_eq_none_of_firstRule? hnone (List.mem_of_getElem? (i := 3) rfl)
    have hq : c ≠ q.char := by simpa [Rule.single, Pattern.one] using hquote
    have hn : c ≠ '\n' := by simpa [Rule.single, Pattern.one] using hnewline
    obtain rfl : c = '\\' := by
      simpa [Vocabulary.escape, hq, hn] using Pattern.eq_false_of_run_eq_none before hrun
    refine ⟨rfl, fun x hx => ?_⟩
    obtain ⟨u, rfl⟩ := List.head?_eq_some_iff.1 hx
    by_contra hne
    simp [Rule.single, Pattern.escaped, hne] at hescaped
  · rintro ⟨rfl, hend⟩
    exact firstRule?_string_none hend before q

theorem firstRule?_eq_none_iff {mode : LexMode} {before : Option Char} {c : Char} {t : Text} :
    firstRule? mode.rules before (c :: t) = none ↔
      (∃ q, mode = .string q) ∧ c = '\\' ∧ ∀ x, t.head? = some x → x = '\n' := by
  cases mode with
  | root => simp [firstRule?_root_ne_none]
  | comment d => simp [firstRule?_comment_ne_none]
  | string q => simp [firstRule?_string_eq_none_iff]

end Lexer

namespace Token

/-! ## Positions of tokens -/

theorem positionsFrom_append (p : Nat) (ts us : List Token) :
    positionsFrom p (ts ++ us) =
      positionsFrom p ts ++ positionsFrom (p + (ts.flatMap Token.text).length) us := by
  induction ts generalizing p with
  | nil => rfl
  | cons tok ts ih =>
    have hlength : p + ((tok :: ts).flatMap Token.text).length =
        p + tok.text.length + (ts.flatMap Token.text).length := by
      rw [List.flatMap_cons, List.length_append, Nat.add_assoc]
    rw [List.cons_append, positionsFrom, positionsFrom, ih, hlength]
    rfl

theorem map_snd_positionsFrom (p : Nat) (ts : List Token) :
    (positionsFrom p ts).map Prod.snd = ts := by
  induction ts generalizing p with
  | nil => rfl
  | cons tok ts ih => rw [positionsFrom, List.map_cons, ih]

theorem head?_positionsFrom (p : Nat) (ts : List Token) :
    (positionsFrom p ts).head? = ts.head?.map fun tok => (p, tok) := by
  cases ts <;> rfl

/-- Each token starts where the one before it ends. -/
theorem isChain_positionsFrom (p : Nat) (ts : List Token) :
    (positionsFrom p ts).IsChain fun e e' => e'.1 = e.1 + e.2.text.length := by
  induction ts generalizing p with
  | nil => exact .nil
  | cons tok ts ih =>
    rw [positionsFrom, List.isChain_cons]
    refine ⟨fun e he => ?_, ih _⟩
    rw [head?_positionsFrom] at he
    obtain ⟨next, -, rfl⟩ := Option.map_eq_some_iff.1 he
    rfl

section Positions

variable {ts : List Token} (h : ∀ tok ∈ ts, tok.text ≠ [])

include h

theorem lt_of_mem_positionsFrom {p : Nat} {e : Nat × Token} (he : e ∈ positionsFrom p ts) :
    e.1 < p + (ts.flatMap Token.text).length := by
  induction ts generalizing p with
  | nil => cases he
  | cons tok ts ih =>
    have hpos := List.length_pos_iff.2 (h tok List.mem_cons_self)
    rw [List.flatMap_cons, List.length_append]
    rcases List.mem_cons.1 he with rfl | hlater
    · simp only
      omega
    · have hlt := ih (fun x hx => h x (List.mem_cons_of_mem tok hx)) hlater
      omega

/-- Where tokens start there is the first of them and no other. -/
theorem mem_positionsFrom_self {p : Nat} {tok : Token} :
    (p, tok) ∈ positionsFrom p ts ↔ ts.head? = some tok := by
  cases ts with
  | nil => simp [positionsFrom]
  | cons first ts =>
    have hpos := List.length_pos_iff.2 (h first List.mem_cons_self)
    rw [positionsFrom, List.mem_cons, List.head?_cons, Option.some.injEq, Prod.mk.injEq]
    constructor
    · rintro (⟨-, rfl⟩ | hlater)
      · rfl
      · have hle := le_of_mem_positionsFrom hlater
        simp only at hle
        omega
    · exact fun heq => .inl ⟨rfl, heq.symm⟩

end Positions

end Token

namespace Lexer

/-! ## Where the lexer stands -/

/-- The lexer comes to stand at a position of a text in a mode: at the start, behind what a rule has
taken, and behind an error. -/
inductive Reaches (t : Text) : LexMode → Nat → Prop
  | start : Reaches t .root 0
  | rule {mode : LexMode} {p n : Nat} {r : Rule} (h : Reaches t mode p)
      (hrule : firstRule? mode.rules (t.take p).getLast? (t.drop p) = some (r, n)) :
      Reaches t r.next (p + n)
  | error {mode : LexMode} {p : Nat} (h : Reaches t mode p) (hp : p < t.length)
      (hnone : firstRule? mode.rules (t.take p).getLast? (t.drop p) = none) :
      Reaches t mode (p + 1)

/-- The character before the next position is the last one taken. -/
theorem getLast?_take_add {t : Text} {p n : Nat} (hpos : 0 < n) (hle : n ≤ (t.drop p).length) :
    (t.take (p + n)).getLast? = ((t.drop p).take n).getLast? := by
  rw [List.take_add]
  apply List.getLast?_append_of_ne_nil
  rw [← List.length_pos_iff, List.length_take_of_le hle]
  exact hpos

/-- Where the lexer stands, the tokens of the text divide into those of the text before and those
that it finds from there on. -/
theorem Reaches.split {t : Text} {mode : LexMode} {p : Nat} (h : Reaches t mode p) :
    p ≤ t.length ∧ ∃ ts, ts.flatMap Token.text = t.take p ∧
      Token.ofText t = ts ++ tokensFrom mode (t.take p).getLast? (t.drop p) := by
  induction h with
  | start => exact ⟨Nat.zero_le _, [], rfl, rfl⟩
  | @rule mode p n r h hrule ih =>
    obtain ⟨hp, ts, htext, htokens⟩ := ih
    obtain ⟨hpos, hle⟩ := bounds_of_firstRule? hrule
    have hend : p + n ≤ t.length := by
      rw [List.length_drop] at hle
      omega
    refine ⟨hend, ts ++ r.cut ((t.drop p).take n), ?_, ?_⟩
    · rw [List.flatMap_append, htext, (cuts_of_firstRule? hrule).flatMap_text, List.take_add]
    · rw [htokens, tokensFrom_of_rule hrule, getLast?_take_add hpos hle, List.drop_drop,
        List.append_assoc]
  | @error mode p h hp hnone ih =>
    obtain ⟨-, ts, htext, htokens⟩ := ih
    have hcons := List.drop_eq_getElem_cons hp
    refine ⟨hp, ts ++ [⟨.error, [t[p]]⟩], ?_, ?_⟩
    · rw [List.flatMap_append, htext, ← List.take_append_getElem hp]
      rfl
    · have hlast : (t.take (p + 1)).getLast? = some t[p] := by
        rw [← List.take_append_getElem hp, List.getLast?_concat]
      rw [hcons] at hnone
      rw [htokens, hcons, tokensFrom_of_none hnone, hlast, List.append_assoc]
      rfl

/-- The first token is an error exactly if no rule applies. -/
theorem head?_tokensFrom_eq_error_iff {mode : LexMode} {before : Option Char} {c : Char}
    {t w : Text} :
    (tokensFrom mode before (c :: t)).head? = some ⟨.error, w⟩ ↔
      firstRule? mode.rules before (c :: t) = none ∧ w = [c] := by
  cases hrule : firstRule? mode.rules before (c :: t) with
  | none =>
    rw [tokensFrom_of_none hrule, List.head?_cons, Option.some.injEq, Token.mk.injEq]
    exact ⟨fun heq => ⟨rfl, heq.2.symm⟩, fun heq => ⟨rfl, heq.2.symm⟩⟩
  | some result =>
    obtain ⟨r, n⟩ := result
    obtain ⟨hpos, -⟩ := bounds_of_firstRule? hrule
    have hcuts := cuts_of_firstRule? hrule
    -- What the rule takes is not empty, so the first token comes from the rule.
    cases hcut : r.cut ((c :: t).take n) with
    | nil =>
      have htaken := hcuts.flatMap_text ((c :: t).take n)
      rw [hcut, List.flatMap_nil, eq_comm, List.take_eq_nil_iff] at htaken
      simp [Nat.ne_of_gt hpos] at htaken
    | cons tok ts =>
      have hkind := hcuts.kind_ne_error _ tok (hcut ▸ List.mem_cons_self)
      rw [tokensFrom_of_rule hrule, hcut, List.cons_append, List.head?_cons, Option.some.injEq]
      refine ⟨fun heq => absurd (congrArg Token.kind heq) hkind, fun h => ?_⟩
      cases h.1

/-- Where the lexer stands, the first token that it finds is the one that starts there. -/
theorem Reaches.mem_placedOfText_iff {t : Text} {mode : LexMode} {p : Nat} (h : Reaches t mode p)
    {tok : Token} :
    (p, tok) ∈ Token.placedOfText t ↔
      (tokensFrom mode (t.take p).getLast? (t.drop p)).head? = some tok := by
  obtain ⟨hp, ts, htext, htokens⟩ := h.split
  have hne : ∀ tok ∈ Token.ofText t, tok.text ≠ [] := text_ne_nil_of_mem_tokensFrom .root none t
  rw [htokens] at hne
  have hbefore : (p, tok) ∉ Token.positionsFrom 0 ts := by
    intro hmem
    have hlt := Token.lt_of_mem_positionsFrom
      (fun tok htok => hne tok (List.mem_append_left _ htok)) hmem
    rw [htext, List.length_take_of_le hp, Nat.zero_add] at hlt
    exact Nat.lt_irrefl p hlt
  rw [Token.placedOfText, htokens, Token.positionsFrom_append, htext, List.length_take_of_le hp,
    Nat.zero_add, List.mem_append, or_iff_right hbefore,
    Token.mem_positionsFrom_self fun tok htok => hne tok (List.mem_append_right _ htok)]

/-- Where the lexer stands, an error starts exactly if no rule applies. -/
theorem Reaches.error_mem_iff {t : Text} {mode : LexMode} {p : Nat} (h : Reaches t mode p)
    {w : Text} :
    (p, ⟨.error, w⟩) ∈ Token.placedOfText t ↔
      ∃ c u, t.drop p = c :: u ∧ firstRule? mode.rules (t.take p).getLast? (c :: u) = none ∧
        w = [c] := by
  rw [h.mem_placedOfText_iff]
  cases hdrop : t.drop p with
  | nil => simp [tokensFrom_nil]
  | cons c u =>
    rw [head?_tokensFrom_eq_error_iff]
    constructor
    · exact fun ⟨hnone, hw⟩ => ⟨c, u, rfl, hnone, hw⟩
    · rintro ⟨c', u', heq, hnone, hw⟩
      cases heq
      exact ⟨hnone, hw⟩

/-- Errors start only where the lexer stands. -/
theorem exists_reaches_of_error {t rest : Text} {mode : LexMode} {before : Option Char} {p : Nat}
    (h : Reaches t mode p) (hbefore : before = (t.take p).getLast?) (hrest : rest = t.drop p)
    {e : Nat × Token} (he : e ∈ Token.positionsFrom p (tokensFrom mode before rest))
    (hkind : e.2.kind = .error) : ∃ mode', Reaches t mode' e.1 := by
  induction mode, before, rest using Lexer.induction generalizing p with
  | nil mode before =>
    rw [tokensFrom_nil] at he
    cases he
  | rule mode before rest r n hrule ih =>
    subst hbefore hrest
    obtain ⟨hpos, hle⟩ := bounds_of_firstRule? hrule
    have hcuts := cuts_of_firstRule? hrule
    rw [tokensFrom_of_rule hrule, Token.positionsFrom_append, hcuts.flatMap_text,
      List.length_take_of_le hle] at he
    rcases List.mem_append.1 he with hcut | hlater
    · have hmem : e.2 ∈ r.cut ((t.drop p).take n) := by
        rw [← Token.map_snd_positionsFrom p (r.cut _)]
        exact List.mem_map_of_mem hcut
      exact absurd hkind (hcuts.kind_ne_error _ e.2 hmem)
    · exact ih (h.rule hrule) (getLast?_take_add hpos hle).symm List.drop_drop hlater
  | error mode before c rest hnone ih =>
    have hp : p < t.length := by
      have hlength := congrArg List.length hrest
      simp only [List.length_cons, List.length_drop] at hlength
      omega
    obtain ⟨rfl, rfl⟩ := List.cons.inj (hrest.trans (List.drop_eq_getElem_cons hp))
    rw [tokensFrom_of_none hnone] at he
    rcases List.mem_cons.1 he with rfl | hlater
    · exact ⟨mode, h⟩
    · rw [hrest, hbefore] at hnone
      refine ih (h.error hp hnone) ?_ rfl hlater
      rw [← List.take_append_getElem hp, List.getLast?_concat]

end Lexer

private theorem getElem?_of_drop_eq_cons {t u : Text} {c : Char} {p : Nat} (h : t.drop p = c :: u) :
    t[p]? = some c ∧ t[p + 1]? = u.head? := by
  rw [← List.head?_drop, ← List.head?_drop, ← List.drop_drop, h]
  exact ⟨rfl, rfl⟩

/-- Where the lexer stands, an error starts exactly if it stands inside a string, at a backslash
behind which the line or the text ends. -/
theorem Lexer.Reaches.error_mem_iff_string {t : Text} {mode : LexMode} {p : Nat}
    (h : Lexer.Reaches t mode p) {w : Text} :
    (p, ⟨.error, w⟩) ∈ Token.placedOfText t ↔ (∃ q, mode = .string q) ∧ w = ['\\'] ∧
      t[p]? = some '\\' ∧ (t[p + 1]? = none ∨ t[p + 1]? = some '\n') := by
  rw [h.error_mem_iff]
  constructor
  · rintro ⟨c, u, hdrop, hnone, rfl⟩
    obtain ⟨hstring, rfl, hend⟩ := Lexer.firstRule?_eq_none_iff.1 hnone
    obtain ⟨hhere, hnext⟩ := getElem?_of_drop_eq_cons hdrop
    refine ⟨hstring, rfl, hhere, ?_⟩
    rw [hnext]
    cases hhead : u.head? with
    | none => exact .inl rfl
    | some x => exact .inr (congrArg some (hend x hhead))
  · rintro ⟨hstring, rfl, hhere, hend⟩
    obtain ⟨u, hdrop⟩ := List.head?_eq_some_iff.1 ((List.head?_drop).trans hhere)
    refine ⟨'\\', u, hdrop, Lexer.firstRule?_eq_none_iff.2 ⟨hstring, rfl, fun x hx => ?_⟩, rfl⟩
    rw [(getElem?_of_drop_eq_cons hdrop).2, hx] at hend
    simpa using hend

/-- Tokens tile the text: none is empty, the first starts at position 0, each other one where the
one before it ends, and together they are the text. Errors are single backslashes: there is one at
each backslash at which the lexer stands inside a string and behind which the line or the text ends,
and nowhere else. In particular there are none where it stands outside strings. -/
theorem tokens_tile_text (t : Text) :
    (∀ e ∈ Token.placedOfText t, e.2.text ≠ []) ∧
    (∀ e ∈ (Token.placedOfText t).head?, e.1 = 0) ∧
    ((Token.placedOfText t).IsChain fun e e' => e'.1 = e.1 + e.2.text.length) ∧
    ((Token.placedOfText t).flatMap fun e => e.2.text) = t ∧
    (∀ (p : Nat) (w : Text), (p, ⟨.error, w⟩) ∈ Token.placedOfText t ↔
      w = ['\\'] ∧ t[p]? = some '\\' ∧ (t[p + 1]? = none ∨ t[p + 1]? = some '\n') ∧
        ∃ q, Lexer.Reaches t (.string q) p) ∧
    ∀ (mode : LexMode) (p : Nat) (w : Text), Lexer.Reaches t mode p →
      (mode = .root ∨ ∃ d, mode = .comment d) → (p, ⟨.error, w⟩) ∉ Token.placedOfText t := by
  have htext : (Token.ofText t).flatMap Token.text = t := Lexer.flatMap_text_tokensFrom .root none t
  refine ⟨fun e he => ?_, fun e he => ?_, Token.isChain_positionsFrom 0 _, ?_, fun p w => ?_, ?_⟩
  · apply Lexer.text_ne_nil_of_mem_tokensFrom .root none t
    rw [← Token.map_snd_positionsFrom 0 (Lexer.tokensFrom .root none t)]
    exact List.mem_map_of_mem he
  · rw [Token.placedOfText, Token.head?_positionsFrom] at he
    obtain ⟨tok, -, rfl⟩ := Option.map_eq_some_iff.1 he
    rfl
  · rw [← Token.map_snd_positionsFrom 0 (Token.ofText t), List.flatMap_map] at htext
    exact htext
  · constructor
    · intro hmem
      obtain ⟨mode, hreaches⟩ := Lexer.exists_reaches_of_error .start rfl rfl hmem rfl
      obtain ⟨⟨q, rfl⟩, hw, hhere, hend⟩ := hreaches.error_mem_iff_string.1 hmem
      exact ⟨hw, hhere, hend, q, hreaches⟩
    · rintro ⟨hw, hhere, hend, q, hreaches⟩
      exact hreaches.error_mem_iff_string.2 ⟨⟨q, rfl⟩, hw, hhere, hend⟩
  · rintro mode p w hreaches hmode hmem
    obtain ⟨⟨q, rfl⟩, -⟩ := hreaches.error_mem_iff_string.1 hmem
    rcases hmode with hroot | ⟨d, hcomment⟩
    · cases hroot
    · cases hcomment

/-- A line of code that is a backslash, then a string with an escaped backslash and another one at
the end of its line. -/
private def stray : Text := "\\\n\"a\\\\\\\n".toList

/-- Of the backslashes of `stray` only the last one is an error. -/
theorem error_mem_placedOfText_stray :
    Lexer.Reaches stray (.string .double) 6 ∧ (6, ⟨.error, ['\\']⟩) ∈ Token.placedOfText stray ∧
      (0, ⟨.error, ['\\']⟩) ∉ Token.placedOfText stray ∧
      (4, ⟨.error, ['\\']⟩) ∉ Token.placedOfText stray := by
  have hcode : Lexer.Reaches stray .root 2 :=
    .rule (r := .single (.one (· == '\n')) .whitespace .root) (n := 1)
      (.rule (r := .single (.one (· != '\n')) .plain .root) (n := 1) .start rfl) rfl
  have hquote : Lexer.Reaches stray (.string .double) 3 :=
    .rule (r := .single (.one (· == Quote.double.char)) (.string .double) (.string .double))
      (n := 1) hcode rfl
  have hplain : Lexer.Reaches stray (.string .double) 4 :=
    .rule (n := 1) (r := .single
      (.run fun c => c != Quote.double.char && c != Vocabulary.escape && c != '\n')
      (.string .double) (.string .double)) hquote rfl
  have hescape : Lexer.Reaches stray (.string .double) 6 :=
    .rule (r := .single .escaped .escape (.string .double)) (n := 2) hplain rfl
  obtain ⟨-, -, -, -, herrors, hnone⟩ := tokens_tile_text stray
  refine ⟨hescape, (herrors 6 _).2 ⟨rfl, rfl, .inr rfl, .double, hescape⟩,
    hnone .root 0 _ .start (.inl rfl), fun hmem => ?_⟩
  obtain ⟨-, -, hend, -⟩ := (herrors 4 _).1 hmem
  revert hend
  decide

end FabEdit
