import FabEdit.Token.Category
import FabEdit.Proofs.LexerRestart
import Mathlib.Data.Prod.Basic

/-!
# Coloured runs are maximal

A source is coloured in runs: neighbouring characters of one category stand in one run. Nothing but
the categories of the characters decides where runs begin and end, although they are put together
from tokens, of which a category may have several in a row.

Shape of the argument:

* `Category.Merged` says that runs are neither empty nor next to a run of their own category.
  Putting a piece of text in front keeps that (`merged_prepend`), so it holds for the runs of any
  tokens (`merged_runsOf`).
* `Category.shades` gives back each character with its category. For the runs of some tokens they
  are those of the tokens (`shades_runsOf`), and merged runs are determined by them
  (`Merged.eq_of_shades_eq`): the first run ends where the category changes.
* `Preparation.normalized` says what happens to a source before it is cut into tokens, one change
  after the other (`Preparation.apply_keepingLines`).
-/

namespace FabEdit

namespace Category

/-! ## Runs and their characters -/

/-- Runs that are not empty, with a change of category between any two neighbours. -/
structure Merged (rs : List (Category × Text)) : Prop where
  text_ne_nil : ∀ r ∈ rs, r.2 ≠ []
  category_ne : rs.IsChain fun r s => r.1 ≠ s.1

/-- The category of each character of some runs. -/
def colours (rs : List (Category × Text)) : List Category :=
  rs.flatMap fun r => List.replicate r.2.length r.1

/-- Each character of some runs with its category. -/
def shades (rs : List (Category × Text)) : List (Category × Char) :=
  rs.flatMap fun r => r.2.map (Prod.mk r.1)

theorem shades_cons (c : Category) (t : Text) (rs : List (Category × Text)) :
    shades ((c, t) :: rs) = t.map (Prod.mk c) ++ shades rs :=
  List.flatMap_cons

theorem map_fst_shades (rs : List (Category × Text)) : (shades rs).map Prod.fst = colours rs := by
  rw [shades, List.map_flatMap, colours]
  congr 1
  funext r
  rw [List.map_map]
  exact List.map_const'

theorem map_snd_shades (rs : List (Category × Text)) :
    (shades rs).map Prod.snd = rs.flatMap Prod.snd := by
  rw [shades, List.map_flatMap]
  congr 1
  funext r
  rw [List.map_map]
  exact List.map_id r.2

theorem length_colours (rs : List (Category × Text)) :
    (colours rs).length = (rs.flatMap Prod.snd).length := by
  rw [← map_fst_shades, ← map_snd_shades, List.length_map, List.length_map]

theorem shades_eq_zip (rs : List (Category × Text)) :
    shades rs = (colours rs).zip (rs.flatMap Prod.snd) :=
  List.zip_of_prod (map_fst_shades rs) (map_snd_shades rs)

/-! ## Putting text in front -/

theorem shades_prepend (c : Category) (t : Text) (rs : List (Category × Text)) :
    shades (prepend c t rs) = t.map (Prod.mk c) ++ shades rs := by
  cases rs with
  | nil => exact shades_cons c t []
  | cons r rs =>
    obtain ⟨d, u⟩ := r
    rw [prepend]
    split
    next hcd =>
      subst hcd
      rw [shades_cons, shades_cons, List.map_append, List.append_assoc]
    next => exact shades_cons c t _

theorem merged_prepend {rs : List (Category × Text)} (h : Merged rs) (c : Category) {t : Text}
    (ht : t ≠ []) : Merged (prepend c t rs) := by
  cases rs with
  | nil => exact ⟨by simpa [prepend] using ht, .singleton _⟩
  | cons r rs =>
    obtain ⟨d, u⟩ := r
    have hlater : ∀ r ∈ rs, r.2 ≠ [] := fun r hr => h.text_ne_nil r (List.mem_cons_of_mem _ hr)
    obtain ⟨hhead, hrest⟩ := List.isChain_cons.1 h.category_ne
    rw [prepend]
    split
    next hcd =>
      subst hcd
      exact ⟨List.forall_mem_cons.2 ⟨by simp [ht], hlater⟩, List.isChain_cons.2 ⟨hhead, hrest⟩⟩
    next hcd =>
      refine ⟨List.forall_mem_cons.2 ⟨ht, h.text_ne_nil⟩, List.isChain_cons.2 ⟨?_, h.category_ne⟩⟩
      simpa using hcd

theorem merged_runsOf (ts : List Token) : Merged (runsOf ts) := by
  induction ts with
  | nil => exact ⟨fun r hr => absurd hr List.not_mem_nil, .nil⟩
  | cons tok ts ih =>
    rw [runsOf, List.foldr_cons, ← runsOf]
    split
    · exact ih
    next hne => exact merged_prepend ih _ (by simpa using hne)

/-- A token as a run of its own. -/
def runOf (tok : Token) : Category × Text := (ofKind tok.kind, tok.text)

/-- Merging the runs of tokens changes no character and no category. -/
theorem shades_runsOf (ts : List Token) : shades (runsOf ts) = shades (ts.map runOf) := by
  induction ts with
  | nil => rfl
  | cons tok ts ih =>
    have hfirst : shades ((tok :: ts).map runOf) =
        tok.text.map (Prod.mk (ofKind tok.kind)) ++ shades (ts.map runOf) := shades_cons _ _ _
    rw [runsOf, List.foldr_cons, ← runsOf, hfirst, ← ih]
    split
    next hnil =>
      rw [List.isEmpty_iff.1 hnil]
      rfl
    next => exact shades_prepend _ _ _

theorem colours_runsOf (ts : List Token) :
    colours (runsOf ts) =
      ts.flatMap fun tok => List.replicate tok.text.length (ofKind tok.kind) := by
  rw [← map_fst_shades, shades_runsOf, map_fst_shades, colours, List.flatMap_map]
  rfl

theorem flatMap_text_runsOf (ts : List Token) :
    (runsOf ts).flatMap Prod.snd = ts.flatMap Token.text := by
  rw [← map_snd_shades, shades_runsOf, map_snd_shades, List.flatMap_map]
  rfl

/-! ## Runs are determined by their characters -/

theorem exists_shades_eq_cons {t : Text} (ht : t ≠ []) (c : Category)
    (rs : List (Category × Text)) : ∃ ch xs, shades ((c, t) :: rs) = (c, ch) :: xs := by
  obtain ⟨ch, u, rfl⟩ := List.exists_cons_of_ne_nil ht
  exact ⟨ch, u.map (Prod.mk c) ++ shades rs, shades_cons c _ rs⟩

/-- Behind a run the category changes. -/
theorem Merged.head?_shades {c : Category} {t : Text} {rs : List (Category × Text)}
    (h : Merged ((c, t) :: rs)) : ∀ x ∈ (shades rs).head?, decide (x.1 = c) = false := by
  cases rs with
  | nil => simp [shades]
  | cons r rs =>
    have hne : c ≠ r.1 := (List.isChain_cons_cons.1 h.category_ne).1
    obtain ⟨ch, xs, hshades⟩ := exists_shades_eq_cons (h.text_ne_nil r (by simp)) r.1 rs
    rw [hshades]
    simpa using hne.symm

/-- The first of merged runs ends where the category changes. -/
theorem Merged.span_shades {c : Category} {t : Text} {rs : List (Category × Text)}
    (h : Merged ((c, t) :: rs)) :
    (shades ((c, t) :: rs)).takeWhile (·.1 = c) = t.map (Prod.mk c) ∧
      (shades ((c, t) :: rs)).dropWhile (·.1 = c) = shades rs := by
  have hrun : ∀ x ∈ t.map (Prod.mk c), decide (x.1 = c) = true := by simp
  have hstop := h.head?_shades
  rw [shades_cons, List.takeWhile_append_of_pos hrun, List.dropWhile_append_of_pos hrun]
  cases hrest : shades rs with
  | nil => simp
  | cons x xs =>
    have hx : decide (x.1 = c) = false := hstop x (by simp [hrest])
    simp [hx]

theorem Merged.tail {r : Category × Text} {rs : List (Category × Text)} (h : Merged (r :: rs)) :
    Merged rs :=
  ⟨fun s hs => h.text_ne_nil s (List.mem_cons_of_mem r hs), h.category_ne.tail⟩

/-- Merged runs are determined by their characters and the categories of these. -/
theorem Merged.eq_of_shades_eq {rs rs' : List (Category × Text)} (h : Merged rs) (h' : Merged rs')
    (heq : shades rs = shades rs') : rs = rs' := by
  induction rs generalizing rs' with
  | nil =>
    cases rs' with
    | nil => rfl
    | cons r' rs' =>
      obtain ⟨ch, xs, hxs⟩ := exists_shades_eq_cons (h'.text_ne_nil r' (by simp)) r'.1 rs'
      cases heq.trans hxs
  | cons r rs ih =>
    obtain ⟨c, t⟩ := r
    obtain ⟨ch, xs, hxs⟩ := exists_shades_eq_cons (h.text_ne_nil (c, t) (by simp)) c rs
    cases rs' with
    | nil => cases hxs.symm.trans heq
    | cons r' rs' =>
      obtain ⟨c', t'⟩ := r'
      obtain ⟨ch', xs', hxs'⟩ := exists_shades_eq_cons (h'.text_ne_nil (c', t') (by simp)) c' rs'
      obtain rfl : c = c' := by
        have hhead := hxs.symm.trans (heq.trans hxs')
        simp only [List.cons.injEq, Prod.mk.injEq] at hhead
        exact hhead.1.1
      obtain ⟨hfirst, hrest⟩ := h.span_shades
      obtain ⟨hfirst', hrest'⟩ := h'.span_shades
      rw [heq] at hfirst hrest
      have htext : t.map (Prod.mk c) = t'.map (Prod.mk c) := hfirst.symm.trans hfirst'
      rw [ih h.tail h'.tail (hrest.symm.trans hrest'),
        List.map_injective_iff.2 (Prod.mk_right_injective c) htext]

end Category

/-! ## Sources before they are coloured -/

namespace Preparation

/-- A text with a newline in the place of each carriage return that has one behind it. -/
def joinPairs : Text → Text
  | [] => []
  | '\r' :: '\n' :: t => '\n' :: joinPairs t
  | c :: t => c :: joinPairs t

/-- A source as it is coloured: without the byte order mark that it may start with, with newlines in
the place of pairs of a carriage return and a newline and then of single carriage returns, and with
a newline at its end. -/
def normalized (code : Text) : Text :=
  let bare := if code.head? = some '\ufeff' then code.tail else code
  let uniform := (joinPairs bare).map fun c => if c = '\r' then '\n' else c
  if uniform.getLast? = some '\n' then uniform else uniform ++ ['\n']

theorem uniformNewlines_eq_map_joinPairs (t : Text) :
    uniformNewlines t = (joinPairs t).map fun c => if c = '\r' then '\n' else c := by
  induction t using joinPairs.induct with
  | case1 => rfl
  | case2 t ih => rw [uniformNewlines, joinPairs, ih]; rfl
  | case3 c t hpair ih =>
    rw [uniformNewlines, joinPairs, ih, List.map_cons]
    · exact hpair
    · exact hpair

theorem dropMark_eq (t : Text) :
    dropMark t = if t.head? = some '\ufeff' then t.tail else t := by
  cases t with
  | nil => rfl
  | cons c t => simp [dropMark]

/-- Nothing else happens to a source that keeps its blank lines. -/
theorem apply_keepingLines (code : Text) : keepingLines.apply code = normalized code := by
  have happly : keepingLines.apply code = endLine (uniformNewlines (dropMark code)) := rfl
  rw [happly, dropMark_eq, uniformNewlines_eq_map_joinPairs]
  rfl

end Preparation

/-! ## Colourings -/

namespace Category

/-- Runs colour a text: they are merged, they make up the text, and each character has the category
of the token that covers it. -/
structure Colours (t : Text) (rs : List (Category × Text)) : Prop extends Merged rs where
  flatMap_text : rs.flatMap Prod.snd = t
  getElem?_colours : ∀ e ∈ Token.placedOfText t, ∀ p, Token.CoversAt e p →
    (colours rs)[p]? = some (ofPath e.2.kind.path)

theorem existsUnique_token {t : Text} {p : Nat} (hp : p < t.length) :
    ∃! e, e ∈ Token.placedOfText t ∧ Token.CoversAt e p := by
  have hlength : p < (Token.marks (Token.ofText t)).length := by
    rwa [Token.length_marks, Token.ofText, Lexer.flatMap_text_tokensFrom]
  have hone := Token.existsUnique_coversAt (q := 0) hlength
  rwa [Nat.zero_add] at hone

theorem colours_runsOf_ofText (t : Text) : Colours t (runsOf (Token.ofText t)) where
  toMerged := merged_runsOf _
  flatMap_text := by rw [flatMap_text_runsOf, Token.ofText, Lexer.flatMap_text_tokensFrom]
  getElem?_colours e he p hcovers := by
    rw [colours_runsOf]
    exact Token.getElem?_flatMap_of_coversAt ofKind he ((Nat.zero_add p).symm ▸ hcovers)

/-- There is one way to colour a text. -/
theorem Colours.unique {t : Text} {rs rs' : List (Category × Text)} (h : Colours t rs)
    (h' : Colours t rs') : rs = rs' := by
  have htext : rs.flatMap Prod.snd = rs'.flatMap Prod.snd :=
    h.flatMap_text.trans h'.flatMap_text.symm
  have hcolours : colours rs = colours rs' := by
    refine List.ext_getElem? fun p => ?_
    rcases Nat.lt_or_ge p t.length with hp | hp
    · obtain ⟨e, ⟨he, hcovers⟩, -⟩ := existsUnique_token hp
      rw [h.getElem?_colours e he p hcovers, h'.getElem?_colours e he p hcovers]
    · rw [List.getElem?_eq_none (by rwa [length_colours, h.flatMap_text]),
        List.getElem?_eq_none (by rwa [length_colours, h'.flatMap_text])]
  apply h.toMerged.eq_of_shades_eq h'.toMerged
  rw [shades_eq_zip, shades_eq_zip, htext, hcolours]

end Category

/-- The coloured runs of a source are its maximal runs of one category. The source is normalized
first, and exactly one token covers each position of what that gives. The runs are not empty, no two
neighbours have the same category, together they are the normalized source, and each character has
the category of the token that covers it. No other list of runs is like that. -/
theorem runs_are_maximal_runs (code : Text) :
    let t := Preparation.normalized code
    (∀ p < t.length, ∃! e, e ∈ Token.placedOfText t ∧ Token.CoversAt e p) ∧
    Category.Colours t (Category.runs code) ∧
    ∀ rs, Category.Colours t rs → rs = Category.runs code := by
  intro t
  have hruns : Category.runs code = Category.runsOf (Token.ofText t) := by
    rw [Category.runs, Token.ofSource, Preparation.apply_keepingLines]
  have hcolours := Category.colours_runsOf_ofText t
  rw [← hruns] at hcolours
  exact ⟨fun p hp => Category.existsUnique_token hp, hcolours, fun rs hrs => hrs.unique hcolours⟩

end FabEdit
