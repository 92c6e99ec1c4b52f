import FabEdit.Text.Basic

/-!
# Sets of words and tables keyed by words

Vocabularies are finite sets of words, and rules are found in tables keyed by words. Both are kept
as lists in strictly ascending order of their words, so that a set has one representation only: two
sets with the same words are equal, whatever the order and however often the words were given.

Shape of the module:

* `insertByKey` puts an item into an ascending list, in the place of the item with the same key;
* `WordSet` and `WordMap` carry the order as a proof;
* each operation is described by what it does to membership (`WordSet.mem_insert`,
  `WordSet.mem_ofList`) or to lookup (`WordMap.get?_insert`).

Words are ordered by their code points.
-/

namespace FabEdit

variable {α β : Type} [LT β] [DecidableEq β] [DecidableLT β]

/-- Put an item into a list that ascends by key; an item with the same key gives way. Keys are lists
in lexicographic order. -/
def insertByKey (key : α → List β) (x : α) : List α → List α
  | [] => [x]
  | y :: ys =>
    if key x < key y then x :: y :: ys
    else if key x = key y then x :: ys
    else y :: insertByKey key x ys

/-- The keys of a list are strictly ascending. -/
def Ascending (key : α → List β) (l : List α) : Prop := l.Pairwise fun a b => key a < key b

instance (key : α → List β) (l : List α) : Decidable (Ascending key l) :=
  inferInstanceAs (Decidable (l.Pairwise fun a b => key a < key b))

/-- Insertion brings in nothing but the new item. -/
theorem eq_or_mem_of_mem_insertByKey {key : α → List β} {x a : α} {l : List α}
    (h : a ∈ insertByKey key x l) : a = x ∨ a ∈ l := by
  induction l with
  | nil => simpa [insertByKey] using h
  | cons y ys ih =>
    rw [insertByKey] at h
    split at h
    · simpa using h
    · split at h
      · rcases List.mem_cons.1 h with rfl | hm
        · exact .inl rfl
        · exact .inr (List.mem_cons_of_mem _ hm)
      · rcases List.mem_cons.1 h with rfl | hm
        · exact .inr List.mem_cons_self
        · exact (ih hm).imp id (List.mem_cons_of_mem _)

/-- Insertion adds an item to a list in which no other item has its key. -/
theorem mem_insertByKey {key : α → List β} {x a : α} {l : List α}
    (h : ∀ y ∈ l, key y = key x → y = x) : a ∈ insertByKey key x l ↔ a = x ∨ a ∈ l := by
  refine ⟨eq_or_mem_of_mem_insertByKey, ?_⟩
  induction l with
  | nil => simp [insertByKey]
  | cons y ys ih =>
    have hrest := ih fun z hz => h z (List.mem_cons_of_mem y hz)
    intro ha
    rw [insertByKey]
    split
    · exact List.mem_cons.2 ha
    · split
      next _ heq =>
        have hyx : y = x := h y List.mem_cons_self heq.symm
        rw [hyx] at ha
        simpa using ha
      next =>
        rcases ha with rfl | ha
        · exact List.mem_cons_of_mem y (hrest (.inl rfl))
        · rcases List.mem_cons.1 ha with rfl | ha
          · exact List.mem_cons_self
          · exact List.mem_cons_of_mem y (hrest (.inr ha))

/-- Insertion keeps the order. -/
theorem Ascending.insertByKey [Std.Asymm fun a b : β => a < b]
    [Trans (fun a b : β => a < b) (fun a b : β => a < b) fun a b : β => a < b]
    [Std.Trichotomous fun a b : β => a < b] {key : α → List β} {l : List α}
    (h : Ascending key l) (x : α) :
    Ascending key (insertByKey key x l) := by
  induction l with
  | nil => simp [FabEdit.insertByKey, Ascending]
  | cons y ys ih =>
    obtain ⟨hy, hys⟩ := List.pairwise_cons.1 h
    rw [FabEdit.insertByKey]
    split
    next hlt =>
      refine List.pairwise_cons.2 ⟨fun a ha => ?_, h⟩
      rcases List.mem_cons.1 ha with rfl | hm
      · exact hlt
      · exact List.lt_trans hlt (hy a hm)
    next hnlt =>
      split
      next heq => exact List.pairwise_cons.2 ⟨fun a ha => heq ▸ hy a ha, hys⟩
      next hne =>
        refine List.pairwise_cons.2 ⟨fun a ha => ?_, ih hys⟩
        rcases eq_or_mem_of_mem_insertByKey ha with rfl | hm
        · rcases Std.lt_trichotomy (key a) (key y) with hlt | heq | hgt
          · exact absurd hlt hnlt
          · exact absurd heq hne
          · exact hgt
        · exact hy a hm

/-! ## Sets of words -/

/-- A finite set of words. -/
structure WordSet where
  words : List Text
  ascending : Ascending id words
  deriving DecidableEq

namespace WordSet

/-- The set without words. -/
def empty : WordSet := ⟨[], List.Pairwise.nil⟩

/-- A set with one more word. -/
def insert (s : WordSet) (w : Text) : WordSet :=
  ⟨insertByKey id w s.words, s.ascending.insertByKey w⟩

/-- The set of the words of a list. -/
def ofList (ws : List Text) : WordSet := ws.foldl insert empty

instance : Membership Text WordSet := ⟨fun s w => w ∈ s.words⟩

instance (w : Text) (s : WordSet) : Decidable (w ∈ s) :=
  inferInstanceAs (Decidable (w ∈ s.words))

theorem mem_iff_mem_words {w : Text} {s : WordSet} : w ∈ s ↔ w ∈ s.words := Iff.rfl

@[simp] theorem not_mem_empty (w : Text) : w ∉ empty := by
  simp [mem_iff_mem_words, empty]

/-- Insertion adds the word and nothing else. -/
@[simp] theorem mem_insert {v w : Text} {s : WordSet} : v ∈ s.insert w ↔ v = w ∨ v ∈ s :=
  mem_insertByKey fun _ _ h => h

private theorem mem_foldl_insert {v : Text} (ws : List Text) (s : WordSet) :
    v ∈ ws.foldl insert s ↔ v ∈ ws ∨ v ∈ s := by
  induction ws generalizing s with
  | nil => simp
  | cons w ws ih =>
    rw [List.foldl_cons, ih, mem_insert, List.mem_cons]
    constructor
    · rintro (h | h | h)
      · exact .inl (.inr h)
      · exact .inl (.inl h)
      · exact .inr h
    · rintro ((h | h) | h)
      · exact .inr (.inl h)
      · exact .inl h
      · exact .inr (.inr h)

/-- The set of a list has the words of the list. -/
@[simp] theorem mem_ofList {v : Text} {ws : List Text} : v ∈ ofList ws ↔ v ∈ ws := by
  simp [ofList, mem_foldl_insert]

end WordSet

/-! ## Tables keyed by words -/

/-- A finite table from words to values. -/
structure WordMap (α : Type) where
  entries : List (Text × α)
  ascending : Ascending Prod.fst entries
  deriving DecidableEq

namespace WordMap

/-- The table without entries. -/
def empty : WordMap α := ⟨[], List.Pairwise.nil⟩

/-- A table with an entry added or replaced. -/
def insert (m : WordMap α) (w : Text) (a : α) : WordMap α :=
  ⟨insertByKey Prod.fst (w, a) m.entries, m.ascending.insertByKey (w, a)⟩

/-- The table of a list of entries; of two entries for one word the later one stays. -/
def ofList (es : List (Text × α)) : WordMap α := es.foldl (fun m e => m.insert e.1 e.2) empty

/-- The value for a word. -/
def get? (m : WordMap α) (w : Text) : Option α :=
  (m.entries.find? fun e => decide (e.1 = w)).map Prod.snd

@[simp] theorem get?_empty (w : Text) : (empty : WordMap α).get? w = none := rfl

private theorem find?_insertByKey (w v : Text) (a : α) (l : List (Text × α)) :
    (insertByKey Prod.fst (w, a) l).find? (fun e => decide (e.1 = v)) =
      if w = v then some (w, a) else l.find? fun e => decide (e.1 = v) := by
  induction l with
  | nil => by_cases h : w = v <;> simp [insertByKey, h]
  | cons y ys ih =>
    rw [insertByKey]
    split
    · by_cases h : w = v <;> simp [List.find?_cons, h]
    · split
      next heq =>
        have hwy : w = y.1 := heq
        by_cases h : w = v <;> simp [h, ← hwy]
      next hne =>
        have hwy : w ≠ y.1 := hne
        rw [List.find?_cons, List.find?_cons, ih]
        by_cases hv : y.1 = v
        · have hwv : w ≠ v := hv ▸ hwy
          simp [hv, hwv]
        · simp [hv]

/-- Insertion changes the value of one word. -/
theorem get?_insert (m : WordMap α) (w v : Text) (a : α) :
    (m.insert w a).get? v = if w = v then some a else m.get? v := by
  rw [get?, insert, find?_insertByKey]
  split <;> rfl

end WordMap

end FabEdit
