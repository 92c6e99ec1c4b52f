import Mathlib.Data.List.Sort
import FabEdit.Vocabulary

/-!
# One representation for each set

Sets of words, listings and tables are kept as lists in strictly ascending order. Such a list is
decided by its members (`Ascending.ext`), so what was put into a set decides the set, and neither
the order nor repetitions leave a trace.

Shape of the argument:

* Insertion adds the new item and nothing else, unless an item with the same key gives way. Among
  items that all belong to one ascending list, items with the same key are the same
  (`Ascending.eq_of_key_eq`), so nothing ever gives way (`Listing.mem_members_foldl_insert`,
  `WordMap.mem_entries_foldl_insert`).
* Hence the listing of some items is the listing that has them as its members
  (`Listing.ofList_eq_of_mem_iff`), and the table of some entries is the table that has them
  (`WordMap.ofList_eq_of_perm`).
-/

namespace FabEdit

/-! ## Ascending lists -/

section Ascending

variable {α β : Type} [LT β] {key : α → List β}

theorem Ascending.nodup_keys [Std.Irrefl fun a b : β => a < b] {l : List α}
    (h : Ascending key l) : (l.map key).Nodup := by
  refine List.pairwise_map.2 (List.Pairwise.imp ?_ h)
  intro a b hlt heq
  rw [heq] at hlt
  exact List.lt_irrefl (key b) hlt

theorem Ascending.eq_of_key_eq [Std.Irrefl fun a b : β => a < b] {l : List α}
    (h : Ascending key l) {a b : α} (ha : a ∈ l) (hb : b ∈ l) (heq : key a = key b) : a = b :=
  List.inj_on_of_nodup_map h.nodup_keys ha hb heq

/-- Ascending lists with the same members are the same list. -/
theorem Ascending.ext [Std.Irrefl fun a b : β => a < b] [Std.Asymm fun a b : β => a < b]
    {l l' : List α} (h : Ascending key l) (h' : Ascending key l') (hmem : ∀ a, a ∈ l ↔ a ∈ l') :
    l = l' := by
  have hirrefl : Std.Irrefl fun a b : α => key a < key b := ⟨fun a => List.lt_irrefl (key a)⟩
  have hantisymm : Std.Antisymm fun a b : α => key a < key b :=
    ⟨fun a b hab hba => absurd hba (List.lt_asymm hab)⟩
  exact List.Pairwise.eq_of_mem_iff h h' hmem

end Ascending

theorem WordSet.ext {s s' : WordSet} (h : ∀ w, w ∈ s ↔ w ∈ s') : s = s' := by
  obtain ⟨ws, hws⟩ := s
  obtain ⟨ws', hws'⟩ := s'
  obtain rfl : ws = ws' := hws.ext hws' h
  rfl

/-! ## Listings -/

theorem NumberSet.ext {s s' : NumberSet} (h : ∀ n, n ∈ s.numbers ↔ n ∈ s'.numbers) : s = s' := by
  obtain ⟨ns, hns⟩ := s
  obtain ⟨ns', hns'⟩ := s'
  obtain rfl : ns = ns' := hns.ext hns' h
  rfl

/-- A number is added to a set in which no other number has its value. -/
theorem NumberSet.mem_insert {s : NumberSet} {n m : Number}
    (h : ∀ x ∈ s.numbers, x.rank = n.rank → x = n) :
    m ∈ (s.insert n).numbers ↔ m = n ∨ m ∈ s.numbers := by
  rw [insert]
  split
  next hany =>
    -- a number of the same value is there already, and it can only be the number itself
    obtain ⟨x, hx, hrank⟩ := List.any_eq_true.1 hany
    obtain rfl : x = n := h x hx (of_decide_eq_true hrank)
    exact ⟨.inr, fun hm => hm.elim (fun heq => heq ▸ hx) id⟩
  next => exact mem_insertByKey h

namespace Listing

/-- The members of a listing: its words, its numbers, and nothing if that was listed. -/
def members (l : Listing) : List Item :=
  l.words.words.map .word ++ l.numbers.numbers.map .number ++
    if l.nothing then [.nothing] else []

@[simp] theorem word_mem_members {l : Listing} {w : Text} :
    .word w ∈ l.members ↔ w ∈ l.words := by
  cases h : l.nothing <;> simp [members, h, WordSet.mem_iff_mem_words]

@[simp] theorem number_mem_members {l : Listing} {n : Number} :
    .number n ∈ l.members ↔ n ∈ l.numbers.numbers := by
  cases h : l.nothing <;> simp [members, h]

@[simp] theorem nothing_mem_members {l : Listing} : .nothing ∈ l.members ↔ l.nothing = true := by
  cases h : l.nothing <;> simp [members, h]

/-- Listings with the same members are the same. -/
theorem ext {l l' : Listing} (h : ∀ i, i ∈ l.members ↔ i ∈ l'.members) : l = l' := by
  have hwords : l.words = l'.words := WordSet.ext fun w => by simpa using h (.word w)
  have hnumbers : l.numbers = l'.numbers := NumberSet.ext fun n => by simpa using h (.number n)
  have hnothing : l.nothing = l'.nothing := Bool.eq_iff_iff.2 (by simpa using h .nothing)
  calc l = ⟨l.words, l.numbers, l.nothing⟩ := rfl
    _ = ⟨l'.words, l'.numbers, l'.nothing⟩ := by rw [hwords, hnumbers, hnothing]

/-- A member is added to a listing in which no other number has its value. -/
theorem mem_members_insert {l : Listing} {i j : Item}
    (h : ∀ n, j = .number n → ∀ m ∈ l.numbers.numbers, m.rank = n.rank → m = n) :
    i ∈ (l.insert j).members ↔ i = j ∨ i ∈ l.members := by
  cases j with
  | word w => cases i <;> simp [insert]
  | nothing => cases i <;> simp [insert]
  | number n => cases i <;> simp [insert, NumberSet.mem_insert (h n rfl)]

/-- Listed one after the other, items become the members of a listing, if all of them belong to one
listing. -/
theorem mem_members_foldl_insert {l : Listing} (items : List Item) (acc : Listing)
    (hitems : ∀ i ∈ items, i ∈ l.members) (hacc : ∀ i ∈ acc.members, i ∈ l.members) (i : Item) :
    i ∈ (items.foldl insert acc).members ↔ i ∈ items ∨ i ∈ acc.members := by
  induction items generalizing acc with
  | nil => simp
  | cons j items ih =>
    have hj : j ∈ l.members := hitems j List.mem_cons_self
    have hinsert : ∀ i, i ∈ (acc.insert j).members ↔ i = j ∨ i ∈ acc.members := by
      refine fun i => mem_members_insert fun n hn m hm hrank => ?_
      subst hn
      exact l.numbers.ascending.eq_of_key_eq
        (number_mem_members.1 (hacc _ (number_mem_members.2 hm))) (number_mem_members.1 hj) hrank
    have hnext : ∀ i ∈ (acc.insert j).members, i ∈ l.members :=
      fun i hi => ((hinsert i).1 hi).elim (fun heq => heq ▸ hj) (hacc i)
    rw [List.foldl_cons, ih _ (fun i hi => hitems i (List.mem_cons_of_mem j hi)) hnext, hinsert,
      List.mem_cons, or_left_comm, or_assoc]

/-- A listing is read from its members, in any order and with any repetitions. -/
theorem ofList_eq_of_mem_iff {l : Listing} {items : List Item}
    (h : ∀ i, i ∈ items ↔ i ∈ l.members) : ofList items = l := by
  have hempty : ∀ i, i ∉ empty.members := fun i => List.not_mem_nil
  refine ext fun i => ?_
  rw [ofList, mem_members_foldl_insert items empty (fun i => (h i).1)
    (fun i hi => absurd hi (hempty i)), h]
  exact or_iff_left (hempty i)

end Listing

/-! ## Tables -/

namespace WordMap

variable {α : Type}

theorem ext {m m' : WordMap α} (h : ∀ e, e ∈ m.entries ↔ e ∈ m'.entries) : m = m' := by
  obtain ⟨es, hes⟩ := m
  obtain ⟨es', hes'⟩ := m'
  obtain rfl : es = es' := hes.ext hes' h
  rfl

/-- Put in one after the other, entries become the entries of a table, if all of them belong to one
table. -/
theorem mem_entries_foldl_insert {m : WordMap α} (es : List (Text × α)) (acc : WordMap α)
    (hes : ∀ e ∈ es, e ∈ m.entries) (hacc : ∀ e ∈ acc.entries, e ∈ m.entries) (e : Text × α) :
    e ∈ (es.foldl (fun m e => m.insert e.1 e.2) acc).entries ↔ e ∈ es ∨ e ∈ acc.entries := by
  induction es generalizing acc with
  | nil => simp
  | cons d es ih =>
    have hd : d ∈ m.entries := hes d List.mem_cons_self
    have hinsert : ∀ e, e ∈ (acc.insert d.1 d.2).entries ↔ e = d ∨ e ∈ acc.entries := fun e =>
      mem_insertByKey fun y hy hkey => m.ascending.eq_of_key_eq (hacc y hy) hd hkey
    have hnext : ∀ e ∈ (acc.insert d.1 d.2).entries, e ∈ m.entries :=
      fun e he => ((hinsert e).1 he).elim (fun heq => heq ▸ hd) (hacc e)
    rw [List.foldl_cons, ih _ (fun e he => hes e (List.mem_cons_of_mem d he)) hnext, hinsert,
      List.mem_cons, or_left_comm, or_assoc]

/-- A table is read from its entries in any order. -/
theorem ofList_eq_of_perm {m : WordMap α} {es : List (Text × α)} (h : es.Perm m.entries) :
    ofList es = m := by
  have hempty : ∀ e, e ∉ (empty : WordMap α).entries := fun e => List.not_mem_nil
  refine ext fun e => ?_
  rw [ofList, mem_entries_foldl_insert es empty (fun e he => h.subset he)
    (fun e he => absurd he (hempty e)), h.mem_iff]
  exact or_iff_left (hempty e)

end WordMap

end FabEdit
