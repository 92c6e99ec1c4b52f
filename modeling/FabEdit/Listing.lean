import FabEdit.Limits
import FabEdit.Words
import FabEdit.Decimal.Layout

/-!
# Listings

Where a host lists words it may list other things as well: numbers, or nothing at all in the place
of a word. They are kept and shown again, but no word of a source ever equals one of them.

Shape of the module:

* `Number` is a number as a host may spell it; `Number.rank` orders numbers by value, whatever their
  spelling, and `NumberSet` holds each value once, in the spelling that came first;
* `Listing` is a set of words, numbers and nothing, and membership in it is membership of words;
* `Listing.items?` gives the members in ascending order. Words are ordered among themselves and so
  are numbers, but a word, a number and nothing cannot be compared, so a mixed listing has no order.
-/

namespace FabEdit

/-! ## Numbers -/

/-- A number as a host may spell it: a flag counts as zero or one. -/
inductive Number where
  | flag (b : Bool)
  | int (n : Int)
  | real (x : Binary64)
  deriving DecidableEq, Repr

/-- A finite number in the units that are fine enough for all of them. -/
def Binary64.units (x : Binary64) : Int := if x.isNegative then -x.magnitude else x.magnitude

namespace Number

/-- The key that orders numbers by value: the infinite ones lie outside the finite ones. -/
def rank : Number → List Int
  | .flag b => [0, if b then Binary64.unitsInOne else 0]
  | .int n => [0, n * Binary64.unitsInOne]
  | .real x =>
    if x.isFinite then [0, x.units]
    else if x.isNegative then [-1]
    else [1]

/-- Whether a number can be written into a text. -/
def isWritable : Number → Bool
  | .int n => decide (FitsNumeral n)
  | .flag _ | .real _ => true

end Number

/-- A finite set of numbers. -/
structure NumberSet where
  numbers : List Number
  ascending : Ascending Number.rank numbers
  deriving DecidableEq

namespace NumberSet

/-- The set without numbers. -/
def empty : NumberSet := ⟨[], List.Pairwise.nil⟩

/-- A set with one more number. If its value is there already, the set stays as it is. -/
def insert (s : NumberSet) (n : Number) : NumberSet :=
  if s.numbers.any fun m => decide (m.rank = n.rank) then s
  else ⟨insertByKey Number.rank n s.numbers, s.ascending.insertByKey n⟩

end NumberSet

/-! ## Listings -/

/-- A member of a listing. -/
inductive Item where
  | word (w : Text)
  | number (n : Number)
  | nothing
  deriving DecidableEq, Repr

/-- A set of words, numbers and nothing. -/
structure Listing where
  words : WordSet
  numbers : NumberSet
  /-- Whether nothing was listed in the place of a word. -/
  nothing : Bool
  deriving DecidableEq

namespace Listing

/-- The listing of a set of words. -/
def ofWords (s : WordSet) : Listing := ⟨s, .empty, false⟩

/-- The listing without members. -/
def empty : Listing := ofWords .empty

/-- A listing with one more member. -/
def insert (l : Listing) : Item → Listing
  | .word w => { l with words := l.words.insert w }
  | .number n => { l with numbers := l.numbers.insert n }
  | .nothing => { l with nothing := true }

/-- The listing of some members. -/
def ofList (items : List Item) : Listing := items.foldl insert empty

instance : Membership Text Listing := ⟨fun l w => w ∈ l.words⟩

instance (w : Text) (l : Listing) : Decidable (w ∈ l) := inferInstanceAs (Decidable (w ∈ l.words))

theorem mem_iff_mem_words {w : Text} {l : Listing} : w ∈ l ↔ w ∈ l.words := Iff.rfl

@[simp] theorem mem_ofWords {w : Text} {s : WordSet} : w ∈ ofWords s ↔ w ∈ s := Iff.rfl

/-- A new member that is no word adds no word. -/
@[simp] theorem mem_insert {v : Text} {l : Listing} {i : Item} :
    v ∈ l.insert i ↔ i = .word v ∨ v ∈ l := by
  cases i with
  | word w =>
    rw [mem_iff_mem_words, insert, WordSet.mem_insert, mem_iff_mem_words, Item.word.injEq]
    exact or_congr_left eq_comm
  | number n => simp [insert, mem_iff_mem_words]
  | nothing => simp [insert, mem_iff_mem_words]

private theorem mem_foldl_insert_item {v : Text} (items : List Item) (l : Listing) :
    v ∈ items.foldl insert l ↔ .word v ∈ items ∨ v ∈ l := by
  induction items generalizing l with
  | nil => simp
  | cons i items ih =>
    rw [List.foldl_cons, ih, mem_insert, List.mem_cons]
    constructor
    · rintro (h | h | h)
      · exact .inl (.inr h)
      · exact .inl (.inl h.symm)
      · exact .inr h
    · rintro ((h | h) | h)
      · exact .inr (.inl h.symm)
      · exact .inl h
      · exact .inr (.inr h)

/-- The words of a listing are the words listed. -/
theorem mem_ofList {v : Text} {items : List Item} : v ∈ ofList items ↔ .word v ∈ items := by
  simp [ofList, mem_foldl_insert_item, empty]

/-- The members in ascending order, if they can be compared with each other. -/
def items? (l : Listing) : Option (List Item) :=
  match l.words.words, l.numbers.numbers, l.nothing with
  | ws, [], false => some (ws.map .word)
  | [], ns, false => some (ns.map .number)
  | [], [], true => some [.nothing]
  | _, _, true => none
  | _ :: _, _ :: _, false => none

/-- Whether the members can be written into a text. -/
def isWritable (l : Listing) : Bool := l.numbers.numbers.all Number.isWritable

end Listing

end FabEdit
