/-!
# Limits

Columns, widths and indices are integers of any size, but a run of characters that is really written
has a length, a line that is really edited has a place, and a number in a text has digits. A length
and a place have to fit a machine word, a run needs room, and no numeral may be too long.

Shape of the module:

* the operations elsewhere are exact and know no limits; `runFault?` says beside them whether a run
  of a given length can be written. How much room there is depends on the machine, so the room is an
  argument wherever it counts;
* `FitsNumeral` says whether a number can be written down at all.
-/

namespace FabEdit

/-! ## Runs of characters -/

/-- Whether a length or an index fits a signed word of 64 bits. -/
def FitsWord (n : Int) : Prop := -9223372036854775808 ≤ n ∧ n ≤ 9223372036854775807

instance (n : Int) : Decidable (FitsWord n) :=
  inferInstanceAs (Decidable (-9223372036854775808 ≤ n ∧ n ≤ 9223372036854775807))

/-- Why a run of characters cannot be written. -/
inductive RunFault where
  /-- Its length does not fit a word. -/
  | uncountable
  /-- There is no room for it. -/
  | noRoom
  deriving DecidableEq, Repr

/-- The fault of a run of `n` characters on a machine that has room for runs of up to `room`. A
negative length stands for the empty run, but it has to fit a word like any other. -/
def runFault? (room : Nat) (n : Int) : Option RunFault :=
  if ¬ FitsWord n then some .uncountable
  else if room < n then some .noRoom
  else none

/-! ## Numerals -/

/-- The number of digits up to which a number is read from a text or written into one. -/
def longestNumeral : Nat := 4300

/-- Whether a number can be written into a text. A sign does not count. -/
def FitsNumeral (n : Int) : Prop := (Nat.toDigits 10 n.natAbs).length ≤ longestNumeral

instance (n : Int) : Decidable (FitsNumeral n) :=
  inferInstanceAs (Decidable ((Nat.toDigits 10 n.natAbs).length ≤ longestNumeral))

end FabEdit
