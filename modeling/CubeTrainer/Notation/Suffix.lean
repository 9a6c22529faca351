import CubeTrainer.Text.Digit

/-!
# Suffixes

What may follow a turn or a closed group: digits, which count, and marks, which reverse. The
digit runs of a suffix multiply and an odd number of marks reverses. Counts stop at `maxCount`;
`Suffix.exactCount` is the same product without that stop.
-/

namespace CubeTrainer.Notation

/-- The largest count that a suffix states; larger ones are read as this one. -/
def maxCount : Nat := 4294967295

def clampCount (n : Nat) : Nat := min n maxCount

theorem clampCount_le (n : Nat) : clampCount n ≤ maxCount := Nat.min_le_right _ _

/-- How often an item is taken, and whether it is reversed. -/
structure Suffix where
  count : Nat
  reverse : Bool
deriving DecidableEq, Inhabited

/-- The apostrophe, straight or curved, and the letter i reverse what they follow. -/
def isMark (c : Char) : Bool :=
  c = '\x27' || c = '\u2019' || c = 'i' || c = 'I'

def isSuffixChar (c : Char) : Bool :=
  c.isDigit || isMark c

theorem length_dropWhile_le (p : Char → Bool) (cs : List Char) :
    (cs.dropWhile p).length ≤ cs.length :=
  (List.dropWhile_suffix p).length_le

namespace Suffix

def one : Suffix := ⟨1, false⟩

/-- A suffix part way through: the product of the digit runs that have ended, the digit run that
may still go on, and the sense so far. -/
structure Partial where
  product : Nat
  run : Option Nat
  reverse : Bool

namespace Partial

def start : Partial := ⟨1, none, false⟩

/-- The product with the open digit run taken in. -/
def count (p : Partial) : Nat :=
  match p.run with
  | none => p.product
  | some n => clampCount (p.product * n)

def push (p : Partial) (c : Char) : Partial :=
  if c.isDigit then
    { p with run := some (clampCount (p.run.getD 0 * 10 + Text.decimalValue c)) }
  else
    ⟨p.count, none, p.reverse ^^ isMark c⟩

def finish (p : Partial) : Suffix := ⟨p.count, p.reverse⟩

end Partial

def ofChars (cs : List Char) : Suffix :=
  (cs.foldl Partial.push Partial.start).finish

def digitRuns : List Char → List Nat
  | [] => []
  | c :: cs =>
    if c.isDigit then
      Nat.ofDigitChars 10 (c :: cs.takeWhile Char.isDigit) 0 ::
        digitRuns (cs.dropWhile Char.isDigit)
    else
      digitRuns cs
termination_by cs => cs.length
decreasing_by
  · exact Nat.lt_succ_of_le (length_dropWhile_le _ cs)
  · exact Nat.lt_succ_self _

/-- The product of the digit runs as a number of any size, one if there is none. -/
def exactCount (cs : List Char) : Nat :=
  (digitRuns cs).foldl (· * ·) 1

end Suffix

def readSuffix (cs : List Char) : Suffix × List Char :=
  (Suffix.ofChars (cs.takeWhile isSuffixChar), cs.dropWhile isSuffixChar)

theorem length_readSuffix_le (cs : List Char) : (readSuffix cs).2.length ≤ cs.length :=
  length_dropWhile_le _ cs

end CubeTrainer.Notation
