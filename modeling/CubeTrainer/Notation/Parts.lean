import CubeTrainer.Notation.Token

/-!
# Texts as parts of texts

When a text says the same beside another one, and within a group. A group that it leaves open takes
in what follows, and a closing bracket that is dropped may fit a group around the text. A `Closed`
text has none of the first, a `Matched` one has neither.
-/

namespace CubeTrainer.Notation

/-- The characters that are white space in Unicode. -/
def isBlank (c : Char) : Bool :=
  [9, 10, 11, 12, 13, 32, 0x85, 0xA0, 0x1680, 0x2028, 0x2029, 0x202F, 0x205F, 0x3000].contains
    c.toNat || (0x2000 ≤ c.toNat && c.toNat ≤ 0x200A)

/-- The text of a group around a text, without a suffix. -/
def Bracket.enclose (s : String) : Bracket → String
  | .round => "(" ++ s ++ ")"
  | .square => "[" ++ s ++ "]"

/-- The groups that are open, innermost first, and how many closing brackets were dropped. -/
structure Brackets where
  opened : List Bracket
  dropped : Nat
deriving DecidableEq

namespace Brackets

def start : Brackets := ⟨[], 0⟩

def opening (s : Brackets) (b : Bracket) : Brackets := { s with opened := b :: s.opened }

/-- A closing bracket closes the innermost open group if it fits, and is dropped if it does not. -/
def closing (s : Brackets) (b : Bracket) : Brackets :=
  if s.opened.head? = some b then { s with opened := s.opened.tail }
  else { s with dropped := s.dropped + 1 }

def push (s : Brackets) (c : Char) : Brackets :=
  match opened? c, closed? c with
  | some b, _ => s.opening b
  | none, some b => s.closing b
  | none, none => s

def ofText (s : String) : Brackets := s.toList.foldl push start

end Brackets

/-- Every group that the text opens is closed in it. -/
def Closed (s : String) : Prop := (Brackets.ofText s).opened = []

/-- Every group that the text opens is closed in it, and none of its closing brackets is dropped. -/
def Matched (s : String) : Prop := Closed s ∧ (Brackets.ofText s).dropped = 0

instance (s : String) : Decidable (Closed s) :=
  inferInstanceAs (Decidable (_ = _))

instance (s : String) : Decidable (Matched s) :=
  inferInstanceAs (Decidable (_ ∧ _))

end CubeTrainer.Notation
