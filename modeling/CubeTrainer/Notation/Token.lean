import CubeTrainer.Notation.Suffix

/-!
# Tokens

An algorithm text is read as opening brackets, closing brackets with the suffix that follows, and
turns with theirs. Any other character is no token and is dropped.
-/

namespace CubeTrainer.Notation

inductive Bracket where
  | round
  | square
deriving DecidableEq

inductive Token where
  | opening (bracket : Bracket)
  | closing (bracket : Bracket) (suffix : Suffix)
  | turn (layer : String) (suffix : Suffix)
deriving DecidableEq

/-- The letters of the faces, of two layers turned together, of the slices and of the axes. -/
def turnLetters : List Char :=
  ['R', 'L', 'U', 'D', 'F', 'B', 'r', 'l', 'u', 'd', 'f', 'b',
   'M', 'E', 'S', 'm', 'e', 's', 'x', 'y', 'z', 'X', 'Y', 'Z']

def isTurnLetter (c : Char) : Bool := turnLetters.contains c

def opened? : Char → Option Bracket
  | '(' => some .round
  | '[' => some .square
  | _ => none

def closed? : Char → Option Bracket
  | ')' => some .round
  | ']' => some .square
  | _ => none

/-- The layer that a turn letter names, wide if a `w` follows at once. -/
def readLayer (c : Char) : List Char → String × List Char
  | 'w' :: cs => (String.ofList [c, 'w'], cs)
  | cs => (String.ofList [c], cs)

/-- The token that starts with `c`, if one does, and the text after it. -/
def readToken (c : Char) (cs : List Char) : Option Token × List Char :=
  match opened? c, closed? c with
  | some b, _ => (some (.opening b), cs)
  | none, some b =>
    let (suffix, rest) := readSuffix cs
    (some (.closing b suffix), rest)
  | none, none =>
    if isTurnLetter c then
      let (layer, rest) := readLayer c cs
      let (suffix, rest) := readSuffix rest
      (some (.turn layer suffix), rest)
    else
      (none, cs)

theorem length_readLayer_le (c : Char) (cs : List Char) :
    (readLayer c cs).2.length ≤ cs.length := by
  unfold readLayer
  split
  · exact Nat.le_succ _
  · exact Nat.le_refl _

theorem length_readToken_le (c : Char) (cs : List Char) :
    (readToken c cs).2.length ≤ cs.length := by
  unfold readToken
  split
  · exact Nat.le_refl _
  · exact length_readSuffix_le cs
  · split
    · exact Nat.le_trans (length_readSuffix_le _) (length_readLayer_le c cs)
    · exact Nat.le_refl _

def tokensAfter (before : Array Token) : List Char → Array Token
  | [] => before
  | c :: cs =>
    let next := readToken c cs
    tokensAfter (match next.1 with | none => before | some t => before.push t) next.2
termination_by cs => cs.length
decreasing_by exact Nat.lt_succ_of_le (length_readToken_le c cs)

def tokens (s : String) : List Token :=
  (tokensAfter #[] s.toList).toList

end CubeTrainer.Notation
