import CubeTrainer.Notation.Expansion

/-!
# Trees

An algorithm as a tree of turns and groups. `Tree.read` finds the tree of a token list by
recursion on the brackets; `value` expands it with every level cut at `maxTwists`, and `expand`
expands it whole. Neither knows the stack of the one-pass reading.
-/

namespace CubeTrainer.Notation

inductive Tree where
  | turn (layer : String) (suffix : Suffix)
  | group (bracket : Bracket) (body : List Tree) (suffix : Suffix)

namespace Tree

/-- What a reading finds inside one group: its items, the suffix of the group, and the tokens
after it. -/
structure Inside (ts : List Token) where
  items : List Tree
  suffix : Suffix
  rest : List Token
  rest_le : rest.length ≤ ts.length

/-- The items up to the bracket that closes the group `inner`, or up to the end if there is no such
bracket; outside every group `inner` is `none`. -/
def inside (inner : Option Bracket) : (ts : List Token) → Inside ts
  | [] => ⟨[], Suffix.one, [], Nat.le_refl _⟩
  | .opening b :: ts =>
    let body := inside (some b) ts
    let more := inside inner body.rest
    ⟨.group b body.items body.suffix :: more.items, more.suffix, more.rest,
      Nat.le_succ_of_le (Nat.le_trans more.rest_le body.rest_le)⟩
  | .closing b suffix :: ts =>
    if inner = some b then ⟨[], suffix, ts, Nat.le_succ _⟩
    else
      let more := inside inner ts
      ⟨more.items, more.suffix, more.rest, Nat.le_succ_of_le more.rest_le⟩
  | .turn layer suffix :: ts =>
    let more := inside inner ts
    ⟨.turn layer suffix :: more.items, more.suffix, more.rest, Nat.le_succ_of_le more.rest_le⟩
termination_by ts => ts.length
decreasing_by
  · exact Nat.lt_succ_self _
  · exact Nat.lt_succ_of_le body.rest_le
  · exact Nat.lt_succ_self _
  · exact Nat.lt_succ_self _

def read (s : String) : List Tree :=
  (inside none (tokens s)).items

/-- A body taken as a suffix says: inverted if it reverses, as often as it counts. -/
def applySuffix (body : List Twist) (suffix : Suffix) : List Twist :=
  (List.replicate suffix.count (if suffix.reverse then invert body else body)).flatten

def turnTwists (layer : String) (suffix : Suffix) : List Twist :=
  if suffix.count = 0 then [] else [⟨layer, suffix.reverse, reduceTurns suffix.count⟩]

mutual

/-- The twists of one item, none left out. -/
def expand : Tree → List Twist
  | .turn layer suffix => turnTwists layer suffix
  | .group _ body suffix => applySuffix (expandAll body) suffix

def expandAll : List Tree → List Twist
  | [] => []
  | t :: ts => expand t ++ expandAll ts

end

mutual

/-- The first `maxTwists` twists of one item whose groups are cut at `maxTwists` too. -/
def value : Tree → List Twist
  | .turn layer suffix => turnTwists layer suffix
  | .group _ body suffix => (applySuffix (valueAll body) suffix).take maxTwists

def valueAll : List Tree → List Twist
  | [] => []
  | t :: ts => (value t ++ valueAll ts).take maxTwists

end

end Tree

end CubeTrainer.Notation
