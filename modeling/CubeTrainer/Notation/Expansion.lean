import CubeTrainer.Notation.Token
import CubeTrainer.Twist

/-!
# Expansion

`parse` turns an algorithm text into the twists it stands for, in one pass over the tokens with the
open groups on a stack. It never fails: what is no token is dropped, a closing bracket that does
not fit the innermost open group is dropped too, and groups still open at the end close there. The
result is cut at `maxTwists`; `Normal` says which lists of twists are results.
-/

namespace CubeTrainer.Notation

/-- No algorithm expands to more twists than this. -/
def maxTwists : Nat := 4096

/-- A count of quarter turns between one and four with the same effect. -/
def reduceTurns (n : Nat) : Nat := (n - 1) % 4 + 1

/-- How many copies of a body of `size` twists are made: no more than asked for, and no more than
it takes to fill `room`. -/
def copies (room size times : Nat) : Nat :=
  min times ((room + size - 1) / size)

/-- The list after each of `n` copies of `body`. -/
def rounds (out body : Array Twist) : Nat → List (Array Twist)
  | 0 => []
  | n + 1 => (out ++ body) :: rounds (out ++ body) body n

theorem toList_getLastD_rounds (out body : Array Twist) (n : Nat) :
    ((rounds out body n).getLastD out).toList =
      out.toList ++ (List.replicate n body.toList).flatten := by
  induction n generalizing out with
  | zero => simp [rounds]
  | succ n ih =>
    rw [rounds, List.getLastD_cons, ih]
    simp [List.replicate_succ]

/-- The list after each copy that a repetition makes. -/
def repetitionRounds (out body : Array Twist) (times : Nat) : List (Array Twist) :=
  if body.isEmpty then [] else rounds out body (copies (maxTwists - out.size) body.size times)

/-- `body` taken `times` times after `out`: the last round, cut at `maxTwists`. -/
def pushRepeated (out body : Array Twist) (times : Nat) : Array Twist :=
  if body.isEmpty then out
  else ((repetitionRounds out body times).getLastD out).take maxTwists

/-- A turn after `out`, unless its count is zero or `out` is full. -/
def pushTurn (out : Array Twist) (layer : String) (suffix : Suffix) : Array Twist :=
  if 0 < suffix.count ∧ out.size < maxTwists then
    out.push ⟨layer, suffix.reverse, reduceTurns suffix.count⟩
  else out

/-- A closed group after `out`: its body, inverted if the suffix says so, as often as it counts. -/
def pushGroup (out body : Array Twist) (suffix : Suffix) : Array Twist :=
  pushRepeated out (if suffix.reverse then body.reverse.map Twist.inverse else body) suffix.count

structure OpenGroup where
  bracket : Bracket
  twists : Array Twist

/-- A reading part way through: the twists outside every group and the open groups, innermost
first. -/
structure Reading where
  out : Array Twist
  groups : List OpenGroup

namespace Reading

def start : Reading := ⟨#[], []⟩

/-- Changes the twists of the innermost open group, or those outside if none is open. -/
def update (f : Array Twist → Array Twist) : Reading → Reading
  | ⟨out, []⟩ => ⟨f out, []⟩
  | ⟨out, ⟨b, ts⟩ :: groups⟩ => ⟨out, ⟨b, f ts⟩ :: groups⟩

def push (r : Reading) : Token → Reading
  | .opening b => { r with groups := ⟨b, #[]⟩ :: r.groups }
  | .closing b suffix =>
    match r with
    | ⟨_, []⟩ => r
    | ⟨out, g :: groups⟩ =>
      if g.bracket = b then update (pushGroup · g.twists suffix) ⟨out, groups⟩ else r
  | .turn layer suffix => r.update (pushTurn · layer suffix)

/-- Closes the open groups, innermost first, each taken once. -/
def finish (r : Reading) : Array Twist :=
  pushGroup r.out (r.groups.foldl (fun body g => pushGroup g.twists body Suffix.one) #[]) Suffix.one

end Reading

def parse (s : String) : List Twist :=
  ((tokens s).foldl Reading.push Reading.start).finish.toList

@[simp] theorem parse_empty : parse "" = [] := by
  simp [parse, tokens, tokensAfter, Reading.start, Reading.finish, pushGroup, pushRepeated,
    Suffix.one]

/-! ### Normal lists -/

def isLayer (layer : String) : Bool :=
  match layer.toList with
  | [c] => isTurnLetter c
  | [c, 'w'] => isTurnLetter c
  | _ => false

/-- A twist that a text can state: a layer of the cube and one to four quarter turns. -/
def NormalTwist (t : Twist) : Prop :=
  isLayer t.layer = true ∧ 1 ≤ t.times ∧ t.times ≤ 4

/-- A list of at most `maxTwists` twists that a text can state. -/
def Normal (ts : List Twist) : Prop :=
  ts.length ≤ maxTwists ∧ ∀ t ∈ ts, NormalTwist t

instance (t : Twist) : Decidable (NormalTwist t) :=
  inferInstanceAs (Decidable (_ ∧ _))

instance (ts : List Twist) : Decidable (Normal ts) :=
  inferInstanceAs (Decidable (_ ∧ _))

theorem size_pushTurn_le {out : Array Twist} (h : out.size ≤ maxTwists) (layer : String)
    (suffix : Suffix) : (pushTurn out layer suffix).size ≤ maxTwists := by
  unfold pushTurn
  split
  · rename_i hlt
    rw [Array.size_push]
    exact hlt.2
  · exact h

theorem size_pushRepeated_le {out : Array Twist} (h : out.size ≤ maxTwists) (body : Array Twist)
    (times : Nat) : (pushRepeated out body times).size ≤ maxTwists := by
  unfold pushRepeated
  split
  · exact h
  · simp only [Array.take_eq_extract, Array.size_extract]
    omega

end CubeTrainer.Notation
