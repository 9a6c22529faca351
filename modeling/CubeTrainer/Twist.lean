/-!
# Twists

A twist turns one layer, or the whole cube, by some quarter turns. `Twist.inverse` undoes one,
`invert` undoes a list, and `Twist.token` and `Notation.render` write them as an algorithm text.
Inverting twice gives the same list back.
-/

namespace CubeTrainer

structure Twist where
  /-- The layer or axis that turns, such as `R`, `Rw`, `M` or `x`. -/
  layer : String
  /-- Whether the turn goes against the usual sense of the layer. -/
  reverse : Bool
  times : Nat
deriving DecidableEq, Inhabited

namespace Twist

def ofTimes (layer : String) (reverse : Bool) (times : Nat) : Twist :=
  ⟨layer, reverse, max times 1⟩

def inverse (t : Twist) : Twist :=
  { t with reverse := !t.reverse }

/-- The layer, then the count unless it is one, then a mark if the sense is reversed. -/
def token (t : Twist) : String :=
  t.layer ++ (if t.times = 1 then "" else toString t.times) ++ (if t.reverse then "'" else "")

@[simp] theorem inverse_inverse (t : Twist) : t.inverse.inverse = t := by
  simp [inverse]

@[simp] theorem layer_inverse (t : Twist) : t.inverse.layer = t.layer := rfl

@[simp] theorem times_inverse (t : Twist) : t.inverse.times = t.times := rfl

@[simp] theorem reverse_inverse (t : Twist) : t.inverse.reverse = !t.reverse := rfl

end Twist

/-- The list that undoes `ts`: each twist inverted, last first. -/
def invert (ts : List Twist) : List Twist :=
  ts.reverse.map Twist.inverse

/-- The tokens of `ts` with one blank between them. -/
def Notation.render (ts : List Twist) : String :=
  " ".intercalate (ts.map Twist.token)

@[simp] theorem length_invert (ts : List Twist) : (invert ts).length = ts.length := by
  simp [invert]

theorem invert_append (ts us : List Twist) : invert (ts ++ us) = invert us ++ invert ts := by
  simp [invert]

theorem invert_cons (t : Twist) (ts : List Twist) :
    invert (t :: ts) = invert ts ++ [t.inverse] := by
  simp [invert]

@[simp] theorem invert_invert (ts : List Twist) : invert (invert ts) = ts := by
  have h : Twist.inverse ∘ Twist.inverse = id := funext Twist.inverse_inverse
  simp [invert, List.map_reverse, h]

end CubeTrainer
