import CubeTrainer.Catalog.Basic
import CubeTrainer.Twist

/-!
# Cubes

What a trainer tells the cube on the screen, and what a cube does when it is told. A cube may
leave out its answers to `finish` and `interactive`.
-/

namespace CubeTrainer

inductive Call where
  /-- End every animation at once. -/
  | finish
  /-- Take up the solved state with these stickers greyed out. -/
  | reset (strip : Strip)
  | turn (twist : Twist) (animated : Bool)
  /-- Let the user turn layers by hand, or stop it. -/
  | interactive (enabled : Bool)
deriving DecidableEq

structure Cube (σ : Type) where
  reset : Strip → σ → σ
  turn : Twist → (animated : Bool) → σ → σ
  finish : σ → σ := id
  setInteractive : Bool → σ → σ := fun _ => id

namespace Cube

variable {σ : Type}

def respond (cube : Cube σ) (s : σ) : Call → σ
  | .finish => cube.finish s
  | .reset strip => cube.reset strip s
  | .turn t animated => cube.turn t animated s
  | .interactive enabled => cube.setInteractive enabled s

def respondAll (cube : Cube σ) (s : σ) (calls : List Call) : σ :=
  calls.foldl cube.respond s

theorem respondAll_append (cube : Cube σ) (s : σ) (calls calls' : List Call) :
    cube.respondAll s (calls ++ calls') = cube.respondAll (cube.respondAll s calls) calls' :=
  List.foldl_append

/-- A cube that shows nothing but its turns since it was last reset: it looks the same whether a
turn is animated or not, a turn and its inverse cancel, a reset leads to `base`, and the other
calls leave it as it is. -/
structure Lawful (cube : Cube σ) (base : Strip → σ) : Prop where
  turn_animated : ∀ t a b s, cube.turn t a s = cube.turn t b s
  turn_inverse : ∀ t a s, cube.turn t.inverse a (cube.turn t a s) = s
  reset : ∀ strip s, cube.reset strip s = base strip
  finish : ∀ s, cube.finish s = s
  setInteractive : ∀ enabled s, cube.setInteractive enabled s = s

end Cube

end CubeTrainer
