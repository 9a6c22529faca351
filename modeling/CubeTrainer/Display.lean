import CubeTrainer.Previews.Basic

/-!
# Displays

A display is refreshed in ticks. Each tick does one piece of work at most: it renders the scene if
that has changed, and else has one preview drawn.
-/

namespace CubeTrainer

/-- What there is to know of a scene: whether it has changed, and how to render it. -/
structure Scene (σ : Type) where
  isDirty : σ → Bool
  render : σ → σ

inductive Outcome where
  | rendered
  | filled (p : Position)
  /-- The rasterizer had no picture yet; the slot is tried again. -/
  | deferred (p : Position)
  | idle
deriving DecidableEq

/-- How many ticks there were, and what they did. -/
structure Stats where
  ticks : Nat
  renders : Nat
  fills : Nat
  deferrals : Nat
deriving DecidableEq

def Stats.zero : Stats := ⟨0, 0, 0, 0⟩

structure Display (σ ρ ι : Type) where
  previews : Previews ι
  stats : Stats
  scene : σ
  rasterizer : ρ

namespace Display

variable {σ ρ ι : Type}

def ofPreviews (v : Previews ι) (scene : σ) (rasterizer : ρ) : Display σ ρ ι :=
  ⟨v, Stats.zero, scene, rasterizer⟩

/-- Has the preview at `p` drawn, and tells whether it was. -/
def fill (d : Display σ ρ ι) (c : Catalog) (r : Rasterizer ρ ι) (p : Position) :
    Bool × Display σ ρ ι :=
  let (done, previews, rasterizer) := d.previews.fill c r p d.rasterizer
  (done, { d with previews := previews, rasterizer := rasterizer })

/-- One refresh. A scene that has changed goes before any preview. -/
def tick (d : Display σ ρ ι) (scene : Scene σ) (r : Rasterizer ρ ι) (c : Catalog) :
    Outcome × Display σ ρ ι :=
  let stats := { d.stats with ticks := d.stats.ticks + 1 }
  if scene.isDirty d.scene then
    (.rendered, { d with
      scene := scene.render d.scene
      stats := { stats with renders := stats.renders + 1 } })
  else
    match d.previews.nextPending? with
    | none => (.idle, { d with stats := stats })
    | some p =>
      let (done, d) := d.fill c r p
      if done then (.filled p, { d with stats := { stats with fills := stats.fills + 1 } })
      else (.deferred p, { d with stats := { stats with deferrals := stats.deferrals + 1 } })

/-- Fills the pending slots in order, at most `n` of them, and stops at one that is not drawn. Also
tells how many were filled. -/
def fillNext (c : Catalog) (r : Rasterizer ρ ι) : (n : Nat) → Display σ ρ ι → Nat × Display σ ρ ι
  | 0, d => (0, d)
  | n + 1, d =>
    match d.previews.nextPending? with
    | none => (0, d)
    | some p =>
      match d.fill c r p with
      | (false, d) => (0, d)
      | (true, d) =>
        let (m, d) := fillNext c r n d
        (m + 1, d)

end Display

end CubeTrainer
