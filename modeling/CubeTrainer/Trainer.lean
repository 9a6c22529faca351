import CubeTrainer.Display
import CubeTrainer.Session

/-!
# Trainers

A session and the display of its catalog. A command that changes the text of an entry also empties
the slot of its preview, so that a later tick draws it anew.
-/

namespace CubeTrainer

structure Trainer (σ ρ ι : Type) where
  session : Session
  display : Display σ ρ ι

namespace Trainer

variable {σ ρ ι : Type}

/-- Opens a catalog on a store with an empty slot for each entry. -/
def start (config : Config) (store : Store) (catalog : Catalog) (scene : σ) (rasterizer : ρ) :
    Trainer σ ρ ι × List Call :=
  let (session, calls) := Session.start config store catalog
  let previews := Previews.ofCatalog session.player.catalog
  (⟨session, .ofPreviews previews scene rasterizer⟩, calls)

def perform (t : Trainer σ ρ ι) (refusal : Option StoreError) (c : Player.Command) :
    Trainer σ ρ ι × Step :=
  let (session, step) := t.session.perform refusal c
  let display := match step.edited with
    | some p => { t.display with previews := t.display.previews.invalidate p }
    | none => t.display
  (⟨session, display⟩, step)

def tick (t : Trainer σ ρ ι) (scene : Scene σ) (r : Rasterizer ρ ι) : Outcome × Trainer σ ρ ι :=
  let (outcome, display) := t.display.tick scene r t.session.player.catalog
  (outcome, { t with display := display })

/-- Something that happens to a trainer: a tick, a change of the scene, or a command whose writes
may be refused. -/
inductive Event where
  | tick
  | sceneChange
  | command (refusal : Option StoreError) (c : Player.Command)
deriving DecidableEq

/-- The trainer after an event; `soil` is what a change does to the scene. -/
def take (scene : Scene σ) (soil : σ → σ) (r : Rasterizer ρ ι) (t : Trainer σ ρ ι) :
    Event → Trainer σ ρ ι
  | .tick => (t.tick scene r).2
  | .sceneChange => { t with display := { t.display with scene := soil t.display.scene } }
  | .command refusal c => (t.perform refusal c).1

def takeAll (scene : Scene σ) (soil : σ → σ) (r : Rasterizer ρ ι) (t : Trainer σ ρ ι)
    (events : List Event) : Trainer σ ρ ι :=
  events.foldl (take scene soil r) t

end Trainer

end CubeTrainer
