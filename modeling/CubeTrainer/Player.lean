import CubeTrainer.Cube
import CubeTrainer.Notation.Expansion
import CubeTrainer.Store

/-!
# Players

A player steps a cube through the selected algorithm of a catalog. `progress` counts the twists
that have been turned; the cube stands where undoing the others has brought it. Every operation
gives a `Step`: the player afterwards, what the cube was told, and the writes that were tried. The
operations here try none; those that need a store are operations of a `Session`.
-/

namespace CubeTrainer

structure Player where
  config : Config
  catalog : Catalog
  position : Position
  actions : List Twist
  /-- How many of them have been turned. -/
  progress : Nat
  /-- Whether the next twist follows as soon as one is turned. -/
  playing : Bool
deriving DecidableEq, Inhabited

/-- What an operation does. -/
structure Step where
  player : Player
  calls : List Call
  writes : List Write
  /-- The entry whose text was changed, if one was. -/
  edited : Option Position
deriving DecidableEq

namespace Step

def quiet (p : Player) : Step := ⟨p, [], [], none⟩

def tell (p : Player) (calls : List Call) : Step := ⟨p, calls, [], none⟩

def andThen (s : Step) (next : Player → Step) : Step :=
  let t := next s.player
  ⟨t.player, s.calls ++ t.calls, s.writes ++ t.writes, t.edited.or s.edited⟩

@[simp] theorem player_andThen (s : Step) (next : Player → Step) :
    (s.andThen next).player = (next s.player).player := rfl

@[simp] theorem calls_andThen (s : Step) (next : Player → Step) :
    (s.andThen next).calls = s.calls ++ (next s.player).calls := rfl

@[simp] theorem writes_andThen (s : Step) (next : Player → Step) :
    (s.andThen next).writes = s.writes ++ (next s.player).writes := rfl

@[simp] theorem quiet_andThen (p : Player) (next : Player → Step) :
    (quiet p).andThen next = next p := by
  simp [andThen, quiet]

theorem andThen_assoc (s : Step) (f g : Player → Step) :
    (s.andThen f).andThen g = s.andThen fun p => (f p).andThen g := by
  simp [andThen, Option.or_assoc]

end Step

namespace Player

def selected? (p : Player) : Option Entry := p.catalog.entryAt? p.position

def finished (p : Player) : Bool := p.progress = p.actions.length

/-- The strip of the selected group; nothing is stripped if there is none. -/
def strip (p : Player) : Strip :=
  match p.catalog.groupAt? p.position.group with
  | some g => g.strip
  | none => SortedMap.empty

/-! ### Parts of operations -/

/-- Starts or stops playing. The cube takes turns by hand only while nothing plays. -/
def setPlaying (playing : Bool) (p : Player) : Step :=
  if p.playing = playing then .quiet p
  else .tell { p with playing := playing } [.interactive !playing]

def advance (p : Player) : Step :=
  match p.actions[p.progress]? with
  | some t => .tell { p with progress := p.progress + 1 } [.turn t true]
  | none => .quiet p

def retreat (p : Player) : Step :=
  match p.actions[p.progress - 1]? with
  | some t => .tell { p with progress := p.progress - 1 } [.turn t.inverse true]
  | none => .quiet p

/-- Puts the cube at the start: the state from which the algorithm leads to the solved one. -/
def reposition (p : Player) : Step :=
  (p.setPlaying false).andThen fun p =>
    .tell { p with progress := 0 }
      (.finish :: .reset p.strip :: (invert p.actions).map fun t => .turn t false)

/-! ### Operations -/

def load (p : Player) : Step :=
  let text := match p.selected? with
    | some e => e.current
    | none => ""
  reposition { p with actions := Notation.parse text }

/-- Opens a catalog with the texts and the position that a store keeps. A position that is not in
the catalog counts as the first. -/
def openStored (config : Config) (store : Store) (catalog : Catalog) : Step :=
  let catalog := catalog.applyOverrides store config
  let kept := store.position config
  let position := if catalog.contains kept then kept else Position.first
  load ⟨config, catalog, position, [], 0, false⟩

/-- Turns the next twist and stops playing; nothing if none is left. -/
def stepForward (p : Player) : Step :=
  if p.finished then .quiet p else (p.setPlaying false).andThen advance

/-- Undoes the last twist and stops playing; nothing at the start. -/
def stepBackward (p : Player) : Step :=
  if p.progress = 0 then .quiet p else (p.setPlaying false).andThen retreat

/-- Takes notice that a turn has ended: plays on, or stops playing if no twist is left. -/
def onIdle (p : Player) : Step :=
  (if p.finished then p.setPlaying false else .quiet p).andThen fun p =>
    if p.playing then p.advance else .quiet p

/-- Stops playing, or starts it with the next twist. -/
def togglePlay (p : Player) : Step :=
  if p.playing then p.setPlaying false else (p.setPlaying true).andThen onIdle

/-- What a user, or the cube when a turn has ended, asks of a player. -/
inductive Command where
  | load
  | edit (text : String)
  | restoreDefault
  | stepForward
  | stepBackward
  | togglePlay
  | onIdle
  | select (position : Position)
  | selectGroup (group : Nat)
deriving DecidableEq

/-- Takes notice of ended turns, at most `fuel` of them, for as long as the player plays. -/
def playOutWithin : (fuel : Nat) → Player → Step
  | 0, p => .quiet p
  | fuel + 1, p => if p.playing then p.onIdle.andThen (playOutWithin fuel) else .quiet p

/-- How many ended turns it takes until the player no longer plays. -/
def turnsLeft (p : Player) : Nat :=
  if p.playing then p.actions.length - p.progress + 1 else 0

def playOut (p : Player) : Step := p.playOutWithin p.turnsLeft

end Player

end CubeTrainer
