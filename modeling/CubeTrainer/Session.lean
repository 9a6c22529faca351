import CubeTrainer.Player

/-!
# Sessions

A player together with the store it was opened from. An edit writes the text to the store and a
selection the position. The store may refuse, and the player goes on in any case.
-/

namespace CubeTrainer

structure Session where
  player : Player
  store : Store

namespace Session

/-- Opens a catalog on a store, and tells the cube about it. -/
def start (config : Config) (store : Store) (catalog : Catalog) : Session × List Call :=
  let step := Player.openStored config store catalog
  (⟨step.player, store⟩, step.calls)

/-! ### Parts of operations -/

/-- An operation of the player that needs no store. -/
def play (op : Player → Step) (s : Session) : Session × Step :=
  let step := op s.player
  ({ s with player := step.player }, step)

def write (refusal : Option StoreError) (w : Write) (s : Session) : Except StoreError Session := do
  let store ← s.store.write refusal w
  return { s with store := store }

/-! ### Operations -/

/-- Changes the text of the selected entry, in the store if that is possible, and goes to its start;
nothing if there is no entry. -/
def edit (refusal : Option StoreError) (text : String) (s : Session) : Session × Step :=
  let p := s.player
  match p.selected? with
  | none => (s, .quiet p)
  | some e =>
    let w := p.config.overrideWrite e.name text
    let edited := { s with player := { p with catalog := p.catalog.set p.position text } }
    let kept := match edited.write refusal w with
      | .ok kept => kept
      -- The text is in use also where it is not kept.
      | .error _ => edited
    let (next, step) := kept.play fun p =>
      Player.reposition { p with actions := Notation.parse text }
    (next, { step with writes := [w], edited := some p.position })

def restoreDefault (refusal : Option StoreError) (s : Session) : Session × Step :=
  match s.player.selected? with
  | none => (s, .quiet s.player)
  | some e => s.edit refusal e.authored

/-- Goes to the start of another entry, and keeps its position in the store if that is possible;
nothing if there is no such entry. -/
def select (refusal : Option StoreError) (position : Position) (s : Session) : Session × Step :=
  let p := s.player
  if p.catalog.contains position then
    let w := p.config.positionWrite position
    let moved := { s with player := { p with position := position } }
    let (loaded, step) := moved.play Player.load
    let kept := match loaded.write refusal w with
      | .ok kept => kept
      | .error _ => loaded
    (kept, { step with writes := [w] })
  else (s, .quiet p)

/-- Goes to the first entry of another group, or to the start of the entry selected. -/
def selectGroup (refusal : Option StoreError) (group : Nat) (s : Session) : Session × Step :=
  if group = s.player.position.group then s.play Player.load else s.select refusal ⟨group, 0⟩

def perform (s : Session) (refusal : Option StoreError) : Player.Command → Session × Step
  | .load => s.play Player.load
  | .edit text => s.edit refusal text
  | .restoreDefault => s.restoreDefault refusal
  | .stepForward => s.play Player.stepForward
  | .stepBackward => s.play Player.stepBackward
  | .togglePlay => s.play Player.togglePlay
  | .onIdle => s.play Player.onIdle
  | .select position => s.select refusal position
  | .selectGroup group => s.selectGroup refusal group

/-! ### Runs -/

/-- A command, and whether the store refuses what it writes. -/
structure Request where
  refusal : Option StoreError
  command : Player.Command
deriving DecidableEq

def performAll : List Request → Session → Session × Step
  | [], s => (s, .quiet s.player)
  | r :: rs, s =>
    let next := s.perform r.refusal r.command
    let rest := performAll rs next.1
    (rest.1, next.2.andThen fun _ => rest.2)

/-- Opens a catalog on a store and carries out requests: the session they lead to, and everything
the cube was told. -/
def run (config : Config) (store : Store) (catalog : Catalog) (rs : List Request) :
    Session × List Call :=
  let opened := start config store catalog
  let rest := performAll rs opened.1
  (rest.1, opened.2 ++ rest.2.calls)

end Session

end CubeTrainer
