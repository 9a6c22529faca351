import CubeTrainer.Format
import CubeTrainer.Json.Writer

/-!
# Storage keys

Under which keys a store holds the last position and the edited texts.
-/

namespace CubeTrainer

structure Config where
  /-- The key of the record of the last position. -/
  positionKey : String
  /-- What comes before the name of an entry in the key of its edited text. -/
  overridePrefix : String
deriving DecidableEq

namespace Config

def standard : Config := ⟨"algs.index", "algs.exp."⟩

instance : Inhabited Config := ⟨standard⟩

def overrideKey (c : Config) (name : String) : String := c.overridePrefix ++ name

/-- A record of the two keys; one that is left out is the standard one. -/
def read (format : Format) (d : Datum) : Except ShapeError Config := do
  let fields ← d.readFields format ["position_key", "override_prefix"]
  return {
    positionKey := ← Datum.optional fields "position_key" standard.positionKey Datum.readText
    overridePrefix :=
      ← Datum.optional fields "override_prefix" standard.overridePrefix Datum.readText }

def ofText (format : Format) (s : String) : Except ReadError Config :=
  format.readAs (read format) s

def json (c : Config) : String :=
  Json.record [("position_key", Json.quote c.positionKey),
    ("override_prefix", Json.quote c.overridePrefix)]

end Config

end CubeTrainer
