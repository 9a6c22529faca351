import CubeTrainer.Json.Reader
import CubeTrainer.Toml.Document

/-!
# Reading a text in a given format
-/

namespace CubeTrainer.Format

def read : Format → String → Option Datum
  | .json => Json.read
  | .toml => Toml.read

def readAs {α : Type} (format : Format) (interpret : Datum → Except ShapeError α) (s : String) :
    Except ReadError α :=
  match format.read s with
  | none => .error .syntaxError
  | some d => (interpret d).mapError .shape

end CubeTrainer.Format
