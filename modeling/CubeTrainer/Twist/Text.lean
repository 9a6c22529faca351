import CubeTrainer.Format
import CubeTrainer.Twist

/-!
# Twists as JSON records
-/

namespace CubeTrainer

/-- A twist as a record of its layer, its sense and its count of 32 bits, none left out. -/
def Twist.read (d : Datum) : Except ShapeError Twist := do
  let fields ← d.readFields .json ["exp", "reverse", "times"]
  return {
    layer := ← Datum.required fields "exp" Datum.readText
    reverse := ← Datum.required fields "reverse" Datum.readBool
    times := ← Datum.required fields "times" (Datum.readBelow UInt32.size) }

def twistsOfJson (s : String) : Except ReadError (List Twist) :=
  Format.json.readAs (Datum.readList Twist.read) s

end CubeTrainer
