import CubeTrainer.Catalog.Basic
import CubeTrainer.Config

/-!
# Stores

A store maps keys to texts. It keeps the position last shown and the texts that the user edited,
under the keys of a config. Reading never fails: a record that is missing or malformed counts as
none. A write may be refused, and then the store stays as it was.
-/

namespace CubeTrainer

abbrev Store := SortedMap String

inductive StoreError where
  | unavailable
  | backend (message : String)
deriving DecidableEq

def StoreError.message : StoreError → String
  | .unavailable => "storage unavailable"
  | .backend message => "storage backend error: " ++ message

structure Write where
  key : String
  value : String
deriving DecidableEq, Inhabited

/-! ### Records -/

namespace Position

def json (p : Position) : String :=
  Json.record [("group", toString p.group), ("index", toString p.index)]

/-- A record of two numbers of 64 bits, neither left out. -/
def read (d : Datum) : Except ShapeError Position := do
  let fields ← d.readFields .json ["group", "index"]
  return {
    group := ← Datum.required fields "group" (Datum.readBelow UInt64.size)
    index := ← Datum.required fields "index" (Datum.readBelow UInt64.size) }

def ofJson (s : String) : Except ReadError Position :=
  Format.json.readAs read s

end Position

namespace Config

def positionWrite (c : Config) (p : Position) : Write := ⟨c.positionKey, p.json⟩

def overrideWrite (c : Config) (name text : String) : Write := ⟨c.overrideKey name, text⟩

end Config

namespace Store

/-! ### Reading -/

def position (s : Store) (c : Config) : Position :=
  match s.get? c.positionKey with
  | none => Position.first
  | some record =>
    match Position.ofJson record with
    | .ok p => p
    | .error _ => Position.first

/-- The edited text kept for the entries called `name`; an empty one counts as none. -/
def override? (s : Store) (c : Config) (name : String) : Option String :=
  (s.get? (c.overrideKey name)).filter fun text => !text.isEmpty

/-! ### Writing -/

def write (s : Store) (refusal : Option StoreError) (w : Write) : Except StoreError Store :=
  match refusal with
  | none => .ok (s.insert w.key w.value)
  | some e => .error e

end Store

/-- The catalog with every text in use replaced by the edited one that the store keeps for it. -/
def Catalog.applyOverrides (c : Catalog) (s : Store) (cfg : Config) : Catalog :=
  c.mapCurrent fun _ e => (s.override? cfg e.name).getD e.current

end CubeTrainer
