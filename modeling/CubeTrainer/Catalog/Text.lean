import CubeTrainer.Catalog.Basic
import CubeTrainer.Format
import CubeTrainer.Json.Writer
import CubeTrainer.Text.Quoted

/-!
# Catalogs as texts

A catalog is read from a JSON list of groups, or from the field `groups` of a TOML document, and
written as JSON. The text in use of an entry may be read but is never written.
-/

namespace CubeTrainer

def CatalogError.message : CatalogError → String
  | .malformed .json reason => "malformed catalog json: " ++ reason
  | .malformed .toml reason => "malformed catalog toml: " ++ reason
  | .duplicateName group name =>
    "duplicate algorithm name " ++ Text.quoted name ++ " in group " ++ toString group

/-! ### Reading -/

def readSticker (d : Datum) : Except ShapeError UInt32 :=
  (d.readBelow UInt32.size).map UInt32.ofNat

/-- A record of stickers by face; of two fields for one face the last counts. -/
def Strip.read : Datum → Except ShapeError Strip
  | .record fields => do
    let faces ← (← Datum.readKeys fields).mapM fun (face, d) =>
      (d.readList readSticker).map (face, ·)
    return SortedMap.ofList faces
  | _ => .error (.wrongKind .record)

def Entry.read (format : Format) (d : Datum) : Except ShapeError Entry := do
  let fields ← d.readFields format ["name", "default", "exp"]
  return {
    name := ← Datum.required fields "name" Datum.readText
    authored := ← Datum.required fields "default" Datum.readText
    current := ← Datum.optional fields "exp" "" Datum.readText }

def Group.read (format : Format) (d : Datum) : Except ShapeError Group := do
  let fields ← d.readFields format ["name", "strip", "algs"]
  return {
    name := ← Datum.optional fields "name" "" Datum.readText
    strip := ← Datum.optional fields "strip" SortedMap.empty Strip.read
    entries := ← Datum.required fields "algs" (Datum.readList (Entry.read format)) }

/-- The groups of a catalog: in JSON the whole datum, in TOML its field `groups`. -/
def readGroups (format : Format) (d : Datum) : Except ShapeError (List Group) :=
  match format with
  | .json => d.readList (Group.read format)
  | .toml => do
    let fields ← d.readFields format ["groups"]
    Datum.required fields "groups" (Datum.readList (Group.read format))

def Catalog.ofText (format : Format) (s : String) : Except CatalogError Catalog :=
  match format.readAs (readGroups format) s with
  | .error e => .error (.malformed format e.message)
  | .ok groups => Catalog.ofGroups groups

/-! ### Writing -/

def Strip.json (s : Strip) : String :=
  Json.record (s.entries.map fun (face, stickers) =>
    (face, Json.list (stickers.map fun n => toString n.toNat)))

def Entry.json (e : Entry) : String :=
  Json.record [("name", Json.quote e.name), ("default", Json.quote e.authored)]

def Group.json (g : Group) : String :=
  Json.record [("name", Json.quote g.name), ("strip", Strip.json g.strip),
    ("algs", Json.list (g.entries.map Entry.json))]

def Catalog.json (c : Catalog) : String :=
  Json.list (c.groups.map Group.json)

end CubeTrainer
