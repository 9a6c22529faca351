import CubeTrainer.Datum

/-!
# Tables under construction

The tables of a TOML document while its lines are read. How a table came about decides what may
still be added: by its own header, as the parent of a longer header, or by a dotted key. `put`,
`openTable` and `openItem` refuse what would define something twice.
-/

namespace CubeTrainer.Toml

inductive Origin where
  | header
  | parent
  | dotted
deriving DecidableEq

inductive Node where
  | value (d : Datum)
  | table (origin : Origin) (entries : List (String × Node))
  /-- A list of tables with headers of their own, the last first. -/
  | tables (items : List (List (String × Node)))

abbrev Entries := List (String × Node)

namespace Entries

def replace (es : Entries) (key : String) (n : Node) : Entries :=
  es.map fun e => if e.1 = key then (key, n) else e

/-- Adds a new key after a dotted path. The tables on the path are new, or came about by dotted
keys; those that a header defines are closed to it. -/
def put (key : String) (n : Node) : (path : List String) → Entries → Option Entries
  | [], es => if es.any (·.1 = key) then none else some (es ++ [(key, n)])
  | p :: path, es =>
    match es.lookup p with
    | none => (put key n path []).map fun sub => es ++ [(p, .table .dotted sub)]
    | some (.table origin sub) =>
      if origin = .header ∨ (path = [] ∧ origin = .parent) then none
      else (put key n path sub).map fun sub => es.replace p (.table origin sub)
    | some (.tables (last :: before)) =>
      if path = [] then none
      else (put key n path last).map fun last => es.replace p (.tables (last :: before))
    | some _ => none

/-- Changes the table that a header's path leads to; in a list of tables it is the last. -/
def within (f : Entries → Option Entries) : (path : List String) → Entries → Option Entries
  | [], es => f es
  | p :: path, es =>
    match es.lookup p with
    | none => (within f path []).map fun sub => es ++ [(p, .table .parent sub)]
    | some (.table origin sub) =>
      (within f path sub).map fun sub => es.replace p (.table origin sub)
    | some (.tables (last :: before)) =>
      (within f path last).map fun last => es.replace p (.tables (last :: before))
    | some _ => none

def openTable (key : String) (es : Entries) : Option Entries :=
  match es.lookup key with
  | none => some (es ++ [(key, .table .header [])])
  | some (.table .parent sub) => some (es.replace key (.table .header sub))
  | some _ => none

def openItem (key : String) (es : Entries) : Option Entries :=
  match es.lookup key with
  | none => some (es ++ [(key, .tables [[]])])
  | some (.tables items) => some (es.replace key (.tables ([] :: items)))
  | some _ => none

end Entries

mutual

def Node.datum : Node → Datum
  | .value d => d
  | .table _ es => .record (fieldsOf es)
  | .tables items => .list (recordsOf items).reverse

def fieldsOf : List (String × Node) → List (Option String × Datum)
  | [] => []
  | (key, n) :: es => (some key, n.datum) :: fieldsOf es

def recordsOf : List (List (String × Node)) → List Datum
  | [] => []
  | es :: items => .record (fieldsOf es) :: recordsOf items

end

end CubeTrainer.Toml
