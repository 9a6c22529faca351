import CubeTrainer.Toml.Text
import CubeTrainer.Toml.Scalar
import CubeTrainer.Toml.Table

/-!
# TOML documents

Values, then the lines of a document: headers, and keys with their values. `Toml.read` gives the
datum of a whole text.
-/

namespace CubeTrainer.Toml

/-! ### Values -/

abbrev ValueReader := List Char → Option (Datum × List Char)

/-- The items of a list up to its closing bracket; `acc` holds those before, last first. Blanks,
line ends and comments may stand around an item, and a comma after the last one. Every item takes
a character at least, so `fuel` lasts if it is the length of the text. -/
def listItems (value : ValueReader) : (fuel : Nat) → (acc : List Datum) → ValueReader
  | 0, _, _ => none
  | fuel + 1, acc, cs =>
    match skipLines false cs with
    | ']' :: rest => some (.list acc.reverse, rest)
    | cs =>
      match value cs with
      | none => none
      | some (d, rest) =>
        match skipLines false rest with
        | ']' :: rest => some (.list (d :: acc).reverse, rest)
        | ',' :: rest => listItems value fuel (d :: acc) rest
        | _ => none

def keyValue (value : ValueReader) (cs : List Char) : Option (List String × Datum × List Char) :=
  match keyPath? maxDepth cs with
  | some (path, '=' :: rest) => (value (skipBlanks rest)).map (path, ·)
  | _ => none

def putPath (path : List String) (d : Datum) (es : Entries) : Option Entries :=
  match path.getLast? with
  | some key => es.put key (.value d) path.dropLast
  | none => none

/-- The fields of a table on one line, from its first key to its closing brace; `fuel` bounds their
number. -/
def inlineFields (value : ValueReader) : (fuel : Nat) → (es : Entries) → ValueReader
  | 0, _, _ => none
  | fuel + 1, es, cs =>
    match keyValue value cs with
    | none => none
    | some (path, d, rest) =>
      match putPath path d es with
      | none => none
      | some es =>
        match skipBlanks rest with
        | '\x7d' :: rest => some (.record (fieldsOf es), rest)
        | ',' :: rest => inlineFields value fuel es rest
        | _ => none

/-- A value in which lists and tables nest at most `room` deep, each of at most `fuel` items. -/
def value (fuel : Nat) : (room : Nat) → ValueReader
  | 0, '[' :: _ => none
  | 0, '\x7b' :: _ => none
  | room + 1, '[' :: cs => listItems (value fuel room) fuel [] cs
  | room + 1, '\x7b' :: cs =>
    match skipBlanks cs with
    | '\x7d' :: rest => some (.record [], rest)
    | cs => inlineFields (value fuel room) fuel [] cs
  | _, '"' :: cs => (string? ('"' :: cs)).map fun (s, rest) => (.text (some s), rest)
  | _, '\x27' :: cs => (string? ('\x27' :: cs)).map fun (s, rest) => (.text (some s), rest)
  | _, cs => scalar cs

/-! ### Lines -/

structure Draft where
  root : Entries
  table : List String

/-- One header, or one key with its value, and the text after its line. -/
def line (fuel : Nat) (d : Draft) : List Char → Option (Draft × List Char)
  | '[' :: '[' :: cs =>
    match keyPath? maxDepth cs with
    | some (path, ']' :: ']' :: rest) => do
      let root ← d.root.within (Entries.openItem (path.getLast?.getD "")) path.dropLast
      return (⟨root, path⟩, ← endLine? rest)
    | _ => none
  | '[' :: cs =>
    match keyPath? maxDepth cs with
    | some (path, ']' :: rest) => do
      let root ← d.root.within (Entries.openTable (path.getLast?.getD "")) path.dropLast
      return (⟨root, path⟩, ← endLine? rest)
    | _ => none
  | cs => do
    let (path, v, rest) ← keyValue (value fuel maxDepth) cs
    let root ← d.root.within (putPath path v) d.table
    return (⟨root, d.table⟩, ← endLine? rest)

/-- The lines of a document from `cs` on. Every line takes a character at least, so `fuel` lasts if
it is above the number of characters, and `size` for the lists of a line if it is not below. -/
def lines (size : Nat) : (fuel : Nat) → Draft → List Char → Option Entries
  | 0, _, _ => none
  | fuel + 1, d, cs =>
    match skipLines false cs with
    | [] => some d.root
    | cs =>
      match line size d cs with
      | none => none
      | some (d, rest) => lines size fuel d rest

/-- The datum that a TOML text says. A byte order mark may come first. -/
def read (s : String) : Option Datum :=
  let cs := match s.toList with
    | '\ufeff' :: cs => cs
    | cs => cs
  (lines cs.length (cs.length + 1) ⟨[], []⟩ cs).map fun es => .record (fieldsOf es)

end CubeTrainer.Toml
