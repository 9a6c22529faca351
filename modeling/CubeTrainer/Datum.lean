/-!
# Data as a text carries it

`Datum` is what a JSON or TOML text says before anyone asks what it means. The functions here read
texts, numbers, lists and records out of it; a record may be written with field names, or as a list
of its fields in a fixed order. `ShapeError` gives the reason when a datum has another shape.
-/

namespace CubeTrainer

inductive Format where
  | json
  | toml
deriving DecidableEq

inductive Datum where
  /-- A value that nothing here is made from: null, a number with a sign or a point, a date. -/
  | other
  | bool (b : Bool)
  | natural (n : Nat)
  /-- A string; `none` if it holds one half of a surrogate pair alone, which no text can. -/
  | text (s : Option String)
  | list (items : List Datum)
  | record (fields : List (Option String × Datum))

inductive Kind where
  | bool
  | natural
  | text
  | list
  | record
deriving DecidableEq

inductive ShapeError where
  | wrongKind (wanted : Kind)
  | missing (field : String)
  | repeated (field : String)
  | tooLong
  | outOfRange (n : Nat)
  | brokenText
deriving DecidableEq

def Kind.message : Kind → String
  | .bool => "true or false"
  | .natural => "a whole number"
  | .text => "a string"
  | .list => "a list"
  | .record => "a record"

def ShapeError.message : ShapeError → String
  | .wrongKind wanted => "expected " ++ wanted.message
  | .missing field => "missing field " ++ field
  | .repeated field => "repeated field " ++ field
  | .tooLong => "more items than fields"
  | .outOfRange n => "number out of range: " ++ toString n
  | .brokenText => "half of a surrogate pair"

namespace Datum

def readText : Datum → Except ShapeError String
  | .text (some s) => .ok s
  | .text none => .error .brokenText
  | _ => .error (.wrongKind .text)

def readBool : Datum → Except ShapeError Bool
  | .bool b => .ok b
  | _ => .error (.wrongKind .bool)

def readBelow (bound : Nat) : Datum → Except ShapeError Nat
  | .natural n => if n < bound then .ok n else .error (.outOfRange n)
  | _ => .error (.wrongKind .natural)

def readList {α : Type} (item : Datum → Except ShapeError α) : Datum → Except ShapeError (List α)
  | .list items => items.mapM item
  | _ => .error (.wrongKind .list)

/-- The fields of a record whose keys are all texts. -/
def readKeys (fields : List (Option String × Datum)) :
    Except ShapeError (List (String × Datum)) :=
  fields.mapM fun
    | (some key, d) => .ok (key, d)
    | (none, _) => .error .brokenText

/-- The fields of a record that has the fields `names`, in order. Names that it does not know are
left for the reader to pass over, but none it knows may come twice. Written as a list, the items
are the fields in order; JSON allows no more items than fields, TOML passes over the rest. -/
def readFields (format : Format) (names : List String) :
    Datum → Except ShapeError (List (String × Datum))
  | .list items =>
    if format = .json ∧ names.length < items.length then .error .tooLong
    else .ok (names.zip items)
  | .record fields => do
    let fields ← readKeys fields
    match names.find? fun name => 1 < fields.countP (·.1 = name) with
    | some name => .error (.repeated name)
    | none => .ok fields
  | _ => .error (.wrongKind .record)

def required {α : Type} (fields : List (String × Datum)) (name : String)
    (read : Datum → Except ShapeError α) : Except ShapeError α :=
  match fields.lookup name with
  | some d => read d
  | none => .error (.missing name)

def optional {α : Type} (fields : List (String × Datum)) (name : String) (fallback : α)
    (read : Datum → Except ShapeError α) : Except ShapeError α :=
  match fields.lookup name with
  | some d => read d
  | none => .ok fallback

end Datum

/-- Why a text gives no value: it is not well-formed, or says something of another shape. -/
inductive ReadError where
  | syntaxError
  | shape (e : ShapeError)
deriving DecidableEq

def ReadError.message : ReadError → String
  | .syntaxError => "not well-formed"
  | .shape e => e.message

end CubeTrainer
