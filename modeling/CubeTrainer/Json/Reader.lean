import CubeTrainer.Datum
import CubeTrainer.Text.Digit

/-!
# Reading JSON

A machine that takes a JSON text character by character, with the lists and records that are still
open on a stack, so that no nesting is too deep. `Json.read` gives the datum of a whole text, with
blanks and nothing else around it.
-/

namespace CubeTrainer.Json

def isBlank (c : Char) : Bool :=
  c = ' ' || c = '\t' || c = '\n' || c = '\r'

/-! ### Strings -/

/-- Where a string stands between two characters of the text. -/
inductive Escape where
  | outside
  | backslash
  /-- A code unit with this many hexadecimal digits to come. -/
  | unit (digits value : Nat)

/-- A string part way through. -/
structure Text where
  /-- The characters so far, last first; `none` once half of a surrogate pair stands alone. -/
  chars : Option (List Char)
  /-- The first half of a surrogate pair, if the second has to come next. -/
  high : Option Nat
  escape : Escape

namespace Text

def start : Text := ⟨some [], none, .outside⟩

def push (t : Text) (c : Char) : Text :=
  ⟨if t.high.isSome then none else t.chars.map (c :: ·), none, .outside⟩

def pushUnit (t : Text) (u : Nat) : Text :=
  let isHigh := 0xD800 ≤ u ∧ u < 0xDC00
  let isLow := 0xDC00 ≤ u ∧ u < 0xE000
  match t.high with
  | some h =>
    if isLow then
      let c := Char.ofNat (0x10000 + (h - 0xD800) * 0x400 + (u - 0xDC00))
      ⟨t.chars.map (c :: ·), none, .outside⟩
    else ⟨none, none, .outside⟩
  | none =>
    if isHigh then ⟨t.chars, some u, .outside⟩
    else if isLow then ⟨none, none, .outside⟩
    else ⟨t.chars.map (Char.ofNat u :: ·), none, .outside⟩

def escaped? : Char → Option Char
  | '"' => some '"'
  | '\\' => some '\\'
  | '/' => some '/'
  | 'b' => some '\x08'
  | 'f' => some '\x0c'
  | 'n' => some '\n'
  | 'r' => some '\r'
  | 't' => some '\t'
  | _ => none

/-- One more character of the text, other than the quote that ends the string. Control characters
have to be escaped. -/
def step (t : Text) (c : Char) : Option Text :=
  match t.escape with
  | .outside =>
    if c = '\\' then some { t with escape := .backslash }
    else if c.toNat < 0x20 then none
    else some (t.push c)
  | .backslash =>
    if c = 'u' then some { t with escape := .unit 4 0 }
    else (escaped? c).map t.push
  | .unit digits value =>
    match Text.hexValue? c with
    | none => none
    | some d =>
      if digits ≤ 1 then some (t.pushUnit (value * 16 + d))
      else some { t with escape := .unit (digits - 1) (value * 16 + d) }

def isClosedBy (t : Text) (c : Char) : Bool :=
  match t.escape with
  | .outside => c = '"'
  | _ => false

def finish (t : Text) : Option String :=
  if t.high.isSome then none else t.chars.map fun cs => String.ofList cs.reverse

end Text

/-! ### Numbers -/

/-- A number part way through, by the part it is in. -/
inductive Number where
  | sign
  | zero (negative : Bool)
  | whole (negative : Bool) (value : Nat)
  | point
  | fraction
  | mark
  | markSign
  | exponent

namespace Number

def start? (c : Char) : Option Number :=
  if c = '-' then some .sign
  else if c = '0' then some (.zero false)
  else if c.isDigit then some (.whole false (Text.decimalValue c))
  else none

def step (n : Number) (c : Char) : Option Number :=
  let isMark := c = 'e' ∨ c = 'E'
  match n with
  | .sign =>
    if c = '0' then some (.zero true)
    else if c.isDigit then some (.whole true (Text.decimalValue c))
    else none
  | .zero _ => if c = '.' then some .point else if isMark then some .mark else none
  | .whole negative value =>
    if c.isDigit then some (.whole negative (value * 10 + (Text.decimalValue c)))
    else if c = '.' then some .point
    else if isMark then some .mark
    else none
  | .point => if c.isDigit then some .fraction else none
  | .fraction => if c.isDigit then some .fraction else if isMark then some .mark else none
  | .mark =>
    if c = '+' ∨ c = '-' then some .markSign
    else if c.isDigit then some .exponent
    else none
  | .markSign => if c.isDigit then some .exponent else none
  | .exponent => if c.isDigit then some .exponent else none

def finish? : Number → Option Datum
  | .zero false => some (.natural 0)
  | .whole false value => some (.natural value)
  | .zero true => some .other
  | .whole true _ => some .other
  | .fraction => some .other
  | .exponent => some .other
  | _ => none

end Number

/-! ### The machine -/

inductive Frame where
  /-- The items so far, last first. -/
  | list (items : List Datum)
  /-- The fields so far, last first. -/
  | record (fields : List (Option String × Datum))
  /-- A record whose field `key` waits for its value. -/
  | field (fields : List (Option String × Datum)) (key : Option String)

inductive Mode where
  | value
  | key
  | keyText (t : Text)
  | colon
  | text (t : Text)
  | number (n : Number)
  /-- The rest of a word that stands for a datum. -/
  | word (rest : List Char) (d : Datum)
  | done (d : Datum)

structure Machine where
  mode : Mode
  frames : List Frame

namespace Machine

def start : Machine := ⟨.value, []⟩

/-- A value begins with `c`, or the list that is open ends before its first item. -/
def beginValue (frames : List Frame) (c : Char) : Option Machine :=
  match c with
  | '[' => some ⟨.value, .list [] :: frames⟩
  | '\x7b' => some ⟨.key, .record [] :: frames⟩
  | '"' => some ⟨.text Text.start, frames⟩
  | 't' => some ⟨.word "rue".toList (.bool true), frames⟩
  | 'f' => some ⟨.word "alse".toList (.bool false), frames⟩
  | 'n' => some ⟨.word "ull".toList .other, frames⟩
  | ']' =>
    match frames with
    | .list [] :: frames => some ⟨.done (.list []), frames⟩
    | _ => none
  | c => (Number.start? c).map fun n => ⟨.number n, frames⟩

/-- A key begins with `c`, or the record that is open ends before its first field. -/
def beginKey (frames : List Frame) (c : Char) : Option Machine :=
  match c, frames with
  | '"', frames => some ⟨.keyText Text.start, frames⟩
  | '\x7d', .record [] :: frames => some ⟨.done (.record []), frames⟩
  | _, _ => none

def endKey (key : Option String) : List Frame → Option Machine
  | .record fields :: frames => some ⟨.colon, .field fields key :: frames⟩
  | _ => none

def afterValue (d : Datum) (frames : List Frame) (c : Char) : Option Machine :=
  if isBlank c then some ⟨.done d, frames⟩
  else
    match frames with
    | .list items :: frames =>
      if c = ',' then some ⟨.value, .list (d :: items) :: frames⟩
      else if c = ']' then some ⟨.done (.list (d :: items).reverse), frames⟩
      else none
    | .field fields key :: frames =>
      if c = ',' then some ⟨.key, .record ((key, d) :: fields) :: frames⟩
      else if c = '\x7d' then some ⟨.done (.record ((key, d) :: fields).reverse), frames⟩
      else none
    | _ => none

def step (m : Machine) (c : Char) : Option Machine :=
  match m.mode with
  | .value => if isBlank c then some m else beginValue m.frames c
  | .key => if isBlank c then some m else beginKey m.frames c
  | .keyText t =>
    if t.isClosedBy c then endKey t.finish m.frames
    else (t.step c).map fun t => { m with mode := .keyText t }
  | .colon =>
    if isBlank c then some m
    else if c = ':' then some { m with mode := .value }
    else none
  | .text t =>
    if t.isClosedBy c then some { m with mode := .done (.text t.finish) }
    else (t.step c).map fun t => { m with mode := .text t }
  | .number n =>
    match n.step c with
    | some n => some { m with mode := .number n }
    | none => n.finish?.bind fun d => afterValue d m.frames c
  | .word [] d => afterValue d m.frames c
  | .word (w :: rest) d => if c = w then some { m with mode := .word rest d } else none
  | .done d => afterValue d m.frames c

def finish? (m : Machine) : Option Datum :=
  match m.frames, m.mode with
  | [], .done d => some d
  | [], .number n => n.finish?
  | [], .word [] d => some d
  | _, _ => none

def run (m : Machine) (cs : List Char) : Option Machine :=
  cs.foldlM step m

theorem run_append (m : Machine) (cs ds : List Char) :
    m.run (cs ++ ds) = (m.run cs).bind (·.run ds) := by
  simp [run, List.foldlM_append, Option.bind_eq_bind]

end Machine

def read (s : String) : Option Datum :=
  (Machine.start.run s.toList).bind Machine.finish?

end CubeTrainer.Json
