import CubeTrainer.Datum
import CubeTrainer.Text.Digit

/-!
# Numbers, dates and words of TOML

A value without quotes or brackets is one word. `datum?` tells what the word says: true or false, a
whole number of 64 bits in one of four bases, a float, or a date or time.
-/

namespace CubeTrainer.Toml

def isWordChar (c : Char) : Bool :=
  c.isAlphanum || c = '_' || c = '+' || c = '-' || c = '.' || c = ':'

/-! ### Numbers -/

/-- The digits of a word of digits, in which an underscore may stand between any two. -/
def digits? (isDigit : Char → Bool) : List Char → Option (List Char)
  | [] => none
  | [c] => if isDigit c then some [c] else none
  | c :: '_' :: cs => if isDigit c then (digits? isDigit cs).map (c :: ·) else none
  | c :: cs => if isDigit c then (digits? isDigit cs).map (c :: ·) else none

def splitSign : List Char → Bool × List Char
  | '-' :: cs => (true, cs)
  | '+' :: cs => (false, cs)
  | cs => (false, cs)

/-- The digits of a decimal whole number, which does not start with a zero unless it is one. -/
def decimal? (cs : List Char) : Option (List Char) := do
  let ds ← digits? Char.isDigit cs
  if ds.length = 1 ∨ ds.head? ≠ some '0' then some ds else none

def signed? (negative : Bool) (n : Nat) : Option Datum :=
  if negative then
    if n = 0 then some (.natural 0) else if n ≤ Nat.pow 2 63 then some .other else none
  else if n < Nat.pow 2 63 then some (.natural n) else none

def integer? : List Char → Option Datum
  | '0' :: 'x' :: cs =>
    (digits? (fun c => (Text.hexValue? c).isSome) cs).bind fun ds =>
      signed? false (Text.ofDigits 16 ds)
  | '0' :: 'o' :: cs =>
    (digits? (fun c => '0' ≤ c && c ≤ '7') cs).bind fun ds => signed? false (Text.ofDigits 8 ds)
  | '0' :: 'b' :: cs =>
    (digits? (fun c => c = '0' || c = '1') cs).bind fun ds => signed? false (Text.ofDigits 2 ds)
  | cs =>
    let (negative, cs) := splitSign cs
    (decimal? cs).bind fun ds => signed? negative (Text.ofDigits 10 ds)

/-- Whether `m * 10 ^ e` rounds to infinity as a float of 64 bits. It does from
`2 ^ 1024 - 2 ^ 970` on, half a unit above the largest float. -/
def overflows (m : Nat) (e : Int) : Bool :=
  if m = 0 then false
  else
    let size : Int := (Nat.toDigits 10 m).length + e
    if size < 300 then false
    else if 320 < size then true
    else
      let bound := Nat.pow 2 1024 - Nat.pow 2 970
      if 0 ≤ e then bound ≤ m * Nat.pow 10 e.toNat else bound * Nat.pow 10 (-e).toNat ≤ m

def fraction? : List Char → Option (List Char × List Char)
  | '.' :: cs =>
    let isPart := fun c => c.isDigit || c = '_'
    (digits? Char.isDigit (cs.takeWhile isPart)).map fun ds => (ds, cs.dropWhile isPart)
  | cs => some ([], cs)

def exponent? : List Char → Option Int
  | [] => some 0
  | c :: cs =>
    if c = 'e' ∨ c = 'E' then
      let (negative, cs) := splitSign cs
      (digits? Char.isDigit cs).map fun ds =>
        if negative then -(Text.ofDigits 10 ds : Int) else Text.ofDigits 10 ds
    else none

/-- A float: infinite, no number, or decimal digits with a point or an exponent or both. A positive
one may not be too large. -/
def float? (cs : List Char) : Option Datum := do
  let (negative, cs) := splitSign cs
  if cs = "inf".toList ∨ cs = "nan".toList then return .other
  let isPart := fun c => c.isDigit || c = '_'
  let whole ← decimal? (cs.takeWhile isPart)
  let after := cs.dropWhile isPart
  if after.isEmpty then none
  let (part, rest) ← fraction? after
  let e ← exponent? rest
  if !negative && overflows (Text.ofDigits 10 (whole ++ part)) (e - part.length) then none
  else some .other

/-! ### Dates and times -/

/-- A number of two digits from `low` to `high`. -/
def twoDigits? (low high : Nat) : List Char → Option (Nat × List Char)
  | a :: b :: cs =>
    let n := Text.ofDigits 10 [a, b]
    if a.isDigit && b.isDigit && low ≤ n && n ≤ high then some (n, cs) else none
  | _ => none

def expect? (c : Char) : List Char → Option (List Char)
  | d :: cs => if c = d then some cs else none
  | [] => none

def daysIn (year month : Nat) : Nat :=
  if month = 2 then
    if year % 4 = 0 ∧ (year % 100 ≠ 0 ∨ year % 400 = 0) then 29 else 28
  else if month ∈ [4, 6, 9, 11] then 30
  else 31

def afterDate? (cs : List Char) : Option (List Char) := do
  let (century, cs) ← twoDigits? 0 99 cs
  let (year, cs) ← twoDigits? 0 99 cs
  let (month, cs) ← twoDigits? 1 12 (← expect? '-' cs)
  let (_, cs) ← twoDigits? 1 (daysIn (century * 100 + year) month) (← expect? '-' cs)
  return cs

def afterTime? (cs : List Char) : Option (List Char) := do
  let (_, cs) ← twoDigits? 0 23 cs
  let (_, cs) ← twoDigits? 0 59 (← expect? ':' cs)
  let (_, cs) ← twoDigits? 0 60 (← expect? ':' cs)
  match cs with
  | '.' :: cs => if (cs.head?.any Char.isDigit) then return cs.dropWhile Char.isDigit else none
  | cs => return cs

def isOffset : List Char → Bool
  | ['Z'] => true
  | ['z'] => true
  | c :: cs =>
    (c = '+' || c = '-') && (do
      let (_, cs) ← twoDigits? 0 23 cs
      let (_, cs) ← twoDigits? 0 59 (← expect? ':' cs)
      return cs.isEmpty).getD false
  | [] => false

def isDate (cs : List Char) : Bool := afterDate? cs = some []

def isDateTime (cs : List Char) : Bool :=
  match afterDate? cs with
  | some [] => true
  | some (c :: cs) =>
    (c = 'T' || c = 't' || c = ' ') &&
      match afterTime? cs with
      | some rest => rest.isEmpty || isOffset rest
      | none => false
  | none => afterTime? cs = some []

/-! ### Words -/

def datum? (word : List Char) : Option Datum :=
  if word = "true".toList then some (.bool true)
  else if word = "false".toList then some (.bool false)
  else if isDateTime word then some .other
  else
    match integer? word with
    | some d => some d
    | none => float? word

/-- Reads a word. A date goes on after one blank if a digit follows, since a time may come there. -/
def scalar (cs : List Char) : Option (Datum × List Char) :=
  let word := cs.takeWhile isWordChar
  let rest := cs.dropWhile isWordChar
  match rest with
  | ' ' :: c :: more =>
    if isDate word && c.isDigit then
      let time := (c :: more).takeWhile isWordChar
      (datum? (word ++ ' ' :: time)).map (·, (c :: more).dropWhile isWordChar)
    else (datum? word).map (·, rest)
  | rest => (datum? word).map (·, rest)

end CubeTrainer.Toml
