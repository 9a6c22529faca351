import CubeTrainer.Text.Digit

/-!
# Blanks, strings and keys of TOML

The lexical part of TOML 1.0: what separates tokens, the four kinds of strings, and dotted keys.
Each reader takes the text and gives what it read with the text after it.
-/

namespace CubeTrainer.Toml

/-! ### Blanks, lines and comments -/

def isBlank (c : Char) : Bool := c = ' ' || c = '\t'

def skipBlanks (cs : List Char) : List Char := cs.dropWhile isBlank

def isPlain (c : Char) : Bool :=
  c = '\t' || (0x20 ≤ c.toNat && c.toNat ≠ 0x7F)

def newline? : List Char → Option (List Char)
  | '\n' :: cs => some cs
  | '\r' :: '\n' :: cs => some cs
  | _ => none

/-- Skips blanks, line ends and comments; `inComment` tells whether the text starts inside one. -/
def skipLines (inComment : Bool) : List Char → List Char
  | [] => []
  | '\n' :: cs => skipLines false cs
  | '\r' :: '\n' :: cs => skipLines false cs
  | c :: cs =>
    if inComment then
      if isPlain c then skipLines true cs else c :: cs
    else if isBlank c then skipLines false cs
    else if c = '#' then skipLines true cs
    else c :: cs

/-- The text after the end of this line, if nothing but blanks and a comment come before it. -/
def endLine? (cs : List Char) : Option (List Char) :=
  let cs := match skipBlanks cs with
    | '#' :: cs => cs.dropWhile isPlain
    | cs => cs
  match cs with
  | [] => some []
  | cs => newline? cs

/-! ### Strings -/

/-- The character whose code point is written in hexadecimal, if there is one. -/
def scalar? (digits : List Char) : Option Char :=
  let n := Text.ofDigits 16 digits
  if digits.all (fun c => (Text.hexValue? c).isSome) ∧ n.isValidChar then some (Char.ofNat n)
  else none

def escaped? : Char → Option Char
  | '"' => some '"'
  | '\\' => some '\\'
  | 'b' => some '\x08'
  | 'f' => some '\x0c'
  | 'n' => some '\n'
  | 'r' => some '\r'
  | 't' => some '\t'
  | _ => none

def isBasicChar (c : Char) : Bool := isPlain c && c ≠ '"' && c ≠ '\\'

def isLiteralChar (c : Char) : Bool := isPlain c && c ≠ '\x27'

def basic (acc : List Char) : List Char → Option (String × List Char)
  | [] => none
  | '"' :: cs => some (String.ofList acc.reverse, cs)
  | '\\' :: 'u' :: a :: b :: c :: d :: cs =>
    match scalar? [a, b, c, d] with
    | some x => basic (x :: acc) cs
    | none => none
  | '\\' :: 'U' :: a :: b :: c :: d :: e :: f :: g :: h :: cs =>
    match scalar? [a, b, c, d, e, f, g, h] with
    | some x => basic (x :: acc) cs
    | none => none
  | '\\' :: c :: cs =>
    match escaped? c with
    | some x => basic (x :: acc) cs
    | none => none
  | c :: cs => if isBasicChar c then basic (c :: acc) cs else none

def literal (acc : List Char) : List Char → Option (String × List Char)
  | [] => none
  | '\x27' :: cs => some (String.ofList acc.reverse, cs)
  | c :: cs => if isLiteralChar c then literal (c :: acc) cs else none

/-- Three quote marks `q` end a string of several lines; up to two more before them belong to it. -/
def endMultiline (q : Char) (acc : List Char) : List Char → String × List Char
  | c :: d :: cs =>
    if c = q ∧ d = q then (String.ofList (q :: q :: acc).reverse, cs)
    else if c = q then (String.ofList (q :: acc).reverse, d :: cs)
    else (String.ofList acc.reverse, c :: d :: cs)
  | [c] =>
    if c = q then (String.ofList (q :: acc).reverse, []) else (String.ofList acc.reverse, [c])
  | [] => (String.ofList acc.reverse, [])

/-- The rest of a string between triple quotes. A backslash at the end of a line takes out the line
end and all blanks and line ends after it; `trim` tells whether the text starts among those. -/
def multilineBasic (trim : Bool) (acc : List Char) : List Char → Option (String × List Char)
  | [] => none
  | '"' :: '"' :: '"' :: cs => some (endMultiline '"' acc cs)
  | '\n' :: cs => if trim then multilineBasic true acc cs else multilineBasic false ('\n' :: acc) cs
  | '\r' :: '\n' :: cs =>
    if trim then multilineBasic true acc cs else multilineBasic false ('\n' :: acc) cs
  | '\\' :: 'u' :: a :: b :: c :: d :: cs =>
    match scalar? [a, b, c, d] with
    | some x => multilineBasic false (x :: acc) cs
    | none => none
  | '\\' :: 'U' :: a :: b :: c :: d :: e :: f :: g :: h :: cs =>
    match scalar? [a, b, c, d, e, f, g, h] with
    | some x => multilineBasic false (x :: acc) cs
    | none => none
  | '\\' :: c :: cs =>
    match escaped? c with
    | some x => multilineBasic false (x :: acc) cs
    | none =>
      if (newline? (skipBlanks (c :: cs))).isSome then multilineBasic true acc (c :: cs) else none
  | c :: cs =>
    if trim && isBlank c then multilineBasic true acc cs
    else if c = '"' || isBasicChar c then multilineBasic false (c :: acc) cs
    else none

def multilineLiteral (acc : List Char) : List Char → Option (String × List Char)
  | [] => none
  | '\x27' :: '\x27' :: '\x27' :: cs => some (endMultiline '\x27' acc cs)
  | '\n' :: cs => multilineLiteral ('\n' :: acc) cs
  | '\r' :: '\n' :: cs => multilineLiteral ('\n' :: acc) cs
  | c :: cs => if isPlain c then multilineLiteral (c :: acc) cs else none

/-- A string of any kind. A line end right after triple quotes is no part of it. -/
def string? : List Char → Option (String × List Char)
  | '"' :: '"' :: '"' :: cs => multilineBasic false [] ((newline? cs).getD cs)
  | '\x27' :: '\x27' :: '\x27' :: cs => multilineLiteral [] ((newline? cs).getD cs)
  | '"' :: cs => basic [] cs
  | '\x27' :: cs => literal [] cs
  | _ => none

/-! ### Keys -/

def isBareKeyChar (c : Char) : Bool := c.isAlphanum || c = '_' || c = '-'

def simpleKey? : List Char → Option (String × List Char)
  | '"' :: cs => basic [] cs
  | '\x27' :: cs => literal [] cs
  | cs =>
    match cs.takeWhile isBareKeyChar with
    | [] => none
    | key => some (String.ofList key, cs.dropWhile isBareKeyChar)

/-- The parts of a dotted key, of at most `room` parts, with blanks around each. -/
def keyPath? : (room : Nat) → List Char → Option (List String × List Char)
  | 0, _ => none
  | room + 1, cs =>
    match simpleKey? (skipBlanks cs) with
    | none => none
    | some (key, cs) =>
      match skipBlanks cs with
      | '.' :: cs => (keyPath? room cs).map fun (keys, cs) => (key :: keys, cs)
      | cs => some ([key], cs)

/-- How many levels of keys or of lists and tables one value or header may have. -/
def maxDepth : Nat := 79

end CubeTrainer.Toml
