import CubeTrainer.Text.DefaultIgnorable
import CubeTrainer.Text.GraphemeExtend
import CubeTrainer.Text.Unprintable

/-!
# Quoted names

How a name is shown in a message: between quotes, with every character that would not show up on
its own written as an escape, so that the message tells any two names apart.
-/

namespace CubeTrainer.Text

/-- The halfwidth sound marks of Japanese extend a grapheme, but take a cell of their own. -/
def isHalfwidthSoundMark (c : Char) : Bool :=
  c = '\uff9e' || c = '\uff9f'

/-- Whether a character would show nothing, or only on the character before it. -/
def isHidden (c : Char) : Bool :=
  isUnprintable c || isDefaultIgnorable c || (isGraphemeExtend c && !isHalfwidthSoundMark c)

def showChar (c : Char) : List Char :=
  match c with
  | '\x00' => ['\\', '0']
  | '\t' => ['\\', 't']
  | '\n' => ['\\', 'n']
  | '\r' => ['\\', 'r']
  | '"' => ['\\', '"']
  | '\\' => ['\\', '\\']
  | c =>
    if isHidden c then ['\\', 'u', '\x7b'] ++ Nat.toDigits 16 c.toNat ++ ['\x7d']
    else [c]

def quoted (s : String) : String :=
  String.ofList ('"' :: (s.toList.flatMap showChar ++ ['"']))

end CubeTrainer.Text
