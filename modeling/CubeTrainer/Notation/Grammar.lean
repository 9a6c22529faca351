import CubeTrainer.Notation.Tree

/-!
# Grammar

What an algorithm text says, character by character, with neither tokens nor a stack.
`Suffix.stated` is the meaning of a run of suffix characters, `Tree.scan` that of a text.
-/

namespace CubeTrainer.Notation

/-- The product of the digit runs, one if there are none, and a reversal if the marks are odd in
number. -/
def Suffix.stated (cs : List Char) : Suffix :=
  ⟨clampCount (exactCount cs), cs.countP isMark % 2 = 1⟩

namespace Tree

/-- What a scan finds inside one group: its items, the suffix of the group, and the text after
it. -/
structure Scanned (cs : List Char) where
  items : List Tree
  suffix : Suffix
  rest : List Char
  rest_le : rest.length ≤ cs.length

/-- The items up to the bracket that closes the group `inner`, or up to the end if there is no such
bracket. A bracket opens a group; one that closes another group than `inner` is dropped, as is
every character that is no turn letter. A turn letter takes a `w` that follows at once and then,
like the bracket that closes `inner`, all suffix characters that follow. -/
def scan (inner : Option Bracket) : (cs : List Char) → Scanned cs
  | [] => ⟨[], Suffix.one, [], Nat.le_refl _⟩
  | c :: cs =>
    match opened? c, closed? c with
    | some b, _ =>
      let body := scan (some b) cs
      let more := scan inner body.rest
      ⟨.group b body.items body.suffix :: more.items, more.suffix, more.rest,
        Nat.le_succ_of_le (Nat.le_trans more.rest_le body.rest_le)⟩
    | none, some b =>
      if inner = some b then
        ⟨[], Suffix.stated (cs.takeWhile isSuffixChar), cs.dropWhile isSuffixChar,
          Nat.le_succ_of_le (length_dropWhile_le _ cs)⟩
      else
        let more := scan inner cs
        ⟨more.items, more.suffix, more.rest, Nat.le_succ_of_le more.rest_le⟩
    | none, none =>
      if isTurnLetter c then
        let layer := readLayer c cs
        have hle : (layer.2.dropWhile isSuffixChar).length ≤ cs.length :=
          Nat.le_trans (length_dropWhile_le _ layer.2) (length_readLayer_le c cs)
        let more := scan inner (layer.2.dropWhile isSuffixChar)
        ⟨.turn layer.1 (Suffix.stated (layer.2.takeWhile isSuffixChar)) :: more.items,
          more.suffix, more.rest, Nat.le_succ_of_le (Nat.le_trans more.rest_le hle)⟩
      else
        let more := scan inner cs
        ⟨more.items, more.suffix, more.rest, Nat.le_succ_of_le more.rest_le⟩
termination_by cs => cs.length
decreasing_by
  · exact Nat.lt_succ_self _
  · exact Nat.lt_succ_of_le body.rest_le
  · exact Nat.lt_succ_self _
  · exact Nat.lt_succ_of_le hle
  · exact Nat.lt_succ_self _

end Tree

end CubeTrainer.Notation
