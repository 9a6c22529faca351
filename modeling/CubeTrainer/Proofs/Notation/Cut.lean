import CubeTrainer.Proofs.Notation.Scanning

/-!
# Where the cut falls

`parse` cuts the list of every open group at `maxTwists`, and not only its result. A group that is
repeated loses nothing by this, since what its body loses lies behind the cut of the result. A
group that is reversed does: its body is cut at the end and turned round after that, so that the
lost twists are the ones that come first. `Tree.expandCutAll` makes these cuts and no others, and
`parse_eq_take_expandCutAll` says that they are all that tells `parse` from the head of the whole
expansion. How many twists there are is never affected (`min_length_expandCutAll`).
-/

namespace CubeTrainer.Notation

namespace Tree

/-! ### Expansions -/

/-- What a group with this suffix takes of its body. -/
def reversible (body : List Twist) (suffix : Suffix) : List Twist :=
  if suffix.reverse then body.take maxTwists else body

mutual

/-- The twists of one item, none left out but those that the bodies of reversed groups have beyond
`maxTwists`. -/
def expandCut : Tree → List Twist
  | .turn layer suffix => turnTwists layer suffix
  | .group _ body suffix => applySuffix (reversible (expandCutAll body) suffix) suffix

def expandCutAll : List Tree → List Twist
  | [] => []
  | t :: ts => expandCut t ++ expandCutAll ts

end

mutual

/-- Whether no group in the tree reverses a body of more than `maxTwists` twists. -/
def reversalsFit : Tree → Bool
  | .turn _ _ => true
  | .group _ body suffix =>
    (!suffix.reverse || (expandAll body).length ≤ maxTwists) && reversalsFitAll body

def reversalsFitAll : List Tree → Bool
  | [] => true
  | t :: ts => reversalsFit t && reversalsFitAll ts

end

/-! ### Cut bodies -/

theorem length_applySuffix (body : List Twist) (suffix : Suffix) :
    (applySuffix body suffix).length = suffix.count * body.length := by
  have hbody : (if suffix.reverse then invert body else body).length = body.length := by
    split
    · exact length_invert body
    · rfl
  rw [applySuffix, List.length_flatten, List.map_replicate, List.sum_replicate_nat, hbody]

theorem take_replicate_take {α : Type} (n k : Nat) (body : List α) :
    (List.replicate k (body.take n)).flatten.take n = (List.replicate k body).flatten.take n := by
  induction k with
  | zero => rfl
  | succ k ih =>
    rw [List.replicate_succ, List.replicate_succ, List.flatten_cons, List.flatten_cons,
      take_take_append, ← take_append_take, ih, take_append_take]

theorem take_applySuffix_take (body : List Twist) (suffix : Suffix) :
    (applySuffix (body.take maxTwists) suffix).take maxTwists =
      (applySuffix (reversible body suffix) suffix).take maxTwists := by
  unfold applySuffix reversible
  cases suffix.reverse with
  | true => rfl
  | false => exact take_replicate_take maxTwists suffix.count body

mutual

theorem take_value : (t : Tree) → (value t).take maxTwists = (expandCut t).take maxTwists
  | .turn _ _ => rfl
  | .group _ body suffix => by
    rw [value, List.take_take, Nat.min_self, valueAll_eq_take body, take_applySuffix_take]
    rfl

/-- The value of a list of items is the head of their expansion with reversed bodies cut. -/
theorem valueAll_eq_take : (ts : List Tree) → valueAll ts = (expandCutAll ts).take maxTwists
  | [] => rfl
  | t :: ts => by
    rw [valueAll, valueAll_eq_take ts, take_append_take, ← take_take_append, take_value t,
      take_take_append]
    rfl

end

/-! ### How much the cuts leave -/

theorem min_length_reversible (body : List Twist) (suffix : Suffix) :
    min maxTwists (reversible body suffix).length = min maxTwists body.length := by
  unfold reversible
  split
  · rw [List.length_take, ← Nat.min_assoc, Nat.min_self]
  · rfl

theorem min_mul_eq {n a b : Nat} (h : min n a = min n b) (k : Nat) :
    min n (k * a) = min n (k * b) := by
  by_cases hlt : a < n
  · have hab : a = b := by omega
    rw [hab]
  · rcases Nat.eq_zero_or_pos k with rfl | hk
    · rw [Nat.zero_mul, Nat.zero_mul]
    · have ha := Nat.le_mul_of_pos_left a hk
      have hb := Nat.le_mul_of_pos_left b hk
      omega

mutual

theorem min_length_expandCut :
    (t : Tree) → min maxTwists (expandCut t).length = min maxTwists (expand t).length
  | .turn _ _ => rfl
  | .group _ body suffix => by
    have hbody : min maxTwists (reversible (expandCutAll body) suffix).length =
        min maxTwists (expandAll body).length :=
      (min_length_reversible _ suffix).trans (min_length_expandCutAll body)
    rw [expandCut, expand, length_applySuffix, length_applySuffix]
    exact min_mul_eq hbody suffix.count

/-- The cuts of reversed bodies leave as many twists within `maxTwists` as there are. -/
theorem min_length_expandCutAll :
    (ts : List Tree) → min maxTwists (expandCutAll ts).length = min maxTwists (expandAll ts).length
  | [] => rfl
  | t :: ts => by
    have ht := min_length_expandCut t
    have hts := min_length_expandCutAll ts
    rw [expandCutAll, expandAll, List.length_append, List.length_append]
    omega

end

/-! ### Bodies that fit -/

mutual

theorem expandCut_eq_expand : (t : Tree) → t.reversalsFit = true → expandCut t = expand t
  | .turn _ _, _ => rfl
  | .group _ body suffix, h => by
    rw [reversalsFit, Bool.and_eq_true, Bool.or_eq_true] at h
    obtain ⟨hfit, hinside⟩ := h
    have hbody : reversible (expandAll body) suffix = expandAll body := by
      unfold reversible
      rcases hfit with hforward | hshort
      · rw [if_neg (by simpa using hforward)]
      · rw [List.take_of_length_le (of_decide_eq_true hshort)]
        exact ite_self _
    rw [expandCut, expand, expandCutAll_eq_expandAll body hinside, hbody]

theorem expandCutAll_eq_expandAll :
    (ts : List Tree) → reversalsFitAll ts = true → expandCutAll ts = expandAll ts
  | [], _ => rfl
  | t :: ts, h => by
    rw [reversalsFitAll, Bool.and_eq_true] at h
    rw [expandCutAll, expandAll, expandCut_eq_expand t h.1, expandCutAll_eq_expandAll ts h.2]

end

end Tree

/-! ### Texts -/

theorem parse_eq_take_expandCutAll (s : String) :
    parse s = (Tree.expandCutAll (Tree.scan none s.toList).items).take maxTwists := by
  rw [parse_eq_valueAll_read, read_eq_scan, Tree.valueAll_eq_take]

/-- A text stands for the head of its whole expansion but for the heads of reversed groups that
are too long: as many twists as the cut allows in any case, and the first ones if every reversed
body fits. -/
theorem parse_eq_head (s : String) :
    parse s = (Tree.expandCutAll (Tree.scan none s.toList).items).take maxTwists ∧
      (parse s).length = min maxTwists (Tree.expandAll (Tree.scan none s.toList).items).length ∧
      (Tree.reversalsFitAll (Tree.scan none s.toList).items = true →
        parse s = (Tree.expandAll (Tree.scan none s.toList).items).take maxTwists) := by
  have hparse := parse_eq_take_expandCutAll s
  refine ⟨hparse, ?_, fun hfit => ?_⟩
  · rw [hparse, List.length_take, Tree.min_length_expandCutAll]
  · rw [hparse, Tree.expandCutAll_eq_expandAll _ hfit]

/-- The copies of the outer group run past the cut; the group that is reversed is short. -/
theorem parse_eq_head_repeated :
    Tree.reversalsFitAll (Tree.scan none "((R U)2'F)3000".toList).items = true ∧
      parse "((R U)2'F)3000" =
        (Tree.expandAll (Tree.scan none "((R U)2'F)3000".toList).items).take maxTwists := by
  have hfit : Tree.reversalsFitAll (Tree.scan none "((R U)2'F)3000".toList).items = true := by
    decide +kernel
  exact ⟨hfit, (parse_eq_head "((R U)2'F)3000").2.2 hfit⟩

/-- A reversed group with one twist too many loses the twist that its expansion begins with. -/
theorem parse_ne_head_reversed :
    parse "((R)4096U)'" ≠
      (Tree.expandAll (Tree.scan none "((R)4096U)'".toList).items).take maxTwists := by
  have hparse : (parse "((R)4096U)'").head? = some ⟨"R", true, 1⟩ := by
    rw [parse_eq_take_expandCutAll]
    decide +kernel
  have hwhole : ((Tree.expandAll (Tree.scan none "((R)4096U)'".toList).items).take
      maxTwists).head? = some ⟨"U", true, 1⟩ := by
    decide +kernel
  intro h
  rw [h, hwhole] at hparse
  exact absurd hparse (by decide)

end CubeTrainer.Notation
