import CubeTrainer.Proofs.Notation.Joining
import CubeTrainer.Proofs.Notation.RoundTrip
import Mathlib.Algebra.Group.Basic
import Mathlib.Algebra.BigOperators.Group.List.Basic
import Mathlib.GroupTheory.Perm.Fin

/-!
# Counts of turns

A turn is counted in words of 32 bits that stop at the largest one, and the count is then reduced to
at most four. Computed in words, with a failure wherever one would wrap, a turn comes out as it does
in numbers of any size (`Word.turn?_eq`). It is the twist that the exact count stands for, wherever
the turn stands in a text (`parse_atom`).
-/

namespace CubeTrainer

/-! ### Words -/

namespace Notation

theorem clampCount_add_left (m n : Nat) : clampCount (clampCount m + n) = clampCount (m + n) := by
  unfold clampCount
  omega

namespace Word

def saturate (n : Nat) : UInt32 := UInt32.ofNat (clampCount n)

def add (a b : UInt32) : UInt32 := saturate (a.toNat + b.toNat)

def mul (a b : UInt32) : UInt32 := saturate (a.toNat * b.toNat)

def sub? (a b : UInt32) : Option UInt32 := if b ≤ a then some (a - b) else none

/-- The sum, unless it is above the largest word. -/
def add? (a b : UInt32) : Option UInt32 :=
  if a.toNat + b.toNat ≤ maxCount then some (a + b) else none

theorem toNat_saturate (n : Nat) : (saturate n).toNat = clampCount n := by
  have hlt : clampCount n < 2 ^ 32 := Nat.lt_succ_of_le (clampCount_le n)
  rw [saturate, UInt32.toNat_ofNat', Nat.mod_eq_of_lt hlt]

theorem toNat_add_of_le {a b : UInt32} (h : a.toNat + b.toNat ≤ maxCount) :
    (a + b).toNat = a.toNat + b.toNat := by
  have hlt : a.toNat + b.toNat < 2 ^ 32 := Nat.lt_succ_of_le h
  rw [UInt32.toNat_add, Nat.mod_eq_of_lt hlt]

/-- A suffix part way through, its counts in words. -/
structure Partial where
  product : UInt32
  run : Option UInt32
  reverse : Bool

namespace Partial

def start : Partial := ⟨1, none, false⟩

def count (p : Partial) : UInt32 :=
  match p.run with
  | none => p.product
  | some n => mul p.product n

def push (p : Partial) (c : Char) : Partial :=
  if c.isDigit then
    let digit := UInt32.ofNat (Text.decimalValue c)
    { p with run := some (match p.run with
      | none => digit
      | some n => add (mul n 10) digit) }
  else
    ⟨p.count, none, p.reverse ^^ isMark c⟩

def toNat (p : Partial) : Suffix.Partial := ⟨p.product.toNat, p.run.map UInt32.toNat, p.reverse⟩

theorem toNat_count (p : Partial) : p.count.toNat = p.toNat.count := by
  obtain ⟨product, run, reverse⟩ := p
  cases run with
  | none => rfl
  | some n => exact toNat_saturate _

theorem toNat_digit {c : Char} (h : c.isDigit = true) :
    (UInt32.ofNat (Text.decimalValue c)).toNat = Text.decimalValue c ∧
      Text.decimalValue c ≤ 9 := by
  have hbounds := Char.isDigit_iff_toNat.1 h
  have hzero : '0'.toNat = 48 := rfl
  have hnine : '9'.toNat = 57 := rfl
  have hle : Text.decimalValue c ≤ 9 := by
    unfold Text.decimalValue
    omega
  exact ⟨by rw [UInt32.toNat_ofNat', Nat.mod_eq_of_lt (by omega)], hle⟩

theorem toNat_push (p : Partial) (c : Char) : (p.push c).toNat = p.toNat.push c := by
  by_cases hc : c.isDigit = true
  · obtain ⟨hdigit, hle⟩ := toNat_digit hc
    rw [push, if_pos hc, Suffix.Partial.push_digit hc]
    obtain ⟨product, run, reverse⟩ := p
    cases run with
    | none =>
      have hclamp : clampCount (0 * 10 + Text.decimalValue c) = Text.decimalValue c := by
        rw [Nat.zero_mul, Nat.zero_add]
        exact clampCount_of_le (Nat.le_trans hle (by decide))
      simp only [toNat, Option.map_none, Option.map_some, Option.getD_none, hdigit, hclamp]
    | some n =>
      have hadd : (add (mul n 10) (UInt32.ofNat (Text.decimalValue c))).toNat =
          clampCount (n.toNat * 10 + Text.decimalValue c) := by
        rw [add, toNat_saturate, mul, toNat_saturate, hdigit, clampCount_add_left]
        rfl
      simp only [toNat, Option.map_some, Option.getD_some, hadd]
  · rw [push, if_neg hc, Suffix.Partial.push_other hc, ← toNat_count]
    rfl

theorem toNat_foldl_push (p : Partial) (cs : List Char) :
    (cs.foldl push p).toNat = cs.foldl Suffix.Partial.push p.toNat := by
  induction cs generalizing p with
  | nil => rfl
  | cons c cs ih => rw [List.foldl_cons, List.foldl_cons, ih, toNat_push]

end Partial

/-- The number of quarter turns for a count, unless a step of it would wrap. -/
def reduceTurns? (n : UInt32) : Option UInt32 := (sub? n 1).bind fun m => add? (m % 4) 1

/-- The twists of a turn with a suffix, unless a step would wrap. -/
def turn? (layer : String) (suffix : List Char) : Option (List Twist) :=
  let p := suffix.foldl Partial.push Partial.start
  if 0 < p.count then
    (reduceTurns? p.count).map fun times => [⟨layer, p.reverse, times.toNat⟩]
  else some []

theorem reduceTurns?_of_pos {n : UInt32} (h : 0 < n) :
    ∃ m, reduceTurns? n = some m ∧ m.toNat = reduceTurns n.toNat := by
  have hone : (1 : UInt32) ≤ n := UInt32.le_iff_toNat_le.2 (UInt32.lt_iff_toNat_lt.1 h)
  have hsub : ((n - 1) % 4).toNat = (n.toNat - 1) % 4 := by
    rw [UInt32.toNat_mod, UInt32.toNat_sub_of_le n 1 hone]
    rfl
  have hsum : ((n - 1) % 4).toNat + (1 : UInt32).toNat ≤ maxCount := by
    rw [hsub]
    show (n.toNat - 1) % 4 + 1 ≤ 4294967295
    omega
  refine ⟨(n - 1) % 4 + 1, ?_, ?_⟩
  · rw [reduceTurns?, sub?, if_pos hone, Option.bind_some, add?, if_pos hsum]
  · rw [toNat_add_of_le hsum, hsub]
    rfl

/-- No step wraps, and the words lose nothing. -/
theorem turn?_eq (layer : String) (suffix : List Char) :
    turn? layer suffix = some (Tree.turnTwists layer (Suffix.ofChars suffix)) := by
  obtain ⟨p, hp⟩ : ∃ p, p = suffix.foldl Partial.push Partial.start := ⟨_, rfl⟩
  have hread : p.toNat = suffix.foldl Suffix.Partial.push Suffix.Partial.start := by
    rw [hp]
    exact Partial.toNat_foldl_push Partial.start suffix
  have hcount : (Suffix.ofChars suffix).count = p.count.toNat := by
    rw [Partial.toNat_count, hread]
    rfl
  have hreverse : (Suffix.ofChars suffix).reverse = p.reverse := by
    show (suffix.foldl Suffix.Partial.push Suffix.Partial.start).reverse = p.reverse
    rw [← hread]
    rfl
  rw [turn?, ← hp, Tree.turnTwists, hcount, hreverse]
  by_cases hpos : 0 < p.count
  · obtain ⟨m, hreduce, hm⟩ := reduceTurns?_of_pos hpos
    have hne : ¬ p.count.toNat = 0 := Nat.ne_of_gt (UInt32.lt_iff_toNat_lt.1 hpos)
    rw [if_pos hpos, if_neg hne, hreduce, Option.map_some, hm]
  · have hzero : p.count.toNat = 0 :=
      Nat.eq_zero_of_not_pos fun h => hpos (UInt32.lt_iff_toNat_lt.2 h)
    rw [if_neg hpos, if_pos hzero]

end Word

/-! ### Atoms -/

/-- A turn with this suffix does not go on in `rest`, where a `w` can only follow the letter. -/
def Ended (wide : Bool) (suffix rest : List Char) : Prop :=
  ∀ d, rest.head? = some d → isSuffixChar d = false ∧ (d = 'w' → wide = true ∨ suffix ≠ [])

variable {c : Char} {wide : Bool} {suffix rest : List Char}

theorem tokenList_atom_append (hc : isTurnLetter c = true)
    (hsuffix : ∀ d ∈ suffix, isSuffixChar d = true) (hrest : Ended wide suffix rest) :
    tokenList (layerChars c wide ++ suffix ++ rest) =
      .turn (String.ofList (layerChars c wide)) (Suffix.stated suffix) :: tokenList rest := by
  have hended : ∀ d, rest.head? = some d → ¬ isSuffixChar d = true := by
    intro d hd
    rw [(hrest d hd).1]
    exact Bool.false_ne_true
  have hwide : wide = false → (suffix ++ rest).head? ≠ some 'w' := by
    rintro rfl hw
    cases suffix with
    | nil =>
      rcases (hrest 'w' hw).2 rfl with h | h
      · exact Bool.false_ne_true h
      · exact h rfl
    | cons d ds =>
      cases hw
      exact absurd (hsuffix 'w' List.mem_cons_self) (by decide)
  obtain ⟨htake, hdrop⟩ := span_append hsuffix hended
  rw [List.append_assoc, tokenList_layerChars_append hc wide hwide, htake, hdrop]

theorem apart_atom (hc : isTurnLetter c = true) (cs : List Char) :
    Apart (layerChars c wide ++ cs) := by
  have hw : c ≠ 'w' := by
    rintro rfl
    exact absurd hc (by decide)
  have hsuffix := not_isSuffixChar_of_isTurnLetter hc
  cases wide <;> exact apart_cons hsuffix hw _

theorem foldl_push_atom (hc : isTurnLetter c = true)
    (hsuffix : ∀ d ∈ suffix, isSuffixChar d = true) {before rest : String}
    (hrest : Ended wide suffix rest.toList) :
    (tokens (before ++ String.ofList (layerChars c wide ++ suffix) ++ rest)).foldl Reading.push
        Reading.start =
      (tokens rest).foldl Reading.push
        (((tokens before).foldl Reading.push Reading.start).update
          (extend (Tree.turnTwists (String.ofList (layerChars c wide))
            (Suffix.stated suffix)))) := by
  have htext : (before ++ String.ofList (layerChars c wide ++ suffix) ++ rest).toList =
      before.toList ++ (layerChars c wide ++ (suffix ++ rest.toList)) := by
    simp [String.toList_append]
  have htokens : tokens (before ++ String.ofList (layerChars c wide ++ suffix) ++ rest) =
      tokens before ++
        .turn (String.ofList (layerChars c wide)) (Suffix.stated suffix) :: tokens rest := by
    show tokenList _ = tokenList _ ++ _ :: tokenList _
    rw [htext, tokenList_append (apart_atom hc _), ← List.append_assoc (layerChars c wide),
      tokenList_atom_append hc hsuffix hrest]
  have hcapped := Reading.capped_start.foldl_push_capped (tokens before)
  rw [htokens, List.foldl_append, List.foldl_cons, Reading.push_turn hcapped]
  rfl

theorem parse_atom_eq (hc : isTurnLetter c = true)
    (hsuffix : ∀ d ∈ suffix, isSuffixChar d = true) :
    parse (String.ofList (layerChars c wide ++ suffix)) =
      Tree.turnTwists (String.ofList (layerChars c wide)) (Suffix.stated suffix) := by
  have htoken : tokens (String.ofList (layerChars c wide ++ suffix)) =
      [.turn (String.ofList (layerChars c wide)) (Suffix.stated suffix)] := by
    have hnone : Ended wide suffix [] := fun d hd => by cases hd
    have hread := tokenList_atom_append hc hsuffix hnone
    rw [List.append_nil, tokenList_nil] at hread
    show tokenList _ = _
    rw [String.toList_ofList, hread]
  have hshort : (Tree.turnTwists (String.ofList (layerChars c wide))
      (Suffix.stated suffix)).length ≤ maxTwists := by
    unfold Tree.turnTwists
    split
    · exact Nat.zero_le _
    · exact Nat.succ_le_succ (Nat.zero_le _)
  have hitems : (Tree.inside none [.turn (String.ofList (layerChars c wide))
      (Suffix.stated suffix)]).items = [.turn (String.ofList (layerChars c wide))
        (Suffix.stated suffix)] := by
    simp [Tree.inside]
  rw [parse_eq_valueAll_read, Tree.read, htoken, hitems, Tree.valueAll, Tree.value, Tree.valueAll,
    List.append_nil, List.take_of_length_le hshort]

theorem clampCount_eq_zero_iff {n : Nat} : clampCount n = 0 ↔ n = 0 := by
  unfold clampCount maxCount
  omega

theorem reduceTurns_mod_four {n : Nat} (h : n ≠ 0) : reduceTurns n % 4 = n % 4 := by
  unfold reduceTurns
  omega

theorem turnTwists_eq_nil_iff {layer : String} :
    Tree.turnTwists layer (Suffix.stated suffix) = [] ↔ Suffix.exactCount suffix = 0 := by
  rw [← clampCount_eq_zero_iff, Tree.turnTwists]
  split
  · rename_i h
    exact ⟨fun _ => h, fun _ => rfl⟩
  · rename_i h
    exact ⟨fun hnil => absurd hnil (List.cons_ne_nil _ _), fun hzero => absurd hzero h⟩

theorem turnTwists_of_ne_zero {layer : String} (h : Suffix.exactCount suffix ≠ 0) :
    Tree.turnTwists layer (Suffix.stated suffix) =
      [⟨layer, decide (suffix.countP isMark % 2 = 1),
        reduceTurns (clampCount (Suffix.exactCount suffix))⟩] := by
  have hne : ¬ (Suffix.stated suffix).count = 0 := fun h0 => h (clampCount_eq_zero_iff.1 h0)
  rw [Tree.turnTwists, if_neg hne]
  rfl

end Notation

/-! ### Effects -/

/-- What a twist comes to in a group, or wherever else there are products and inverses, if `g` has
the quarter turn of each layer. -/
def Twist.eval {G : Type*} [DivisionMonoid G] (g : String → G) (t : Twist) : G :=
  if t.reverse then (g t.layer ^ t.times)⁻¹ else g t.layer ^ t.times

namespace Notation

variable {c : Char} {wide : Bool} {suffix : List Char}

/-- Four quarter turns of a layer are none, so that only the rest of the count matters. -/
theorem prod_eval_turnTwists {G : Type*} [DivisionMonoid G] (g : String → G) {layer : String}
    (hg : g layer ^ 4 = 1) (hcount : Suffix.exactCount suffix ≤ maxCount) :
    ((Tree.turnTwists layer (Suffix.stated suffix)).map (Twist.eval g)).prod =
      if suffix.countP isMark % 2 = 1 then (g layer ^ Suffix.exactCount suffix)⁻¹
      else g layer ^ Suffix.exactCount suffix := by
  by_cases hzero : Suffix.exactCount suffix = 0
  · rw [turnTwists_eq_nil_iff.2 hzero, hzero, pow_zero, inv_one, ite_self]
    rfl
  · have hpow : g layer ^ reduceTurns (Suffix.exactCount suffix) =
        g layer ^ Suffix.exactCount suffix := by
      rw [pow_eq_pow_mod _ hg, reduceTurns_mod_four hzero, ← pow_eq_pow_mod _ hg]
    rw [turnTwists_of_ne_zero hzero, clampCount_of_le hcount, List.map_singleton,
      List.prod_singleton, Twist.eval, hpow]
    simp only [decide_eq_true_eq]

/-- A turn letter, wide or not, with a suffix of digits and marks comes to no twist if the exact
product of its digit runs is zero, and else to one twist: with one to four quarter turns, as many
modulo four as the product, or the largest count if that is less, and reversed if the marks are odd
in number. No step in words wraps on the way. A product that no word exceeds loses nothing, whatever
the layer is that comes back after four quarter turns. So it is wherever the turn stands in a text
that does not go on with it. -/
theorem parse_atom (hc : isTurnLetter c = true) (wide : Bool)
    (hsuffix : ∀ d ∈ suffix, isSuffixChar d = true) :
    let layer := String.ofList (layerChars c wide)
    let atom := String.ofList (layerChars c wide ++ suffix)
    let exact := Suffix.exactCount suffix
    let reverse := decide (suffix.countP isMark % 2 = 1)
    (parse atom = [] ↔ exact = 0) ∧
      (exact ≠ 0 → ∃ times, parse atom = [⟨layer, reverse, times⟩] ∧
        1 ≤ times ∧ times ≤ 4 ∧ times % 4 = min exact maxCount % 4) ∧
      Word.turn? layer suffix = some (parse atom) ∧
      (∀ before rest : String, Ended wide suffix rest.toList →
        (tokens (before ++ atom ++ rest)).foldl Reading.push Reading.start =
          (tokens rest).foldl Reading.push
            (((tokens before).foldl Reading.push Reading.start).update (extend (parse atom)))) ∧
      (exact ≤ maxCount → ∀ (G : Type*) [DivisionMonoid G] (g : String → G), g layer ^ 4 = 1 →
        ((parse atom).map (Twist.eval g)).prod =
          if reverse then (g layer ^ exact)⁻¹ else g layer ^ exact) := by
  intro layer atom exact reverse
  have hparse : parse atom = Tree.turnTwists layer (Suffix.stated suffix) :=
    parse_atom_eq hc hsuffix
  rw [hparse]
  refine ⟨turnTwists_eq_nil_iff, fun hne => ?_, ?_, fun before rest hrest => ?_, ?_⟩
  · have hclamp : clampCount exact ≠ 0 := fun h0 => hne (clampCount_eq_zero_iff.1 h0)
    obtain ⟨hpos, hle⟩ := reduceTurns_bounds (clampCount exact)
    exact ⟨_, turnTwists_of_ne_zero hne, hpos, hle, reduceTurns_mod_four hclamp⟩
  · rw [Word.turn?_eq, Suffix.ofChars_eq_stated]
  · exact foldl_push_atom hc hsuffix hrest
  · intro hcount G _ g hg
    rw [prod_eval_turnTwists g hg hcount]
    simp only [reverse, decide_eq_true_eq]
    rfl

/-- A run of eleven digits, and one of which four quarter turns remain. -/
theorem parse_atom_eleven_digits :
    isTurnLetter 'R' = true ∧ (∀ d ∈ "99999999999i7".toList, isSuffixChar d = true) ∧
      (∃ times, parse "Rw99999999999i7" = [⟨"Rw", true, times⟩] ∧ 1 ≤ times ∧ times ≤ 4 ∧
        times % 4 = min 699999999993 maxCount % 4) ∧
      (∀ d ∈ "5'7".toList, isSuffixChar d = true) ∧ finRotate 4 ^ 4 = 1 ∧
      ((parse "R5'7").map (Twist.eval fun _ => finRotate 4)).prod = (finRotate 4 ^ 35)⁻¹ := by
  have hc : isTurnLetter 'R' = true := by decide
  have hlong : ∀ d ∈ "99999999999i7".toList, isSuffixChar d = true :=
    List.all_eq_true.1 (by decide)
  have hshort : ∀ d ∈ "5'7".toList, isSuffixChar d = true := List.all_eq_true.1 (by decide)
  have hrotate : finRotate 4 ^ 4 = 1 := by decide
  have hexact : Suffix.exactCount "99999999999i7".toList = 699999999993 := by decide +kernel
  have hcount : Suffix.exactCount "5'7".toList = 35 := by decide +kernel
  obtain ⟨-, htwist, -⟩ := parse_atom.{0} hc true hlong
  obtain ⟨-, -, -, -, heffect⟩ := parse_atom.{0} hc false hshort
  rw [hexact] at htwist
  rw [hcount] at heffect
  exact ⟨hc, hlong, htwist (by decide), hshort, hrotate,
    heffect (by decide) _ (fun _ => finRotate 4) hrotate⟩

end Notation

end CubeTrainer
