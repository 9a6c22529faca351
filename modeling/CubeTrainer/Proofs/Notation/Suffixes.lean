import CubeTrainer.Notation.Grammar

/-!
# Suffixes read one character at a time

Counts are clamped digit by digit and run by run. That loses nothing against clamping the exact
product once: `ofChars_eq_stated`.
-/

namespace CubeTrainer.Notation

/-! ### Clamped arithmetic -/

theorem clampCount_of_le {n : Nat} (h : n ≤ maxCount) : clampCount n = n := Nat.min_eq_left h

theorem clampCount_of_ge {n : Nat} (h : maxCount ≤ n) : clampCount n = maxCount :=
  Nat.min_eq_right h

theorem clampCount_mul_left (m n : Nat) : clampCount (clampCount m * n) = clampCount (m * n) := by
  by_cases hm : m ≤ maxCount
  · rw [clampCount_of_le hm]
  · have hbig : maxCount ≤ m := Nat.le_of_not_le hm
    rw [clampCount_of_ge hbig]
    cases n with
    | zero => rfl
    | succ n =>
      have hmax : maxCount ≤ maxCount * (n + 1) := Nat.le_mul_of_pos_right _ (Nat.succ_pos n)
      have hprod : maxCount * (n + 1) ≤ m * (n + 1) := Nat.mul_le_mul_right _ hbig
      rw [clampCount_of_ge hmax, clampCount_of_ge (Nat.le_trans hmax hprod)]

theorem clampCount_mul (m n : Nat) :
    clampCount (clampCount m * clampCount n) = clampCount (m * n) := by
  rw [clampCount_mul_left, Nat.mul_comm, clampCount_mul_left, Nat.mul_comm]

theorem clampCount_digit (n d : Nat) :
    clampCount (clampCount n * 10 + d) = clampCount (n * 10 + d) := by
  unfold clampCount maxCount
  omega

/-! ### Exact counts -/

theorem span_append {α : Type} {p : α → Bool} {as bs : List α} (has : ∀ a ∈ as, p a = true)
    (hbs : ∀ b, bs.head? = some b → ¬ p b = true) :
    (as ++ bs).takeWhile p = as ∧ (as ++ bs).dropWhile p = bs := by
  rw [List.takeWhile_append_of_pos has, List.dropWhile_append_of_pos has]
  cases bs with
  | nil => exact ⟨List.append_nil as, rfl⟩
  | cons b bs =>
    have hb := hbs b rfl
    rw [List.takeWhile_cons_of_neg hb, List.dropWhile_cons_of_neg hb]
    exact ⟨List.append_nil as, rfl⟩

namespace Suffix

theorem foldl_mul (a : Nat) (ns : List Nat) :
    ns.foldl (· * ·) a = a * ns.foldl (· * ·) 1 := by
  induction ns generalizing a with
  | nil => simp
  | cons n ns ih =>
    rw [List.foldl_cons, List.foldl_cons, ih (a * n), ih (1 * n), Nat.one_mul, Nat.mul_assoc]

theorem exactCount_nil : exactCount [] = 1 := by
  simp [exactCount, digitRuns]

theorem exactCount_digit {c : Char} (h : c.isDigit = true) (cs : List Char) :
    exactCount (c :: cs) = Nat.ofDigitChars 10 (c :: cs.takeWhile Char.isDigit) 0 *
      exactCount (cs.dropWhile Char.isDigit) := by
  rw [exactCount, digitRuns, if_pos h, List.foldl_cons, foldl_mul, Nat.one_mul]
  rfl

theorem exactCount_other {c : Char} (h : ¬ c.isDigit = true) (cs : List Char) :
    exactCount (c :: cs) = exactCount cs := by
  rw [exactCount, digitRuns, if_neg h]
  rfl

theorem exactCount_digits_append {ds rest : List Char} (hne : ds ≠ [])
    (hd : ∀ c ∈ ds, c.isDigit = true) (hrest : ∀ c, rest.head? = some c → ¬ c.isDigit = true) :
    exactCount (ds ++ rest) = Nat.ofDigitChars 10 ds 0 * exactCount rest := by
  cases ds with
  | nil => exact absurd rfl hne
  | cons d ds =>
    have hds : ∀ c ∈ ds, c.isDigit = true := fun c hc => hd c (List.mem_cons_of_mem _ hc)
    obtain ⟨htake, hdrop⟩ := span_append hds hrest
    rw [List.cons_append, exactCount_digit (hd d List.mem_cons_self), htake, hdrop]

theorem exists_digit_run {c : Char} (h : c.isDigit = true) (cs : List Char) :
    ∃ ds rest, c :: cs = ds ++ rest ∧ ds ≠ [] ∧ (∀ d ∈ ds, d.isDigit = true) ∧
      (∀ d, rest.head? = some d → ¬ d.isDigit = true) ∧ rest.length ≤ cs.length := by
  refine ⟨c :: cs.takeWhile Char.isDigit, cs.dropWhile Char.isDigit, ?_, List.cons_ne_nil _ _,
    ?_, ?_, length_dropWhile_le _ cs⟩
  · rw [List.cons_append, List.takeWhile_append_dropWhile]
  · intro d hd
    rcases List.mem_cons.1 hd with rfl | hd
    · exact h
    · exact List.all_eq_true.1 List.all_takeWhile d hd
  · intro d hd
    have hnot := List.head?_dropWhile_not Char.isDigit cs
    rw [hd] at hnot
    simpa using hnot

theorem not_isMark_of_isDigit {c : Char} (h : c.isDigit = true) : isMark c = false := by
  refine Bool.eq_false_iff.2 fun hm => ?_
  simp only [isMark, Bool.or_eq_true, decide_eq_true_eq] at hm
  rcases hm with ((rfl | rfl) | rfl) | rfl <;> exact absurd h (by decide)

namespace Partial

theorem push_digit {c : Char} (h : c.isDigit = true) (p : Partial) :
    p.push c =
      { p with run := some (clampCount (p.run.getD 0 * 10 + Text.decimalValue c)) } := by
  rw [push, if_pos h]

theorem push_other {c : Char} (h : ¬ c.isDigit = true) (p : Partial) :
    p.push c = ⟨p.count, none, p.reverse ^^ isMark c⟩ := by
  rw [push, if_neg h]

theorem foldl_push_digits {ds : List Char} (h : ∀ c ∈ ds, c.isDigit = true) (product n : Nat)
    (reverse : Bool) :
    ds.foldl push ⟨product, some (clampCount n), reverse⟩ =
      ⟨product, some (clampCount (Nat.ofDigitChars 10 ds n)), reverse⟩ := by
  induction ds generalizing n with
  | nil => rw [List.foldl_nil, Nat.ofDigitChars_nil]
  | cons d ds ih =>
    have hd := h d List.mem_cons_self
    have hrest := ih fun c hc => h c (List.mem_cons_of_mem _ hc)
    have hnext : n * 10 + Text.decimalValue d = 10 * n + (d.toNat - '0'.toNat) := by
      rw [Text.decimalValue, Nat.mul_comm]
    rw [List.foldl_cons, push_digit hd, Option.getD_some, clampCount_digit, hnext, hrest,
      Nat.ofDigitChars_cons]

/-- Where no digit follows, the open run may as well have ended. -/
theorem finish_foldl_of_ended {cs : List Char} (h : ∀ c, cs.head? = some c → ¬ c.isDigit = true)
    (p : Partial) :
    (cs.foldl push p).finish = (cs.foldl push ⟨p.count, none, p.reverse⟩).finish := by
  cases cs with
  | nil => rfl
  | cons c cs =>
    have hc := h c rfl
    rw [List.foldl_cons, List.foldl_cons, push_other hc, push_other hc]
    rfl

theorem countP_isMark_digits {ds : List Char} (h : ∀ c ∈ ds, c.isDigit = true) :
    ds.countP isMark = 0 := by
  refine List.countP_eq_zero.2 fun c hc hm => ?_
  rw [not_isMark_of_isDigit (h c hc)] at hm
  exact Bool.false_ne_true hm

theorem xor_odd (r m : Bool) (n : Nat) :
    ((r ^^ m) ^^ decide (n % 2 = 1)) = (r ^^ decide ((n + if m then 1 else 0) % 2 = 1)) := by
  have hn := Nat.mod_two_eq_zero_or_one n
  cases m with
  | false => simp
  | true =>
    rcases hn with hn | hn
    · have hsucc : (n + 1) % 2 = 1 := by omega
      simp [hn, hsucc]
    · have hsucc : (n + 1) % 2 = 0 := by omega
      simp [hn, hsucc]

theorem foldl_push_run {ds : List Char} (hne : ds ≠ []) (h : ∀ c ∈ ds, c.isDigit = true)
    (product : Nat) (reverse : Bool) :
    ds.foldl push ⟨product, none, reverse⟩ =
      ⟨product, some (clampCount (Nat.ofDigitChars 10 ds 0)), reverse⟩ := by
  cases ds with
  | nil => exact absurd rfl hne
  | cons d ds =>
    have hfirst : (⟨product, none, reverse⟩ : Partial).push d =
        ⟨product, some (clampCount (Text.decimalValue d)), reverse⟩ := by
      rw [push_digit (h d List.mem_cons_self), Option.getD_none, Nat.zero_mul, Nat.zero_add]
    have hvalue : Nat.ofDigitChars 10 (d :: ds) 0 =
        Nat.ofDigitChars 10 ds (Text.decimalValue d) := by
      rw [Nat.ofDigitChars_cons, Nat.mul_zero, Nat.zero_add]
      rfl
    rw [List.foldl_cons, hfirst, hvalue,
      foldl_push_digits fun c hc => h c (List.mem_cons_of_mem _ hc)]

theorem finish_foldl_push (cs : List Char) (n : Nat) (reverse : Bool) :
    (cs.foldl push ⟨clampCount n, none, reverse⟩).finish =
      ⟨clampCount (n * exactCount cs), reverse ^^ decide (cs.countP isMark % 2 = 1)⟩ := by
  -- A whole digit run, or one other character, at a time.
  induction hl : cs.length using Nat.strongRecOn generalizing cs n reverse with
  | ind l ih =>
    cases cs with
    | nil => simp [finish, count, exactCount_nil]
    | cons c cs =>
      have hlt : cs.length < l := by
        rw [← hl]
        exact Nat.lt_succ_self _
      by_cases hc : c.isDigit = true
      · obtain ⟨ds, rest, hsplit, hne, hds, hended, hle⟩ := exists_digit_run hc cs
        have hclamp (v : Nat) : (⟨clampCount n, some (clampCount v), reverse⟩ : Partial).count =
            clampCount (n * v) := clampCount_mul n v
        have hrest := ih _ (Nat.lt_of_le_of_lt hle hlt) rest
        rw [hsplit, List.foldl_append, foldl_push_run hne hds, finish_foldl_of_ended hended,
          hclamp, hrest _ reverse rfl, exactCount_digits_append hne hds hended,
          List.countP_append, countP_isMark_digits hds, Nat.zero_add, Nat.mul_assoc]
      · rw [List.foldl_cons, push_other hc, exactCount_other hc, List.countP_cons, ← xor_odd]
        exact ih _ hlt cs n (reverse ^^ isMark c) rfl

end Partial

theorem ofChars_eq_stated (cs : List Char) : ofChars cs = stated cs := by
  have hone : clampCount 1 = 1 := clampCount_of_le (by decide)
  have hread := Partial.finish_foldl_push cs 1 false
  rw [hone, Nat.one_mul, Bool.false_xor] at hread
  exact hread

end Suffix

end CubeTrainer.Notation
