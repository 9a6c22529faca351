import CubeTrainer.Proofs.Notation.Scanning
import Mathlib.Algebra.Order.Floor.Div

/-!
# Repetition in bounded space

A repeated body is copied only until the list is full. The list after each copy is one of its
`rounds`: no round is as long as two full lists, and there is none if there is nothing to copy or no
room for it. A reading that fails on lists longer than the cut reads every text
(`parse?_eq`), so that nothing is ever repeated outside these bounds.
-/

namespace CubeTrainer.Notation

/-! ### Rounds -/

theorem length_rounds (out body : Array Twist) (n : Nat) : (rounds out body n).length = n := by
  induction n generalizing out with
  | zero => rfl
  | succ n ih => rw [rounds, List.length_cons, ih]

theorem size_of_mem_rounds {out body r : Array Twist} {n : Nat} (h : r ∈ rounds out body n) :
    ∃ k < n, r.size = out.size + k * body.size + body.size := by
  induction n generalizing out with
  | zero => cases h
  | succ n ih =>
    rcases List.mem_cons.1 h with rfl | h
    · exact ⟨0, Nat.succ_pos n, by rw [Array.size_append, Nat.zero_mul, Nat.add_zero]⟩
    · obtain ⟨k, hk, hr⟩ := ih h
      refine ⟨k + 1, Nat.succ_lt_succ hk, ?_⟩
      rw [hr, Array.size_append, Nat.succ_mul]
      omega

theorem mul_lt_of_lt_ceil {room size k : Nat} (hsize : 0 < size)
    (h : k < (room + size - 1) / size) : k * size < room := by
  have hle : (k + 1) * size ≤ room + size - 1 := (Nat.le_div_iff_mul_le hsize).1 h
  rw [Nat.succ_mul] at hle
  omega

theorem copies_eq (room size times : Nat) :
    copies room size times = min times (room ⌈/⌉ size) := by
  rw [copies, Nat.ceilDiv_eq_add_pred_div]

section

variable {out body : Array Twist} (times : Nat)

theorem length_repetitionRounds (out body : Array Twist) :
    (repetitionRounds out body times).length =
      min times ((maxTwists - out.size) ⌈/⌉ body.size) := by
  rw [← copies_eq, repetitionRounds]
  split
  · rename_i hempty
    have hsize : body.size = 0 := by simpa using hempty
    rw [copies, hsize, Nat.div_zero, Nat.min_zero]
    rfl
  · exact length_rounds out body _

theorem pushRepeated_eq_getLastD (hout : out.size ≤ maxTwists) :
    pushRepeated out body times =
      ((repetitionRounds out body times).getLastD out).take maxTwists := by
  unfold pushRepeated
  split
  · rename_i hempty
    rw [repetitionRounds, if_pos hempty, List.getLastD_nil, Array.take_eq_extract,
      Array.extract_eq_self_of_le hout]
  · rfl

theorem size_of_mem_repetitionRounds (hbody : body.size ≤ maxTwists) {r : Array Twist}
    (h : r ∈ repetitionRounds out body times) : r.size < 2 * maxTwists := by
  unfold repetitionRounds at h
  split at h
  · cases h
  · rename_i hne
    have hpos := size_pos_of_not_isEmpty hne
    obtain ⟨k, hk, hr⟩ := size_of_mem_rounds h
    have hroom := mul_lt_of_lt_ceil hpos (Nat.lt_of_lt_of_le hk (Nat.min_le_right _ _))
    omega

theorem repetitionRounds_eq_nil (h : body = #[] ∨ out.size = maxTwists) :
    repetitionRounds out body times = [] := by
  refine List.eq_nil_of_length_eq_zero ?_
  rw [length_repetitionRounds, Nat.ceilDiv_eq_add_pred_div]
  rcases h with rfl | hfull
  · simp
  · rw [hfull, Nat.sub_self, Nat.zero_add]
    cases hsize : body.size with
    | zero => simp
    | succ n => rw [Nat.div_eq_of_lt (by omega), Nat.min_zero]

end

/-! ### Readings within bounds -/

/-- `pushRepeated`, unless one of the lists is longer than the cut. -/
def pushRepeated? (out body : Array Twist) (times : Nat) : Option (Array Twist) :=
  if out.size ≤ maxTwists ∧ body.size ≤ maxTwists then some (pushRepeated out body times) else none

def pushGroup? (out body : Array Twist) (suffix : Suffix) : Option (Array Twist) :=
  pushRepeated? out (if suffix.reverse then body.reverse.map Twist.inverse else body) suffix.count

theorem pushGroup?_eq {out body : Array Twist} (hout : out.size ≤ maxTwists)
    (hbody : body.size ≤ maxTwists) (suffix : Suffix) :
    pushGroup? out body suffix = some (pushGroup out body suffix) := by
  have hsize : (if suffix.reverse then body.reverse.map Twist.inverse else body).size ≤
      maxTwists := by
    split
    · rw [Array.size_map, Array.size_reverse]
      exact hbody
    · exact hbody
  exact if_pos ⟨hout, hsize⟩

namespace Reading

variable {r : Reading}

def update? (f : Array Twist → Option (Array Twist)) : Reading → Option Reading
  | ⟨out, []⟩ => (f out).map fun out => ⟨out, []⟩
  | ⟨out, ⟨b, ts⟩ :: groups⟩ => (f ts).map fun ts => ⟨out, ⟨b, ts⟩ :: groups⟩

/-- `push`, unless it repeats a list that is too long or after one that is. -/
def push? (r : Reading) : Token → Option Reading
  | .opening b => some (r.push (.opening b))
  | .closing b suffix =>
    match r with
    | ⟨_, []⟩ => some r
    | ⟨out, g :: groups⟩ =>
      if g.bracket = b then update? (pushGroup? · g.twists suffix) ⟨out, groups⟩ else some r
  | .turn layer suffix => some (r.push (.turn layer suffix))

def finish? (r : Reading) : Option (Array Twist) :=
  (r.groups.foldlM (fun body g => pushGroup? g.twists body Suffix.one) #[]).bind fun body =>
    pushGroup? r.out body Suffix.one

theorem update?_eq {P : Array Twist → Prop} (h : r.Holds P) {f : Array Twist → Array Twist}
    {f? : Array Twist → Option (Array Twist)} (hf : ∀ ts, P ts → f? ts = some (f ts)) :
    r.update? f? = some (r.update f) := by
  obtain ⟨out, groups⟩ := r
  cases groups with
  | nil => rw [update?, hf _ h.out, Option.map_some, update]
  | cons g groups =>
    rw [update?, hf _ (h.groups g List.mem_cons_self), Option.map_some, update]

theorem push?_eq (h : r.Capped) (t : Token) : r.push? t = some (r.push t) := by
  cases t with
  | opening b => rfl
  | turn layer suffix => rfl
  | closing b suffix =>
    obtain ⟨out, groups⟩ := r
    cases groups with
    | nil => rfl
    | cons g groups =>
      have hg := h.groups g List.mem_cons_self
      have hrest : Capped ⟨out, groups⟩ :=
        ⟨h.out, fun g' hg' => h.groups g' (List.mem_cons_of_mem _ hg')⟩
      rw [push?, push]
      split
      · exact update?_eq hrest fun ts hts => pushGroup?_eq hts hg suffix
      · rfl

theorem foldlM_push?_eq (h : r.Capped) (ts : List Token) :
    ts.foldlM push? r = some (ts.foldl push r) := by
  induction ts generalizing r with
  | nil => rfl
  | cons t ts ih =>
    rw [List.foldlM_cons, push?_eq h, List.foldl_cons]
    exact ih (h.push_capped t)

theorem finish?_eq (h : r.Capped) : r.finish? = some r.finish := by
  have hclose (groups : List OpenGroup) (hgroups : ∀ g ∈ groups, g.twists.size ≤ maxTwists)
      (body : Array Twist) (hbody : body.size ≤ maxTwists) :
      (groups.foldlM (fun body g => pushGroup? g.twists body Suffix.one) body).bind
          (pushGroup? r.out · Suffix.one) =
        some (pushGroup r.out
          (groups.foldl (fun body g => pushGroup g.twists body Suffix.one) body) Suffix.one) := by
    induction groups generalizing body with
    | nil => exact pushGroup?_eq h.out hbody Suffix.one
    | cons g groups ih =>
      have hg := hgroups g List.mem_cons_self
      rw [List.foldlM_cons, pushGroup?_eq hg hbody, List.foldl_cons]
      exact ih (fun g' hg' => hgroups g' (List.mem_cons_of_mem _ hg')) _
        (size_pushRepeated_le hg _ _)
  exact hclose r.groups h.groups #[] (Nat.zero_le _)

end Reading

def parse? (s : String) : Option (List Twist) :=
  (((tokens s).foldlM Reading.push? Reading.start).bind Reading.finish?).map Array.toList

theorem parse?_eq (s : String) : parse? s = some (parse s) := by
  have hcapped := Reading.capped_start.foldl_push_capped (tokens s)
  rw [parse?, Reading.foldlM_push?_eq Reading.capped_start, Option.bind_some,
    Reading.finish?_eq hcapped]
  rfl

/-- A repetition of lists that are not too long has the same result as if all copies were made and
the list then cut. It makes no more copies than are asked for and than it takes to fill the list,
which is never as long as two full lists meanwhile, and it makes none of an empty body or after a
full list. A reading of any text repeats no lists but such, since none of its lists is ever too
long. -/
theorem pushRepeated_exact :
    (∀ (out body : Array Twist) (times : Nat), out.size ≤ maxTwists → body.size ≤ maxTwists →
      let made := repetitionRounds out body times
      (pushRepeated out body times).toList =
          (out.toList ++ (List.replicate times body.toList).flatten).take maxTwists ∧
        pushRepeated out body times = (made.getLastD out).take maxTwists ∧
        made.length = min times ((maxTwists - out.size) ⌈/⌉ body.size) ∧
        (∀ ts ∈ made, ts.size ≤ 8191) ∧
        (body = #[] ∨ out.size = maxTwists → made = [])) ∧
      ∀ s, parse? s = some (parse s) ∧
        ∀ before, before <+: tokens s → (before.foldl Reading.push Reading.start).Capped := by
  refine ⟨fun out body times hout hbody => ?_, fun s => ⟨parse?_eq s, fun before _ => ?_⟩⟩
  · intro made
    exact ⟨toList_pushRepeated hout body times, pushRepeated_eq_getLastD times hout,
      length_repetitionRounds times out body,
      fun ts hts => Nat.le_of_lt_succ (size_of_mem_repetitionRounds times hbody hts),
      repetitionRounds_eq_nil times⟩
  · exact Reading.capped_start.foldl_push_capped before

/-- No list is longer than the one there is when a full body is copied to the last free place. -/
theorem pushRepeated_exact_longest :
    let out := Array.replicate 4095 (⟨"R", false, 1⟩ : Twist)
    let body := Array.replicate 4096 (⟨"U", false, 1⟩ : Twist)
    out.size ≤ maxTwists ∧ body.size ≤ maxTwists ∧
      (repetitionRounds out body maxCount).map Array.size = [8191] ∧
      (pushRepeated out body maxCount).toList =
        (out.toList ++ (List.replicate maxCount body.toList).flatten).take maxTwists := by
  intro out body
  have hout : out.size = 4095 := Array.size_replicate
  have hbody : body.size = 4096 := Array.size_replicate
  have hle : out.size ≤ maxTwists := by
    rw [hout]
    decide
  have hexact := pushRepeated_exact.1 out body maxCount hle (Nat.le_of_eq hbody)
  refine ⟨hle, Nat.le_of_eq hbody, ?_, hexact.1⟩
  have hnonempty : ¬ body.isEmpty = true := by simp [body]
  have hone : copies (maxTwists - out.size) body.size maxCount = 1 := by
    rw [hout, hbody]
    decide
  rw [repetitionRounds, if_neg hnonempty, hone]
  show [(out ++ body).size] = [8191]
  rw [Array.size_append, hout, hbody]

end CubeTrainer.Notation
