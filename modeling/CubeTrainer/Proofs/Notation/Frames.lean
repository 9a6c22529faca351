import CubeTrainer.Notation.Tree

/-!
# Frames of a reading

A reading holds the twists outside every group and one list for each open group. What is pushed on
such a list is the list followed by the twists of the item, cut at `maxTwists`: `toList_pushTurn`
and `toList_pushGroup`. The copies that `pushRepeated` leaves out lie behind the cut.
-/

namespace CubeTrainer.Notation

/-! ### Cut lists -/

section Cut

variable {α : Type} (n : Nat) (as bs : List α)

theorem take_append_take : (as ++ bs.take n).take n = (as ++ bs).take n := by
  rw [List.take_append, List.take_append, List.take_take, Nat.min_eq_left (Nat.sub_le _ _)]

theorem take_take_append : (as.take n ++ bs).take n = (as ++ bs).take n := by
  have hsub : n - min n as.length = n - as.length := by omega
  rw [List.take_append, List.take_append, List.take_take, Nat.min_self, List.length_take, hsub]

end Cut

theorem le_ceil_mul (room : Nat) {size : Nat} (h : 0 < size) :
    room ≤ (room + size - 1) / size * size := by
  have hdiv := Nat.div_add_mod (room + size - 1) size
  have hmod := Nat.mod_lt (room + size - 1) h
  rw [Nat.mul_comm] at hdiv
  omega

/-- The copies that are made fill the cut list as all the copies would. -/
theorem take_append_copies (out : List Twist) {body : List Twist} (h : 0 < body.length)
    (times : Nat) :
    (out ++ (List.replicate (copies (maxTwists - out.length) body.length times) body).flatten).take
        maxTwists =
      (out ++ (List.replicate times body).flatten).take maxTwists := by
  obtain ⟨enough, hdef⟩ :
      ∃ enough, enough = (maxTwists - out.length + body.length - 1) / body.length := ⟨_, rfl⟩
  have hfill := le_ceil_mul (maxTwists - out.length) h
  rw [copies, ← hdef]
  rw [← hdef] at hfill
  by_cases hle : times ≤ enough
  · rw [Nat.min_eq_left hle]
  · have hsplit : times = enough + (times - enough) := by omega
    have hlong : maxTwists ≤ (out ++ (List.replicate enough body).flatten).length := by
      simp only [List.length_append, List.length_flatten, List.map_replicate,
        List.sum_replicate_nat]
      omega
    rw [Nat.min_eq_right (by omega), hsplit, ← List.replicate_append_replicate,
      List.flatten_append, ← List.append_assoc, List.take_append_of_le_length hlong]

/-! ### Pushes as list operations -/

theorem size_pos_of_not_isEmpty {body : Array Twist} (h : ¬ body.isEmpty = true) :
    0 < body.size :=
  Array.size_pos_iff.2 fun hnil => h (by rw [hnil]; rfl)

theorem toList_pushRepeated {out : Array Twist} (h : out.size ≤ maxTwists) (body : Array Twist)
    (times : Nat) :
    (pushRepeated out body times).toList =
      (out.toList ++ (List.replicate times body.toList).flatten).take maxTwists := by
  unfold pushRepeated
  split
  · rename_i hempty
    have hnil : body.toList = [] := by simpa using hempty
    simp [hnil, List.take_of_length_le (show out.toList.length ≤ maxTwists from h)]
  · rename_i hne
    have hpos : 0 < body.toList.length := by
      rw [Array.length_toList]
      exact size_pos_of_not_isEmpty hne
    have hcopies := take_append_copies out.toList hpos times
    rw [Array.take_eq_extract, Array.toList_extract, repetitionRounds, if_neg hne,
      toList_getLastD_rounds]
    exact hcopies

theorem toList_pushGroup {out : Array Twist} (h : out.size ≤ maxTwists) (body : Array Twist)
    (suffix : Suffix) :
    (pushGroup out body suffix).toList =
      (out.toList ++ Tree.applySuffix body.toList suffix).take maxTwists := by
  have hbody : (if suffix.reverse then body.reverse.map Twist.inverse else body).toList =
      if suffix.reverse then invert body.toList else body.toList := by
    split <;> simp [invert]
  rw [pushGroup, toList_pushRepeated h, hbody]
  rfl

theorem toList_pushTurn {out : Array Twist} (h : out.size ≤ maxTwists) (layer : String)
    (suffix : Suffix) :
    (pushTurn out layer suffix).toList =
      (out.toList ++ Tree.turnTwists layer suffix).take maxTwists := by
  have hcut : out.toList.take maxTwists = out.toList := List.take_of_length_le h
  unfold pushTurn Tree.turnTwists
  by_cases h0 : suffix.count = 0
  · rw [if_neg (by omega), if_pos h0, List.append_nil, hcut]
  · by_cases hlt : out.size < maxTwists
    · rw [if_pos ⟨Nat.pos_of_ne_zero h0, hlt⟩, if_neg h0, Array.toList_push,
        List.take_of_length_le]
      rw [List.length_append, Array.length_toList]
      exact hlt
    · have hfull : maxTwists ≤ out.toList.length := Nat.le_of_not_lt hlt
      rw [if_neg (fun hp => hlt hp.2), if_neg h0, List.take_append_of_le_length hfull, hcut]

/-! ### What every frame satisfies -/

structure Reading.Holds (P : Array Twist → Prop) (r : Reading) : Prop where
  out : P r.out
  groups : ∀ g ∈ r.groups, P g.twists

namespace Reading

variable {P : Array Twist → Prop} {r : Reading}

theorem Holds.update (h : r.Holds P) {f : Array Twist → Array Twist}
    (hf : ∀ ts, P ts → P (f ts)) : (r.update f).Holds P := by
  obtain ⟨out, groups⟩ := r
  cases groups with
  | nil => exact ⟨hf _ h.out, h.groups⟩
  | cons g groups =>
    refine ⟨h.out, fun g' hg' => ?_⟩
    rcases List.mem_cons.1 hg' with rfl | hg'
    · exact hf _ (h.groups g List.mem_cons_self)
    · exact h.groups g' (List.mem_cons_of_mem _ hg')

section

variable (hnil : P #[])
  (hgroup : ∀ ts body suffix, P ts → P body → P (pushGroup ts body suffix))
include hnil hgroup

theorem Holds.push (h : r.Holds P) {t : Token}
    (hturn : ∀ layer suffix ts, t = .turn layer suffix → P ts → P (pushTurn ts layer suffix)) :
    (r.push t).Holds P := by
  cases t with
  | opening b =>
    refine ⟨h.out, fun g hg => ?_⟩
    rcases List.mem_cons.1 hg with rfl | hg
    · exact hnil
    · exact h.groups g hg
  | closing b suffix =>
    obtain ⟨out, groups⟩ := r
    cases groups with
    | nil => exact h
    | cons g groups =>
      have hg : P g.twists := h.groups g List.mem_cons_self
      have hrest : Holds P ⟨out, groups⟩ :=
        ⟨h.out, fun g' hg' => h.groups g' (List.mem_cons_of_mem _ hg')⟩
      rw [Reading.push]
      split
      · exact hrest.update fun ts hts => hgroup ts _ suffix hts hg
      · exact h
  | turn layer suffix => exact h.update fun ts hts => hturn layer suffix ts rfl hts

theorem Holds.foldl_push (h : r.Holds P) {tokens : List Token}
    (hturn : ∀ layer suffix ts, .turn layer suffix ∈ tokens → P ts →
      P (pushTurn ts layer suffix)) :
    (tokens.foldl Reading.push r).Holds P := by
  induction tokens generalizing r with
  | nil => exact h
  | cons t tokens ih =>
    refine ih (h.push hnil hgroup fun layer suffix ts ht => ?_)
      fun layer suffix ts ht => hturn layer suffix ts (List.mem_cons_of_mem _ ht)
    exact hturn layer suffix ts (ht ▸ List.mem_cons_self)

theorem Holds.finish (h : r.Holds P) : P r.finish := by
  have hbody (groups : List OpenGroup) (hgroups : ∀ g ∈ groups, P g.twists) (body : Array Twist)
      (hb : P body) :
      P (groups.foldl (fun body g => pushGroup g.twists body Suffix.one) body) := by
    induction groups generalizing body with
    | nil => exact hb
    | cons g groups ih =>
      exact ih (fun g' hg' => hgroups g' (List.mem_cons_of_mem _ hg')) _
        (hgroup _ _ _ (hgroups g List.mem_cons_self) hb)
  exact hgroup _ _ _ h.out (hbody r.groups h.groups #[] hnil)

end

/-- No list of twists in a reading is longer than the cut. -/
abbrev Capped : Reading → Prop := Holds fun ts => ts.size ≤ maxTwists

theorem capped_start : start.Capped := ⟨Nat.zero_le _, by simp [start]⟩

theorem Holds.push_capped (h : r.Capped) (t : Token) : (r.push t).Capped :=
  h.push (Nat.zero_le _) (fun _ _ _ hts _ => size_pushRepeated_le hts _ _)
    fun layer suffix _ _ hts => size_pushTurn_le hts layer suffix

theorem Holds.foldl_push_capped (h : r.Capped) (tokens : List Token) :
    (tokens.foldl Reading.push r).Capped := by
  induction tokens generalizing r with
  | nil => exact h
  | cons t tokens ih => exact ih (h.push_capped t)

end Reading

end CubeTrainer.Notation
