import CubeTrainer.Previews.Basic
import Mathlib.Data.List.Nodup

/-!
# Pending slots

Which slots are empty, in the order in which they are filled: group by group, and in the order of
the entries. The slot that is filled next is the first of them (`nextPending?_eq_head?`), and what
stays pending when it is filled is the rest (`pending_set`).
-/

namespace CubeTrainer

/-- In an earlier group, or earlier in the same group. -/
def Position.Before (p q : Position) : Prop :=
  p.group < q.group ∨ p.group = q.group ∧ p.index < q.index

namespace Position

variable {p q : Position}

theorem Before.ne (h : p.Before q) : p ≠ q := by
  rintro rfl
  rcases h with h | ⟨-, h⟩ <;> exact Nat.lt_irrefl _ h

theorem Before.asymm (h : p.Before q) : ¬ q.Before p := by
  rcases h with h | ⟨hg, h⟩ <;> rintro (h' | ⟨hg', h'⟩) <;> omega

end Position

namespace Previews

variable {ι : Type} {v : Previews ι} {p q : Position} {slot old : Option ι}

/-! ### Order -/

/-- The empty slots of a row, which is the row of the group `g` from the index `k` on. -/
def pendingRow (g k : Nat) (slots : List (Option ι)) : List Position :=
  (slots.mapIdx fun j slot => if slot.isNone then [Position.mk g (j + k)] else []).flatten

theorem pending_eq (v : Previews ι) :
    v.pending = (v.slots.mapIdx fun g slots => pendingRow g 0 slots).flatten := rfl

theorem mem_pendingRow {g k : Nat} {slots : List (Option ι)} :
    p ∈ pendingRow g k slots ↔
      ∃ j, slots[j]? = some none ∧ p = ⟨g, j + k⟩ := by
  simp only [pendingRow, List.mem_flatten, List.mem_mapIdx]
  constructor
  · rintro ⟨l, ⟨j, hj, rfl⟩, hp⟩
    split at hp
    · rename_i hnone
      refine ⟨j, ?_, List.mem_singleton.1 hp⟩
      rw [List.getElem?_eq_getElem hj, Option.isNone_iff_eq_none.1 hnone]
    · exact absurd hp List.not_mem_nil
  · rintro ⟨j, hslot, rfl⟩
    obtain ⟨hj, hnone⟩ := List.getElem?_eq_some_iff.1 hslot
    exact ⟨_, ⟨j, hj, rfl⟩, by simp [hnone]⟩

theorem mem_pending : p ∈ v.pending ↔ v.slotAt? p = some none := by
  simp only [pending_eq, List.mem_flatten, List.mem_mapIdx, slotAt?]
  constructor
  · rintro ⟨l, ⟨g, hg, rfl⟩, hp⟩
    obtain ⟨j, hslot, rfl⟩ := mem_pendingRow.1 hp
    rw [List.getElem?_eq_getElem hg]
    exact hslot
  · intro hp
    obtain ⟨slots, hslots, hslot⟩ := Option.bind_eq_some_iff.1 hp
    obtain ⟨hg, rfl⟩ := List.getElem?_eq_some_iff.1 hslots
    exact ⟨_, ⟨p.group, hg, rfl⟩, mem_pendingRow.2 ⟨p.index, hslot, rfl⟩⟩

theorem slotAt?_of_pending {rest : List Position} (h : v.pending = p :: rest) :
    v.slotAt? p = some none :=
  mem_pending.1 (h ▸ List.mem_cons_self)

theorem pairwise_pendingRow (g k : Nat) (slots : List (Option ι)) :
    (pendingRow g k slots).Pairwise Position.Before := by
  rw [pendingRow, List.pairwise_flatten]
  refine ⟨fun l hl => ?_, List.pairwise_iff_getElem.2 fun i j hi hj hij p hp q hq => ?_⟩
  · obtain ⟨j, hj, rfl⟩ := List.mem_mapIdx.1 hl
    split <;> simp
  · simp only [List.getElem_mapIdx] at hp hq
    split at hp
    · split at hq
      · rw [List.mem_singleton.1 hp, List.mem_singleton.1 hq]
        exact .inr ⟨rfl, Nat.add_lt_add_right hij k⟩
      · exact absurd hq List.not_mem_nil
    · exact absurd hp List.not_mem_nil

theorem pairwise_pending (v : Previews ι) : v.pending.Pairwise Position.Before := by
  rw [pending_eq, List.pairwise_flatten]
  refine ⟨fun l hl => ?_, List.pairwise_iff_getElem.2 fun i j hi hj hij p hp q hq => ?_⟩
  · obtain ⟨g, hg, rfl⟩ := List.mem_mapIdx.1 hl
    exact pairwise_pendingRow g 0 _
  · simp only [List.getElem_mapIdx] at hp hq
    obtain ⟨i', -, rfl⟩ := mem_pendingRow.1 hp
    obtain ⟨j', -, rfl⟩ := mem_pendingRow.1 hq
    exact .inl hij

/-! ### The next slot -/

theorem head?_pendingRow (g k : Nat) (slots : List (Option ι)) :
    (pendingRow g k slots).head? =
      (slots.findIdx? Option.isNone).map fun j => Position.mk g (j + k) := by
  induction slots generalizing k with
  | nil => rfl
  | cons slot slots ih =>
    have hrest := ih (k + 1)
    simp only [pendingRow, List.mapIdx_cons, List.flatten_cons, List.head?_append,
      List.findIdx?_cons] at hrest ⊢
    cases slot with
    | none => rfl
    | some x =>
      simp only [Nat.add_assoc, Nat.add_comm 1 k, Option.isNone_some, Bool.false_eq_true, if_false,
        List.head?_nil, Option.none_or, Option.map_map, Function.comp_def]
      exact hrest

theorem firstEmpty_eq_head? (i : Nat) (groups : List (List (Option ι))) :
    firstEmpty i groups =
      ((groups.mapIdx fun g slots => pendingRow (g + i) 0 slots).flatten).head? := by
  induction groups generalizing i with
  | nil => rfl
  | cons slots groups ih =>
    have hrest := ih (i + 1)
    have hrow := head?_pendingRow i 0 slots
    simp only [List.mapIdx_cons, List.flatten_cons, List.head?_append, Nat.zero_add,
      Nat.add_assoc, Nat.add_comm 1 i, hrow, firstEmpty] at hrest ⊢
    rw [← hrest]
    cases slots.findIdx? Option.isNone <;> rfl

theorem nextPending?_eq_head? (v : Previews ι) : v.nextPending? = v.pending.head? :=
  firstEmpty_eq_head? 0 v.slots

theorem isComplete_iff : v.isComplete = true ↔ v.pending = [] := by
  rw [isComplete, nextPending?_eq_head?, Option.isNone_iff_eq_none, List.head?_eq_none_iff]

theorem pending_set {rest : List Position} (h : v.pending = p :: rest) (picture : ι) :
    (v.set p (some picture)).pending = rest := by
  have hall := v.pairwise_pending
  rw [h] at hall
  obtain ⟨hfirst, hrest⟩ := List.pairwise_cons.1 hall
  have hmem (q : Position) : q ∈ (v.set p (some picture)).pending ↔ q ∈ rest := by
    have hq := mem_pending (v := v) (p := q)
    rw [h, List.mem_cons] at hq
    rw [mem_pending, slotAt?_set]
    by_cases hqp : q = p
    · subst hqp
      have hnot : q ∉ rest := fun hin => (hfirst q hin).ne rfl
      simp [hnot]
    · rw [if_neg hqp, ← hq]
      simp [hqp]
  -- Two ascending lists with the same members are the same.
  have hnodup := (v.set p (some picture)).pairwise_pending.imp Position.Before.ne
  have hperm := (List.perm_ext_iff_of_nodup hnodup (hrest.imp Position.Before.ne)).2 hmem
  exact hperm.eq_of_pairwise (fun a b _ _ hab hba => absurd hba hab.asymm)
    (v.set p (some picture)).pairwise_pending hrest

/-! ### Counting -/

theorem countP_flatten_modify {α : Type} (f : α → Bool) (change : List α → List α)
    {rows : List (List α)} {g : Nat} {row : List α} (h : rows[g]? = some row) :
    (rows.modify g change).flatten.countP f + row.countP f =
      rows.flatten.countP f + (change row).countP f := by
  induction rows generalizing g with
  | nil => cases h
  | cons r rows ih =>
    cases g with
    | zero =>
      obtain rfl : r = row := Option.some.inj h
      simp only [List.modify_zero_cons, List.flatten_cons, List.countP_append]
      omega
    | succ g =>
      have hrest := ih h
      simp only [List.modify_succ_cons, List.flatten_cons, List.countP_append]
      omega

theorem countP_set_add {α : Type} (f : α → Bool) {row : List α} {i : Nat} {a b : α}
    (h : row[i]? = some a) :
    (row.set i b).countP f + (if f a then 1 else 0) =
      row.countP f + (if f b then 1 else 0) := by
  obtain ⟨hi, rfl⟩ := List.getElem?_eq_some_iff.1 h
  have hle : (if f row[i] = true then 1 else 0) ≤ row.countP f := by
    split
    · rename_i hf
      exact List.countP_pos_iff.2 ⟨_, List.getElem_mem hi, hf⟩
    · exact Nat.zero_le _
  rw [List.countP_set hi]
  omega

theorem filledCount_ofCatalog (c : Catalog) : (ofCatalog c : Previews ι).filledCount = 0 := by
  refine List.countP_eq_zero.2 fun slot hslot => ?_
  obtain ⟨slots, hslots, hin⟩ := List.mem_flatten.1 hslot
  obtain ⟨g, -, rfl⟩ := List.mem_map.1 hslots
  rw [List.eq_of_mem_replicate hin]
  exact Bool.false_ne_true

theorem filledCount_set (h : v.slotAt? p = some old) (slot : Option ι) :
    (v.set p slot).filledCount + (if old.isSome then 1 else 0) =
      v.filledCount + (if slot.isSome then 1 else 0) := by
  obtain ⟨row, hrow, hold⟩ := Option.bind_eq_some_iff.1 h
  have hall := countP_flatten_modify Option.isSome (fun slots => slots.set p.index slot) hrow
  have hone := countP_set_add Option.isSome (b := slot) hold
  simp only [filledCount, set]
  omega

theorem set_of_eq_none (h : v.slotAt? p = none) (slot : Option ι) : v.set p slot = v := by
  have hslots : v.slots.modify p.group (fun slots => slots.set p.index slot) = v.slots := by
    refine List.ext_getElem? fun g => ?_
    rw [List.getElem?_modify]
    by_cases hg : p.group = g
    · subst hg
      cases hrow : v.slots[p.group]? with
      | none => rfl
      | some row =>
        have hindex : row[p.index]? = none := by
          rw [slotAt?, hrow] at h
          exact h
        simp [List.set_eq_of_length_le (List.getElem?_eq_none_iff.1 hindex)]
    · simp [hg]
  exact congrArg Previews.mk hslots

theorem filledCount_invalidate (v : Previews ι) (p : Position) :
    (v.invalidate p).filledCount + (if v.has p then 1 else 0) = v.filledCount := by
  rw [invalidate, has, get?]
  cases h : v.slotAt? p with
  | none => rw [set_of_eq_none h none]; rfl
  | some old => exact filledCount_set h none

end Previews

end CubeTrainer
