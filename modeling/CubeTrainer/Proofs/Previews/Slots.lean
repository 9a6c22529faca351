import CubeTrainer.Proofs.Previews.Pending

/-!
# The laws of the slots

Previews are filled, emptied and cleared in any order, at positions that may have no slot and for
catalogs that may have another shape than theirs. No change touches the layout (`layout_apply`), a
fill puts a picture into its own slot or does nothing (`fill_outcome`), and the slot that is pending
first, the counts and the look-ups say the same of the slots. So it is after every run
(`laws_of_run`).
-/

namespace CubeTrainer

variable {ρ ι : Type}

/-- Notes what each picture was asked of. -/
def Rasterizer.recorded (r : Rasterizer ρ ι) : Rasterizer (ρ × List (Strip × String)) ι where
  draw strip text s :=
    let drawn := r.draw strip text s.1
    (drawn.1, drawn.2, s.2 ++ [(strip, text)])

namespace Previews

variable {v : Previews ι} {c : Catalog} {r : Rasterizer ρ ι} {p : Position} {s : ρ}
  {strip : Strip} {text : String}

def layout (v : Previews ι) : List Nat := v.slots.map List.length

/-! ### Fills -/

/-- The strip and the text that the slot at `p` is to show. There are none if the catalog has no
such entry or there is no such slot. -/
def subject? (v : Previews ι) (c : Catalog) (p : Position) : Option (Strip × String) :=
  if (v.slotAt? p).isSome then
    (c.groupAt? p.group).bind fun g => (c.entryAt? p).map fun e => (g.strip, e.current)
  else none

theorem isSome_subject? (v : Previews ι) (c : Catalog) (p : Position) :
    (v.subject? c p).isSome = (c.contains p && (v.slotAt? p).isSome) := by
  unfold subject? Catalog.contains Catalog.entryAt?
  cases (v.slotAt? p).isSome with
  | false => rw [Bool.and_false]; rfl
  | true => cases c.groupAt? p.group <;> simp

theorem fill_of_subject?_eq_none (h : v.subject? c p = none) :
    v.fill c r p s = (false, v, s) := by
  unfold fill
  split
  · rename_i g e old hg he hslot
    rw [subject?, hslot, hg, he] at h
    cases h
  · rfl

theorem fill_of_subject?_eq_some (h : v.subject? c p = some (strip, text)) :
    v.fill c r p s =
      ((r.draw strip text s).1.isSome,
        ((r.draw strip text s).1.map fun picture => v.set p (some picture)).getD v,
        (r.draw strip text s).2) := by
  unfold subject? at h
  split at h
  · rename_i hslot
    obtain ⟨old, hold⟩ := Option.isSome_iff_exists.1 hslot
    obtain ⟨g, hg, h⟩ := Option.bind_eq_some_iff.1 h
    obtain ⟨e, he, h⟩ := Option.map_eq_some_iff.1 h
    obtain ⟨rfl, rfl⟩ := Prod.mk.inj h
    simp only [fill, hg, he, hold]
    rcases r.draw g.strip e.current s with ⟨_ | picture, s'⟩ <;> rfl
  · cases h

theorem fill_recorded (v : Previews ι) (c : Catalog) (r : Rasterizer ρ ι) (p : Position) (s : ρ)
    (asked : List (Strip × String)) :
    v.fill c r.recorded p (s, asked) =
      ((v.fill c r p s).1, (v.fill c r p s).2.1, (v.fill c r p s).2.2,
        asked ++ (v.subject? c p).toList) := by
  cases h : v.subject? c p with
  | none =>
    rw [fill_of_subject?_eq_none h, fill_of_subject?_eq_none h, Option.toList_none,
      List.append_nil]
  | some subject =>
    rw [fill_of_subject?_eq_some h, fill_of_subject?_eq_some h]
    rfl

/-- A fill succeeds if there is something to draw and a picture of it. Then that picture is in the
slot, and all other slots are as before. If it fails, all of them are. -/
theorem fill_outcome (v : Previews ι) (c : Catalog) (r : Rasterizer ρ ι) (p : Position) (s : ρ) :
    ((v.fill c r p s).1 = true ∧ ∃ strip text picture, v.subject? c p = some (strip, text) ∧
      (r.draw strip text s).1 = some picture ∧
      ∀ q, (v.fill c r p s).2.1.slotAt? q =
        if q = p then some (some picture) else v.slotAt? q) ∨
    ((v.fill c r p s).1 = false ∧ (v.fill c r p s).2.1 = v ∧
      ∀ strip text, v.subject? c p = some (strip, text) → (r.draw strip text s).1 = none) := by
  cases h : v.subject? c p with
  | none =>
    rw [fill_of_subject?_eq_none h]
    exact .inr ⟨rfl, rfl, fun _ _ h => by cases h⟩
  | some subject =>
    obtain ⟨strip, text⟩ := subject
    rw [fill_of_subject?_eq_some h]
    cases hdraw : (r.draw strip text s).1 with
    | none =>
      refine .inr ⟨rfl, rfl, fun strip' text' heq => ?_⟩
      obtain ⟨rfl, rfl⟩ := Prod.mk.inj (Option.some.inj heq)
      exact hdraw
    | some picture =>
      refine .inl ⟨rfl, strip, text, picture, rfl, hdraw, fun q => ?_⟩
      have hslot : (c.contains p && (v.slotAt? p).isSome) = true := by
        rw [← isSome_subject?, h]
        rfl
      obtain ⟨old, hold⟩ := Option.isSome_iff_exists.1 (Bool.and_eq_true_iff.1 hslot).2
      show (v.set p (some picture)).slotAt? q = _
      rw [slotAt?_set, hold, Option.map_some]

/-! ### Look-ups -/

theorem get?_eq_some_iff {picture : ι} :
    v.get? p = some picture ↔ v.slotAt? p = some (some picture) :=
  Option.join_eq_some_iff

theorem has_iff : v.has p = true ↔ ∃ picture, v.slotAt? p = some (some picture) := by
  rw [has, Option.isSome_iff_exists]
  exact exists_congr fun _ => get?_eq_some_iff

theorem getElem?_groupSlots (v : Previews ι) (g i : Nat) :
    (v.groupSlots g)[i]? = v.slotAt? ⟨g, i⟩ := by
  unfold groupSlots slotAt?
  cases v.slots[g]? <;> rfl

theorem nextPending?_eq_some_iff :
    v.nextPending? = some p ↔
      v.slotAt? p = some none ∧ ∀ q, v.slotAt? q = some none → q = p ∨ p.Before q := by
  have hall := v.pairwise_pending
  have hmem (q : Position) : v.slotAt? q = some none ↔ q ∈ v.pending := mem_pending.symm
  simp only [nextPending?_eq_head?, hmem]
  revert hall
  cases v.pending with
  | nil => simp
  | cons first rest =>
    intro hall
    obtain ⟨hfirst, -⟩ := List.pairwise_cons.1 hall
    rw [List.head?_cons, Option.some.injEq]
    constructor
    · rintro rfl
      exact ⟨List.mem_cons_self, fun q hq => (List.mem_cons.1 hq).imp_right (hfirst q)⟩
    · rintro ⟨hp, hleast⟩
      rcases List.mem_cons.1 hp with rfl | hp
      · rfl
      · rcases hleast first List.mem_cons_self with heq | hbefore
        · exact heq
        · exact absurd (hfirst p hp) hbefore.asymm

theorem nextPending?_eq_none_iff : v.nextPending? = none ↔ ∀ p, v.slotAt? p ≠ some none := by
  rw [nextPending?_eq_head?, List.head?_eq_none_iff, List.eq_nil_iff_forall_not_mem]
  exact forall_congr' fun p => not_congr mem_pending

/-! ### Counts -/

theorem slotCount_of_layout {v' : Previews ι} (h : v.layout = v'.layout) :
    v.slotCount = v'.slotCount := by
  simp only [layout] at h
  rw [slotCount, slotCount, List.length_flatten, List.length_flatten, h]

theorem mem_flatten_slots {slot : Option ι} :
    slot ∈ v.slots.flatten ↔ ∃ p, v.slotAt? p = some slot := by
  rw [List.mem_flatten]
  constructor
  · rintro ⟨slots, hslots, hslot⟩
    obtain ⟨g, hg⟩ := List.mem_iff_getElem?.1 hslots
    obtain ⟨i, hi⟩ := List.mem_iff_getElem?.1 hslot
    exact ⟨⟨g, i⟩, by rw [slotAt?, hg]; exact hi⟩
  · rintro ⟨p, hp⟩
    obtain ⟨slots, hslots, hslot⟩ := Option.bind_eq_some_iff.1 hp
    exact ⟨slots, List.mem_of_getElem? hslots, List.mem_of_getElem? hslot⟩

theorem isComplete_iff_filledCount : v.isComplete = true ↔ v.filledCount = v.slotCount := by
  rw [isComplete, Option.isNone_iff_eq_none, nextPending?_eq_none_iff, filledCount, slotCount,
    List.countP_eq_length]
  constructor
  · intro hfull slot hslot
    obtain ⟨p, hp⟩ := mem_flatten_slots.1 hslot
    cases slot with
    | none => exact absurd hp (hfull p)
    | some picture => rfl
  · intro hfull p hp
    exact Bool.false_ne_true (hfull none (mem_flatten_slots.2 ⟨p, hp⟩))

/-! ### Runs -/

/-- What is done to previews. The catalog and the rasterizer of one fill need not be those of the
next. -/
inductive Change (ρ ι : Type) where
  | fill (c : Catalog) (r : Rasterizer ρ ι) (p : Position) (s : ρ)
  | invalidate (p : Position)
  | clear

def apply (v : Previews ι) : Change ρ ι → Previews ι
  | .fill c r p s => (v.fill c r p s).2.1
  | .invalidate p => v.invalidate p
  | .clear => v.clear

def applyAll (v : Previews ι) (changes : List (Change ρ ι)) : Previews ι :=
  changes.foldl apply v

theorem layout_ofCatalog (c : Catalog) :
    (ofCatalog c : Previews ι).layout = c.groups.map Group.size := by
  simp [layout, ofCatalog, Function.comp_def]

theorem layout_fill (v : Previews ι) (c : Catalog) (r : Rasterizer ρ ι) (p : Position) (s : ρ) :
    (v.fill c r p s).2.1.layout = v.layout := by
  cases h : v.subject? c p with
  | none => rw [fill_of_subject?_eq_none h]
  | some subject =>
    rw [fill_of_subject?_eq_some h]
    cases (r.draw subject.1 subject.2 s).1 with
    | none => rfl
    | some picture => exact sizes_set v p (some picture)

theorem layout_clear (v : Previews ι) : v.clear.layout = v.layout := by
  simp [layout, clear, Function.comp_def]

theorem layout_apply (v : Previews ι) (change : Change ρ ι) :
    (v.apply change).layout = v.layout := by
  cases change with
  | fill c r p s => exact layout_fill v c r p s
  | invalidate p => exact sizes_set v p none
  | clear => exact layout_clear v

theorem layout_applyAll (v : Previews ι) (changes : List (Change ρ ι)) :
    (v.applyAll changes).layout = v.layout := by
  induction changes generalizing v with
  | nil => rfl
  | cons change changes ih => exact (ih (v.apply change)).trans (layout_apply v change)

/-- Whatever they are at first, and whatever is done to them, previews keep their layout. The next
fill asks the rasterizer once if both the catalog and the previews have the position, and not at
all otherwise. It succeeds if there is a picture, which is then in that slot and in no other, and
it changes nothing if it fails. The least of the empty slots is pending next, all is complete if as
many slots are filled as there are, and all look-ups agree. -/
theorem laws_of_run (v₀ : Previews ι) (changes : List (Change ρ ι)) :
    let v := v₀.applyAll changes
    let total := v₀.slotCount
    (v.layout = v₀.layout ∧ ∀ c₀, v₀ = ofCatalog c₀ → v.layout = c₀.groups.map Group.size) ∧
      (∀ (c : Catalog) (r : Rasterizer ρ ι) p s asked,
        let filled := v.fill c r.recorded p (s, asked)
        (v.subject? c p).isSome = (c.contains p && (v.slotAt? p).isSome) ∧
          filled.2.2.2 = asked ++ (v.subject? c p).toList ∧
          ((filled.1 = true ∧ ∃ strip text picture, v.subject? c p = some (strip, text) ∧
            (r.draw strip text s).1 = some picture ∧
            ∀ q, filled.2.1.slotAt? q =
              if q = p then some (some picture) else v.slotAt? q) ∨
          (filled.1 = false ∧ filled.2.1 = v ∧
            ∀ strip text, v.subject? c p = some (strip, text) →
              (r.draw strip text s).1 = none))) ∧
      (∀ p, v.nextPending? = some p ↔
        v.slotAt? p = some none ∧ ∀ q, v.slotAt? q = some none → q = p ∨ p.Before q) ∧
      (v.nextPending? = none ↔ ∀ p, v.slotAt? p ≠ some none) ∧
      (v.isComplete = true ↔ (v.filledCount, v.slotCount) = (total, total)) ∧
      (∀ p picture, v.get? p = some picture ↔ v.slotAt? p = some (some picture)) ∧
      (∀ p, v.has p = true ↔ ∃ picture, v.slotAt? p = some (some picture)) ∧
      ∀ g i, (v.groupSlots g)[i]? = v.slotAt? ⟨g, i⟩ := by
  intro v total
  have hlayout : v.layout = v₀.layout := layout_applyAll v₀ changes
  have htotal : v.slotCount = total := slotCount_of_layout hlayout
  refine ⟨⟨hlayout, ?_⟩, ?_, fun p => nextPending?_eq_some_iff, nextPending?_eq_none_iff, ?_,
    fun p picture => get?_eq_some_iff, fun p => has_iff, v.getElem?_groupSlots⟩
  · rintro c₀ rfl
    exact hlayout.trans (layout_ofCatalog c₀)
  · intro c r p s asked filled
    have hfilled : filled = _ := fill_recorded v c r p s asked
    rw [hfilled]
    exact ⟨isSome_subject? v c p, rfl, fill_outcome v c r p s⟩
  · rw [isComplete_iff_filledCount, htotal, Prod.mk.injEq, and_iff_left rfl]

end Previews

end CubeTrainer
