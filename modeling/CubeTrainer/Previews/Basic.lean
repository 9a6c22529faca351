import CubeTrainer.Catalog.Basic
import CubeTrainer.Previews.Single

/-!
# Previews

A slot for the picture of every entry of a catalog. Slots are filled one at a time, those of the
first group first and in the order of its entries.
-/

namespace CubeTrainer

/-- Draws the picture of a text on a stripped cube. It may have none yet, and keeps a state. -/
structure Rasterizer (ρ ι : Type) where
  draw : Strip → String → ρ → Option ι × ρ

/-- The slots of each group; one without a picture is still to be filled. -/
structure Previews (ι : Type) where
  slots : List (List (Option ι))
deriving DecidableEq

namespace Previews

variable {ρ ι : Type}

def empty : Previews ι := ⟨[]⟩

def ofCatalog (c : Catalog) : Previews ι :=
  ⟨c.groups.map fun g => List.replicate g.size none⟩

/-! ### Access -/

def slotAt? (v : Previews ι) (p : Position) : Option (Option ι) :=
  (v.slots[p.group]?).bind fun slots => slots[p.index]?

def get? (v : Previews ι) (p : Position) : Option ι := (v.slotAt? p).join

def has (v : Previews ι) (p : Position) : Bool := (v.get? p).isSome

def groupSlots (v : Previews ι) (group : Nat) : List (Option ι) := (v.slots[group]?).getD []

/-- The first empty slot in a list of groups whose first is the group `i`. -/
def firstEmpty (i : Nat) : List (List (Option ι)) → Option Position
  | [] => none
  | slots :: groups =>
    match slots.findIdx? Option.isNone with
    | some j => some ⟨i, j⟩
    | none => firstEmpty (i + 1) groups

def nextPending? (v : Previews ι) : Option Position := firstEmpty 0 v.slots

/-- Every empty slot, in the order in which they are filled. -/
def pending (v : Previews ι) : List Position :=
  (v.slots.mapIdx fun i slots =>
    (slots.mapIdx fun j slot => if slot.isNone then [Position.mk i j] else []).flatten).flatten

def isComplete (v : Previews ι) : Bool := v.nextPending?.isNone

def filledCount (v : Previews ι) : Nat := v.slots.flatten.countP Option.isSome

def slotCount (v : Previews ι) : Nat := v.slots.flatten.length

/-- How much is filled of a hundred, in single precision and without the places after the point.
Without slots all is filled. -/
def percent (v : Previews ι) : Nat :=
  if v.slotCount = 0 then 100
  else
    let share := Single.divide (Single.round v.filledCount 1) (Single.round v.slotCount 1)
    let percent := Single.round (share.1 * 100) share.2
    percent.1 / percent.2

/-! ### Changes -/

def set (v : Previews ι) (p : Position) (slot : Option ι) : Previews ι :=
  ⟨v.slots.modify p.group fun slots => slots.set p.index slot⟩

theorem slotAt?_set (v : Previews ι) (p q : Position) (slot : Option ι) :
    (v.set p slot).slotAt? q = if q = p then (v.slotAt? p).map fun _ => slot else v.slotAt? q := by
  obtain ⟨g, i⟩ := p
  obtain ⟨g', i'⟩ := q
  simp only [slotAt?, set, List.getElem?_modify, Position.mk.injEq]
  by_cases hg : g = g'
  · subst hg
    cases v.slots[g]? with
    | none => simp
    | some slots => by_cases hi : i = i' <;> grind
  · have hg' : ¬ g' = g := fun h => hg h.symm
    simp [hg, hg']

theorem sizes_set (v : Previews ι) (p : Position) (slot : Option ι) :
    (v.set p slot).slots.map List.length = v.slots.map List.length := by
  refine List.ext_getElem? fun i => ?_
  simp only [set, List.getElem?_map, List.getElem?_modify]
  cases v.slots[i]? with
  | none => rfl
  | some slots => split <;> simp

def invalidate (v : Previews ι) (p : Position) : Previews ι := v.set p none

def clear (v : Previews ι) : Previews ι :=
  ⟨v.slots.map fun slots => slots.map fun _ => none⟩

/-- Has the picture at `p` drawn, from a state of the rasterizer, and tells whether it was. Nothing
is drawn if the catalog has no such entry or there is no slot for it. -/
def fill (v : Previews ι) (c : Catalog) (r : Rasterizer ρ ι) (p : Position) (s : ρ) :
    Bool × Previews ι × ρ :=
  match c.groupAt? p.group, c.entryAt? p, v.slotAt? p with
  | some g, some e, some _ =>
    match r.draw g.strip e.current s with
    | (some picture, s) => (true, v.set p (some picture), s)
    | (none, s) => (false, v, s)
  | _, _, _ => (false, v, s)

end Previews

end CubeTrainer
