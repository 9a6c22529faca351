import CubeTrainer.Datum
import CubeTrainer.SortedMap

/-!
# Catalogs

Groups of named algorithms. A name occurs once in its group, and only the current text of an entry
ever changes: every change is a `mapCurrent`, which keeps groups, strips, names and authored texts.
-/

namespace CubeTrainer

/-- The stickers to grey out, by face. -/
abbrev Strip := SortedMap (List UInt32)

structure Entry where
  name : String
  /-- The text its author gave it. -/
  authored : String
  /-- The text in use, which the user may have edited. -/
  current : String
deriving DecidableEq, Inhabited

namespace Entry

def ofAuthored (name authored : String) : Entry := ⟨name, authored, authored⟩

def isCustomized (e : Entry) : Bool := e.current ≠ e.authored

/-- The authored text takes the place of an empty one. -/
def fillIn (e : Entry) : Entry :=
  if e.current.isEmpty then { e with current := e.authored } else e

@[simp] theorem name_fillIn (e : Entry) : e.fillIn.name = e.name := by
  unfold fillIn; split <;> rfl

end Entry

/-- Algorithms in order, with the strip that all of them share. -/
structure Group where
  name : String
  strip : Strip
  entries : List Entry
deriving DecidableEq, Inhabited

namespace Group

def names (g : Group) : List String := g.entries.map Entry.name

def size (g : Group) : Nat := g.entries.length

def mapEntries (f : Nat → Entry → Entry) (g : Group) : Group :=
  { g with entries := g.entries.mapIdx f }

theorem names_mapEntries {f : Nat → Entry → Entry} (hf : ∀ i e, (f i e).name = e.name)
    (g : Group) : (g.mapEntries f).names = g.names := by
  refine List.ext_getElem? fun i => ?_
  simp only [names, mapEntries, List.getElem?_map, List.getElem?_mapIdx]
  cases g.entries[i]? <;> simp [hf]

end Group

/-- A group of the catalog and an entry of the group, both counted from zero. -/
structure Position where
  group : Nat
  index : Nat
deriving DecidableEq, Inhabited

namespace Position

def first : Position := ⟨0, 0⟩

end Position

/-- Groups of algorithms in display order. -/
structure Catalog where
  groups : List Group
  /-- No two entries of a group share their name. -/
  nodup_names : ∀ g ∈ groups, g.names.Nodup
deriving DecidableEq

namespace Catalog

def empty : Catalog := ⟨[], by simp⟩

instance : Inhabited Catalog := ⟨empty⟩

/-! ### Access -/

def size (c : Catalog) : Nat := c.groups.length

def groupAt? (c : Catalog) (i : Nat) : Option Group := c.groups[i]?

def entryAt? (c : Catalog) (p : Position) : Option Entry :=
  (c.groupAt? p.group).bind fun g => g.entries[p.index]?

def contains (c : Catalog) (p : Position) : Bool := (c.entryAt? p).isSome

def entryCount (c : Catalog) : Nat := (c.groups.flatMap Group.entries).length

/-! ### Changes -/

/-- The catalog with the text in use of each entry given by `f`. -/
def mapCurrent (f : Position → Entry → String) (c : Catalog) : Catalog where
  groups := c.groups.mapIdx fun i g =>
    g.mapEntries fun j e => { e with current := f ⟨i, j⟩ e }
  nodup_names := by
    intro g hg
    obtain ⟨i, hi, rfl⟩ := List.mem_iff_getElem.1 hg
    rw [List.getElem_mapIdx, Group.names_mapEntries]
    · exact c.nodup_names _ (List.getElem_mem _)
    · exact fun _ _ => rfl

def set (c : Catalog) (p : Position) (text : String) : Catalog :=
  c.mapCurrent fun q e => if q = p then text else e.current

theorem groupAt?_mapCurrent (f : Position → Entry → String) (c : Catalog) (i : Nat) :
    (c.mapCurrent f).groupAt? i =
      (c.groupAt? i).map (Group.mapEntries fun j e => { e with current := f ⟨i, j⟩ e }) := by
  simp [groupAt?, mapCurrent, List.getElem?_mapIdx]

theorem entryAt?_mapCurrent (f : Position → Entry → String) (c : Catalog) (p : Position) :
    (c.mapCurrent f).entryAt? p = (c.entryAt? p).map fun e => { e with current := f p e } := by
  simp only [entryAt?, groupAt?_mapCurrent]
  cases c.groupAt? p.group with
  | none => rfl
  | some g => simp [Group.mapEntries, List.getElem?_mapIdx]

theorem entryAt?_set (c : Catalog) (p q : Position) (text : String) :
    (c.set p text).entryAt? q =
      (c.entryAt? q).map fun e => if q = p then { e with current := text } else e := by
  rw [set, entryAt?_mapCurrent]
  by_cases h : q = p <;> simp [h]

theorem mapCurrent_mapCurrent (f g : Position → Entry → String) (c : Catalog) :
    (c.mapCurrent f).mapCurrent g = c.mapCurrent fun p e => g p { e with current := f p e } := by
  simp [mapCurrent, Group.mapEntries, Function.comp_def]

@[simp] theorem contains_mapCurrent (f : Position → Entry → String) (c : Catalog) (p : Position) :
    (c.mapCurrent f).contains p = c.contains p := by
  simp [contains, entryAt?_mapCurrent]

/-- The catalog with every authored text in use: all of it but what users change. -/
def pristine (c : Catalog) : Catalog :=
  c.mapCurrent fun _ e => e.authored

@[simp] theorem pristine_mapCurrent (f : Position → Entry → String) (c : Catalog) :
    (c.mapCurrent f).pristine = c.pristine :=
  mapCurrent_mapCurrent f _ c

end Catalog

/-! ### Catalogs from groups -/

inductive CatalogError where
  | malformed (format : Format) (reason : String)
  /-- An entry has the name of an earlier one of the group with this number. -/
  | duplicateName (group : Nat) (name : String)
deriving DecidableEq

def firstRepeated (seen : List String) : List String → Option String
  | [] => none
  | name :: names =>
    if name ∈ seen then some name else firstRepeated (name :: seen) names

/-- The first group with a repeated name, counted from `i`, and the name. -/
def firstDuplicate (i : Nat) : List Group → Option (Nat × String)
  | [] => none
  | g :: gs =>
    match firstRepeated [] g.names with
    | some name => some (i, name)
    | none => firstDuplicate (i + 1) gs

theorem nodup_of_firstRepeated {seen names : List String} (h : firstRepeated seen names = none) :
    names.Nodup ∧ ∀ name ∈ names, name ∉ seen := by
  induction names generalizing seen with
  | nil => simp
  | cons name names ih =>
    rw [firstRepeated] at h
    split at h
    · exact absurd h (by simp)
    · rename_i hs
      obtain ⟨hn, hm⟩ := ih h
      refine ⟨List.nodup_cons.2 ⟨fun hin => hm name hin List.mem_cons_self, hn⟩, fun n hin => ?_⟩
      rcases List.mem_cons.1 hin with rfl | hin
      · exact hs
      · exact fun hns => hm n hin (List.mem_cons_of_mem _ hns)

theorem nodup_of_firstDuplicate {i : Nat} {gs : List Group} (h : firstDuplicate i gs = none) :
    ∀ g ∈ gs, g.names.Nodup := by
  induction gs generalizing i with
  | nil => simp
  | cons g gs ih =>
    rw [firstDuplicate] at h
    split at h
    · exact absurd h (by simp)
    · rename_i hg
      intro g' hg'
      rcases List.mem_cons.1 hg' with rfl | hg'
      · exact (nodup_of_firstRepeated hg).1
      · exact ih h g' hg'

/-- The catalog of some groups. An entry without a text in use gets the authored one. -/
def Catalog.ofGroups (groups : List Group) : Except CatalogError Catalog :=
  match h : firstDuplicate 0 groups with
  | some (group, name) => .error (.duplicateName group name)
  | none => .ok {
      groups := groups.map (Group.mapEntries fun _ => Entry.fillIn)
      nodup_names := by
        intro g hg
        obtain ⟨g₀, hg₀, rfl⟩ := List.mem_map.1 hg
        rw [Group.names_mapEntries fun _ => Entry.name_fillIn]
        exact nodup_of_firstDuplicate h g₀ hg₀ }

end CubeTrainer
