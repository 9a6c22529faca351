/-!
# Maps with sorted keys

A map from texts, held as its entries in the code point order of their keys, so that two maps are
equal exactly when they have the same entries. `get?_insert` says what an insertion changes.
-/

namespace CubeTrainer

/-- Entries by ascending key, each key once. -/
structure SortedMap (α : Type) where
  entries : List (String × α)
  sorted : entries.Pairwise (fun a b => a.1 < b.1)
deriving DecidableEq

namespace SortedMap

variable {α : Type}

/-- Puts `x` under `k` into a list of entries sorted by key, in place of what was there. -/
def insertEntry (k : String) (x : α) : List (String × α) → List (String × α)
  | [] => [(k, x)]
  | e :: es =>
    if k < e.1 then (k, x) :: e :: es
    else if k = e.1 then (k, x) :: es
    else e :: insertEntry k x es

theorem mem_insertEntry {k : String} {x : α} {a : String × α} {es : List (String × α)}
    (h : a ∈ insertEntry k x es) : a = (k, x) ∨ a ∈ es := by
  induction es with
  | nil => simpa [insertEntry] using h
  | cons e es ih =>
    rw [insertEntry] at h
    split at h
    · simpa using h
    · split at h
      · rcases List.mem_cons.1 h with h | h
        · exact .inl h
        · exact .inr (List.mem_cons_of_mem _ h)
      · rcases List.mem_cons.1 h with h | h
        · exact .inr (h ▸ List.mem_cons_self)
        · exact (ih h).imp_right (List.mem_cons_of_mem _)

theorem lt_of_not_lt_of_ne {a b : String} (h : ¬ a < b) (hne : a ≠ b) : b < a := by
  rcases Std.le_total (a := a) (b := b) with hab | hba
  · exact absurd (Std.lt_of_le_of_ne hab hne) h
  · exact Std.lt_of_le_of_ne hba (Ne.symm hne)

theorem pairwise_insertEntry (k : String) (x : α) {es : List (String × α)}
    (h : es.Pairwise (fun a b => a.1 < b.1)) :
    (insertEntry k x es).Pairwise (fun a b => a.1 < b.1) := by
  induction es with
  | nil => simp [insertEntry]
  | cons e es ih =>
    obtain ⟨he, hes⟩ := List.pairwise_cons.1 h
    rw [insertEntry]
    split
    · rename_i hlt
      refine List.pairwise_cons.2 ⟨fun a ha => ?_, h⟩
      rcases List.mem_cons.1 ha with rfl | ha
      · exact hlt
      · exact String.lt_trans hlt (he a ha)
    · split
      · rename_i heq
        subst heq
        exact List.pairwise_cons.2 ⟨he, hes⟩
      · rename_i hlt hne
        refine List.pairwise_cons.2 ⟨fun a ha => ?_, ih hes⟩
        rcases mem_insertEntry ha with rfl | ha
        · exact lt_of_not_lt_of_ne hlt hne
        · exact he a ha

def empty : SortedMap α := ⟨[], .nil⟩

instance : Inhabited (SortedMap α) := ⟨empty⟩

def insert (m : SortedMap α) (k : String) (x : α) : SortedMap α :=
  ⟨insertEntry k x m.entries, pairwise_insertEntry k x m.sorted⟩

def get? (m : SortedMap α) (k : String) : Option α :=
  m.entries.lookup k

def size (m : SortedMap α) : Nat := m.entries.length

def isEmpty (m : SortedMap α) : Bool := m.entries.isEmpty

/-- The map of a list of entries; the last entry of a key counts. -/
def ofList (es : List (String × α)) : SortedMap α :=
  es.foldl (fun m e => m.insert e.1 e.2) empty

theorem lookup_cons_ite (k : String) (e : String × α) (es : List (String × α)) :
    (e :: es).lookup k = if k = e.1 then some e.2 else es.lookup k := by
  obtain ⟨a, x⟩ := e
  by_cases h : k = a
  · simp [h]
  · have hb : (k == a) = false := by simpa using h
    simp [List.lookup_cons, hb, h]

theorem lookup_insertEntry (k k' : String) (x : α) (es : List (String × α)) :
    (insertEntry k x es).lookup k' = if k' = k then some x else es.lookup k' := by
  induction es with
  | nil => simp [insertEntry, lookup_cons_ite]
  | cons e es ih => grind [insertEntry, lookup_cons_ite]

theorem get?_insert (m : SortedMap α) (k k' : String) (x : α) :
    (m.insert k x).get? k' = if k' = k then some x else m.get? k' :=
  lookup_insertEntry k k' x m.entries

/-! ### Lists of entries -/

theorem insertEntry_of_lt {k : String} {x : α} {es : List (String × α)} (h : ∀ e ∈ es, e.1 < k) :
    insertEntry k x es = es ++ [(k, x)] := by
  induction es with
  | nil => rfl
  | cons e es ih =>
    have he : e.1 < k := h e List.mem_cons_self
    have hlt : ¬ k < e.1 := fun hlt => String.lt_irrefl k (String.lt_trans hlt he)
    have hne : k ≠ e.1 := fun heq => String.lt_irrefl k (heq ▸ he)
    rw [insertEntry, if_neg hlt, if_neg hne, ih fun e' he' => h e' (List.mem_cons_of_mem _ he')]
    rfl

theorem entries_foldl_insert (m : SortedMap α) {es : List (String × α)}
    (h : (m.entries ++ es).Pairwise (fun a b => a.1 < b.1)) :
    (es.foldl (fun m e => m.insert e.1 e.2) m).entries = m.entries ++ es := by
  induction es generalizing m with
  | nil => simp
  | cons e es ih =>
    have hlast : ∀ a ∈ m.entries, a.1 < e.1 := fun a ha =>
      (List.pairwise_append.1 h).2.2 a ha e List.mem_cons_self
    have hinsert : (m.insert e.1 e.2).entries = m.entries ++ [e] := insertEntry_of_lt hlast
    have hsplit : m.entries ++ e :: es = (m.insert e.1 e.2).entries ++ es := by simp [hinsert]
    rw [hsplit] at h ⊢
    exact ih (m.insert e.1 e.2) h

theorem eq_of_entries {m m' : SortedMap α} (h : m.entries = m'.entries) : m = m' := by
  cases m
  cases m'
  simpa using h

theorem ofList_entries (m : SortedMap α) : ofList m.entries = m :=
  eq_of_entries (entries_foldl_insert empty m.sorted)

end SortedMap

end CubeTrainer
