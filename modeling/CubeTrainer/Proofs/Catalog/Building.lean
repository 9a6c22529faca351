import CubeTrainer.Proofs.Catalog.Entries

/-!
# Catalogs built from groups

`Catalog.ofGroups` refuses groups one of which repeats a name, and tells the first such group and
its first entry with the name of an earlier one. Groups that repeat no name make a catalog that
differs from them in the texts it fills in alone, and that is built from its own groups again
(`ofGroups_result`).
-/

namespace CubeTrainer

/-- The entry number `j` of the group has the name of an earlier one. -/
def Group.RepeatsAt (g : Group) (j : Nat) : Prop :=
  ∃ i < j, ∃ e e', g.entries[i]? = some e ∧ g.entries[j]? = some e' ∧ e.name = e'.name

/-! ### Repeated names -/

namespace Group

variable {g : Group}

theorem getElem?_names (g : Group) (j : Nat) : g.names[j]? = g.entries[j]?.map Entry.name :=
  List.getElem?_map

theorem repeatsAt_iff {j : Nat} :
    g.RepeatsAt j ↔ ∃ e, g.entries[j]? = some e ∧ e.name ∈ g.names.take j := by
  constructor
  · rintro ⟨i, hij, e, e', hi, hj, hname⟩
    refine ⟨e', hj, List.mem_iff_getElem?.2 ⟨i, ?_⟩⟩
    rw [List.getElem?_take_of_lt hij, getElem?_names, hi, ← hname]
    rfl
  · rintro ⟨e', hj, hmem⟩
    obtain ⟨i, hi⟩ := List.mem_iff_getElem?.1 hmem
    rw [List.getElem?_take, getElem?_names] at hi
    split at hi
    · rename_i hij
      obtain ⟨e, he, hname⟩ := Option.map_eq_some_iff.1 hi
      exact ⟨i, hij, e, e', he, hj, hname⟩
    · cases hi

theorem nodup_take_iff (g : Group) (j : Nat) :
    (g.names.take j).Nodup ↔ ∀ i < j, ¬ g.RepeatsAt i := by
  induction j with
  | zero => simp
  | succ j ih =>
    have hlast : (g.names.take j ++ g.names[j]?.toList).Nodup ↔
        (g.names.take j).Nodup ∧ ¬ g.RepeatsAt j := by
      rw [repeatsAt_iff, getElem?_names]
      cases g.entries[j]? with
      | none => simp
      | some e => simp [List.nodup_append, List.forall_mem_ne']
    rw [List.take_add_one, hlast, ih, Nat.forall_lt_succ_right]

theorem nodup_names_iff (g : Group) : g.names.Nodup ↔ ∀ j, ¬ g.RepeatsAt j := by
  constructor
  · intro h j hj
    have htake : (g.names.take (j + 1)).Nodup := h.sublist (List.take_sublist _ _)
    exact (g.nodup_take_iff (j + 1)).1 htake j (Nat.lt_succ_self j) hj
  · intro h
    rw [← List.take_length (l := g.names)]
    exact (g.nodup_take_iff _).2 fun i _ => h i

end Group

theorem firstRepeated_eq_some {seen names : List String} {name : String}
    (h : firstRepeated seen names = some name) :
    ∃ before after, names = before ++ name :: after ∧ (name ∈ seen ∨ name ∈ before) ∧
      before.Nodup ∧ ∀ n ∈ before, n ∉ seen := by
  induction names generalizing seen with
  | nil => cases h
  | cons n names ih =>
    rw [firstRepeated] at h
    split at h
    · rename_i hn
      injection h with h
      subst h
      exact ⟨[], names, rfl, .inl hn, List.nodup_nil, by simp⟩
    · rename_i hn
      obtain ⟨before, after, rfl, hname, hnodup, hfresh⟩ := ih h
      refine ⟨n :: before, after, rfl, ?_, ?_, ?_⟩
      · rcases hname with hname | hname
        · rcases List.mem_cons.1 hname with rfl | hname
          · exact .inr List.mem_cons_self
          · exact .inl hname
        · exact .inr (List.mem_cons_of_mem _ hname)
      · refine List.nodup_cons.2 ⟨fun hmem => ?_, hnodup⟩
        exact hfresh n hmem List.mem_cons_self
      · intro m hm
        rcases List.mem_cons.1 hm with rfl | hm
        · exact hn
        · exact fun hseen => hfresh m hm (List.mem_cons_of_mem _ hseen)

theorem Group.exists_repeatsAt {g : Group} {name : String}
    (h : firstRepeated [] g.names = some name) :
    ∃ j e, g.entries[j]? = some e ∧ e.name = name ∧ g.RepeatsAt j ∧
      ∀ i < j, ¬ g.RepeatsAt i := by
  obtain ⟨before, after, hnames, hmem, hnodup, -⟩ := firstRepeated_eq_some h
  have hin : name ∈ before := by simpa using hmem
  have htake : g.names.take before.length = before := by
    rw [hnames, List.take_left]
  have hat : g.entries[before.length]?.map Entry.name = some name := by
    rw [← getElem?_names, hnames]
    simp
  obtain ⟨e, he, hname⟩ := Option.map_eq_some_iff.1 hat
  refine ⟨before.length, e, he, hname, ?_, ?_⟩
  · exact repeatsAt_iff.2 ⟨e, he, by rw [htake, hname]; exact hin⟩
  · rw [← nodup_take_iff, htake]
    exact hnodup

/-- The group that is told is the first one that repeats a name. -/
theorem firstDuplicate_eq_some {i k : Nat} {gs : List Group} {name : String}
    (h : firstDuplicate i gs = some (k, name)) :
    ∃ before g after, gs = before ++ g :: after ∧ k = i + before.length ∧
      firstRepeated [] g.names = some name ∧ ∀ g' ∈ before, g'.names.Nodup := by
  induction gs generalizing i with
  | nil => cases h
  | cons g gs ih =>
    rw [firstDuplicate] at h
    cases hg : firstRepeated [] g.names with
    | some n =>
      rw [hg] at h
      injection h with h
      injection h with hk hname
      exact ⟨[], g, gs, rfl, hk.symm, hg.trans (congrArg some hname), by simp⟩
    | none =>
      rw [hg] at h
      obtain ⟨before, g', after, rfl, rfl, hname, hbefore⟩ := ih h
      refine ⟨g :: before, g', after, rfl, ?_, hname, ?_⟩
      · rw [List.length_cons]
        omega
      · intro g'' hg''
        rcases List.mem_cons.1 hg'' with rfl | hg''
        · exact (nodup_of_firstRepeated hg).1
        · exact hbefore g'' hg''

namespace Catalog

/-! ### Building -/

theorem eq_of_groups {c c' : Catalog} (h : c.groups = c'.groups) : c = c' := by
  cases c
  cases c'
  simpa using h

theorem ofGroups_eq_error {gs : List Group} {e : CatalogError} (h : ofGroups gs = .error e) :
    ∃ k name, e = .duplicateName k name ∧ firstDuplicate 0 gs = some (k, name) := by
  unfold ofGroups at h
  split at h
  · rename_i k name hfirst
    injection h with h
    exact ⟨k, name, h.symm, hfirst⟩
  · cases h

theorem ofGroups_eq_ok {gs : List Group} {c : Catalog} (h : ofGroups gs = .ok c) :
    (∀ g ∈ gs, g.names.Nodup) ∧ c.groups = gs.map (Group.mapEntries fun _ => Entry.fillIn) := by
  unfold ofGroups at h
  split at h
  · cases h
  · rename_i hnone
    injection h with h
    subst h
    exact ⟨nodup_of_firstDuplicate hnone, rfl⟩

theorem exists_first_of_error {gs : List Group} {e : CatalogError} (h : ofGroups gs = .error e) :
    ∃ k g j entry, e = .duplicateName k entry.name ∧ gs[k]? = some g ∧
      g.entries[j]? = some entry ∧ g.RepeatsAt j ∧ (∀ i < j, ¬ g.RepeatsAt i) ∧
      ∀ k' < k, ∀ g', gs[k']? = some g' → ∀ i, ¬ g'.RepeatsAt i := by
  obtain ⟨k, name, rfl, hfirst⟩ := ofGroups_eq_error h
  obtain ⟨before, g, after, rfl, rfl, hname, hbefore⟩ := firstDuplicate_eq_some hfirst
  obtain ⟨j, entry, hj, rfl, hrepeats, hleast⟩ := g.exists_repeatsAt hname
  refine ⟨0 + before.length, g, j, entry, rfl, by simp, hj, hrepeats, hleast, ?_⟩
  intro k' hk' g' hg'
  rw [List.getElem?_append_left (by omega)] at hg'
  exact (g'.nodup_names_iff).1 (hbefore g' (List.mem_of_getElem? hg'))

theorem fillIn_fillIn (e : Entry) : e.fillIn.fillIn = e.fillIn := by
  by_cases h : e.current.isEmpty = true
  · by_cases ha : e.authored.isEmpty = true <;> simp [Entry.fillIn, h, ha]
  · simp [Entry.fillIn, h]

theorem mapEntries_fillIn (g : Group) :
    (g.mapEntries fun _ => Entry.fillIn) = { g with
      entries := g.entries.map fun e =>
        { e with current := if e.current = "" then e.authored else e.current } } := by
  have hfill (e : Entry) : e.fillIn =
      { e with current := if e.current = "" then e.authored else e.current } := by
    by_cases h : e.current = "" <;> simp [Entry.fillIn, h]
  simp only [Group.mapEntries, mapIdx_const, ← hfill]

theorem ofGroups_groups {gs : List Group} {c : Catalog}
    (h : c.groups = gs.map (Group.mapEntries fun _ => Entry.fillIn)) :
    ofGroups c.groups = .ok c := by
  obtain ⟨c', hc', hgroups⟩ := exists_ofGroups c.nodup_names
  have htwice (g : Group) : ((g.mapEntries fun _ => Entry.fillIn).mapEntries
      fun _ => Entry.fillIn) = g.mapEntries fun _ => Entry.fillIn := by
    simp [Group.mapEntries, mapIdx_const, Function.comp_def, fillIn_fillIn]
  have hsame : c'.groups = c.groups := by
    rw [hgroups, h, List.map_map]
    exact List.map_congr_left fun g _ => htwice g
  rw [hc', eq_of_groups hsame]

end Catalog

/-- Building fails if and only if some group has two entries with one name. It then tells the first
group of this kind, and the name of the first entry in it that has the name of an earlier one.
Otherwise it gives the groups as they are but for texts in use that are empty, in whose place come
the authored ones. From the groups of a catalog that was built the same catalog is built. -/
theorem ofGroups_result (gs : List Group) :
    ((∃ e, Catalog.ofGroups gs = .error e) ↔ ∃ g ∈ gs, ∃ j, g.RepeatsAt j) ∧
      (∀ e, Catalog.ofGroups gs = .error e →
        ∃ k g j entry, e = .duplicateName k entry.name ∧ gs[k]? = some g ∧
          g.entries[j]? = some entry ∧ g.RepeatsAt j ∧ (∀ i < j, ¬ g.RepeatsAt i) ∧
          ∀ k' < k, ∀ g', gs[k']? = some g' → ∀ i, ¬ g'.RepeatsAt i) ∧
      ((¬ ∃ g ∈ gs, ∃ j, g.RepeatsAt j) →
        ∃ c, Catalog.ofGroups gs = .ok c ∧
          c.groups = gs.map fun g => { g with
            entries := g.entries.map fun e =>
              { e with current := if e.current = "" then e.authored else e.current } }) ∧
      ∀ c, Catalog.ofGroups gs = .ok c → Catalog.ofGroups c.groups = .ok c := by
  refine ⟨⟨?_, ?_⟩, fun e he => Catalog.exists_first_of_error he, ?_, ?_⟩
  · rintro ⟨e, he⟩
    obtain ⟨k, g, j, entry, -, hg, -, hrepeats, -⟩ := Catalog.exists_first_of_error he
    exact ⟨g, List.mem_of_getElem? hg, j, hrepeats⟩
  · rintro ⟨g, hg, j, hj⟩
    cases hc : Catalog.ofGroups gs with
    | error e => exact ⟨e, rfl⟩
    | ok c =>
      have hnodup := (Catalog.ofGroups_eq_ok hc).1 g hg
      exact absurd hj ((g.nodup_names_iff).1 hnodup j)
  · intro hnone
    have hnodup : ∀ g ∈ gs, g.names.Nodup := by
      intro g hg
      exact (g.nodup_names_iff).2 fun j hj => hnone ⟨g, hg, j, hj⟩
    obtain ⟨c, hc, hgroups⟩ := Catalog.exists_ofGroups hnodup
    refine ⟨c, hc, ?_⟩
    rw [hgroups]
    exact List.map_congr_left fun g _ => Catalog.mapEntries_fillIn g
  · intro c hc
    exact Catalog.ofGroups_groups (Catalog.ofGroups_eq_ok hc).2

/-- A name may come again in another group; of two that come again in one, the earlier is told. -/
example :
    let entry (name : String) : Entry := .ofAuthored name ""
    Catalog.ofGroups [⟨"OLL", .empty, [entry "A"]⟩,
      ⟨"PLL", .empty, [entry "A", entry "B", entry "C", entry "C", entry "B"]⟩] =
      .error (.duplicateName 1 "C") := by
  rfl

end CubeTrainer
