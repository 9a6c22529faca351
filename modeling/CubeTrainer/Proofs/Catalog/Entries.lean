import CubeTrainer.Catalog.Basic
import Mathlib.Data.List.Nodup

/-!
# Entries of catalogs

What a catalog is known by. Of two catalogs with the same authored texts, the entries tell which is
which (`ext_entryAt?`), so that texts in use can be compared entry by entry. In a group the name of
an entry tells its position, and in the whole catalog where no two entries share a name
(`Distinct.eq_of_name_eq`). Groups make a catalog if none of them repeats a name
(`exists_ofGroups`).
-/

namespace CubeTrainer.Catalog

variable {c c' : Catalog}

/-! ### Texts in use -/

theorem ext_entryAt? (hpristine : c.pristine = c'.pristine)
    (h : ∀ q, c.entryAt? q = c'.entryAt? q) : c = c' := by
  have hgroups : c.groups = c'.groups := by
    refine List.ext_getElem? fun i => ?_
    have hgroup : c.pristine.groupAt? i = c'.pristine.groupAt? i := by rw [hpristine]
    have hentries (j : Nat) : ((c.groupAt? i).bind fun g => g.entries[j]?) =
        (c'.groupAt? i).bind fun g => g.entries[j]? := h ⟨i, j⟩
    rw [pristine, pristine, groupAt?_mapCurrent, groupAt?_mapCurrent] at hgroup
    show c.groupAt? i = c'.groupAt? i
    cases hg : c.groupAt? i with
    | none =>
      rw [hg, Option.map_none] at hgroup
      exact (Option.map_eq_none_iff.1 hgroup.symm).symm
    | some g =>
      rw [hg, Option.map_some] at hgroup
      obtain ⟨g', hg', hsame⟩ := Option.map_eq_some_iff.1 hgroup.symm
      rw [hg, hg'] at hentries
      have hlist : g.entries = g'.entries := List.ext_getElem? hentries
      simp only [Group.mapEntries, Group.mk.injEq] at hsame
      rw [hg']
      show some (Group.mk g.name g.strip g.entries) = some ⟨g'.name, g'.strip, g'.entries⟩
      rw [hlist, hsame.1, hsame.2.1]
  obtain ⟨groups, _⟩ := c
  obtain ⟨groups', _⟩ := c'
  subst hgroups
  rfl

theorem mapCurrent_congr {f g : Position → Entry → String}
    (h : ∀ q e, c.entryAt? q = some e → f q e = g q e) : c.mapCurrent f = c.mapCurrent g := by
  refine ext_entryAt? (by simp) fun q => ?_
  rw [entryAt?_mapCurrent, entryAt?_mapCurrent]
  cases he : c.entryAt? q with
  | none => rfl
  | some e => rw [Option.map_some, Option.map_some, h q e he]

theorem mapIdx_const {α β : Type} (f : α → β) (as : List α) :
    (as.mapIdx fun _ a => f a) = as.map f :=
  List.ext_getElem? fun i => by simp [List.getElem?_mapIdx]

theorem groups_mapCurrent (f : Entry → String) (c : Catalog) :
    (c.mapCurrent fun _ e => f e).groups = c.groups.map fun g =>
      { g with entries := g.entries.map fun e => { e with current := f e } } := by
  simp only [mapCurrent, Group.mapEntries, mapIdx_const]

theorem mapCurrent_current (c : Catalog) : (c.mapCurrent fun _ e => e.current) = c :=
  ext_entryAt? (by simp) fun q => (entryAt?_mapCurrent _ c q).trans Option.map_id'

theorem exists_of_pristine_eq (hpristine : c.pristine = c'.pristine) {q : Position} {e : Entry}
    (h : c.entryAt? q = some e) :
    ∃ e', c'.entryAt? q = some e' ∧ e'.name = e.name ∧ e'.authored = e.authored := by
  have hentry := congrArg (·.entryAt? q) hpristine
  simp only [pristine, entryAt?_mapCurrent, h, Option.map_some] at hentry
  obtain ⟨e', he', hsame⟩ := Option.map_eq_some_iff.1 hentry.symm
  injection hsame with hname hauthored
  exact ⟨e', he', hname, hauthored⟩

/-! ### Names -/

/-- No two entries share their name, in whatever groups they are. -/
def Distinct (c : Catalog) : Prop :=
  (c.groups.flatMap Group.names).Nodup

instance (c : Catalog) : Decidable c.Distinct :=
  inferInstanceAs (Decidable (List.Nodup _))

theorem exists_of_entryAt? {q : Position} {e : Entry} (h : c.entryAt? q = some e) :
    ∃ hg : q.group < c.groups.length, (c.groups[q.group]).names[q.index]? = some e.name := by
  obtain ⟨g, hg, he⟩ := Option.bind_eq_some_iff.1 h
  obtain ⟨hlt, rfl⟩ := List.getElem?_eq_some_iff.1 hg
  exact ⟨hlt, by rw [Group.names, List.getElem?_map, he]; rfl⟩

/-- Within a group a name tells where its entry is. -/
theorem eq_of_name_eq {q q' : Position} {e e' : Entry} (he : c.entryAt? q = some e)
    (he' : c.entryAt? q' = some e') (hgroup : q.group = q'.group) (hname : e.name = e'.name) :
    q = q' := by
  obtain ⟨group, index⟩ := q
  obtain ⟨group', index'⟩ := q'
  obtain rfl : group = group' := hgroup
  obtain ⟨hg, hn⟩ := exists_of_entryAt? he
  obtain ⟨_, hn'⟩ := exists_of_entryAt? he'
  obtain ⟨hi, -⟩ := List.getElem?_eq_some_iff.1 hn
  rw [hname, ← hn'] at hn
  have hindex : index = index' :=
    (List.getElem?_inj hi (c.nodup_names _ (List.getElem_mem hg))).1 hn
  rw [hindex]

theorem Distinct.group_le (h : c.Distinct) {q q' : Position} {e e' : Entry}
    (he : c.entryAt? q = some e) (he' : c.entryAt? q' = some e') (hname : e.name = e'.name) :
    q.group ≤ q'.group := by
  obtain ⟨hg, hn⟩ := exists_of_entryAt? he
  obtain ⟨hg', hn'⟩ := exists_of_entryAt? he'
  by_contra hlt
  have happart := List.pairwise_iff_getElem.1 (List.nodup_flatMap.1 h).2 q'.group q.group hg' hg
    (Nat.lt_of_not_le hlt)
  rw [hname] at hn
  exact happart (List.mem_of_getElem? hn') (List.mem_of_getElem? hn)

theorem Distinct.eq_of_name_eq (h : c.Distinct) {q q' : Position} {e e' : Entry}
    (he : c.entryAt? q = some e) (he' : c.entryAt? q' = some e') (hname : e.name = e'.name) :
    q = q' := by
  have hgroup : q.group = q'.group :=
    Nat.le_antisymm (h.group_le he he' hname) (h.group_le he' he hname.symm)
  exact Catalog.eq_of_name_eq he he' hgroup hname

theorem distinct_mapCurrent (f : Position → Entry → String) (h : c.Distinct) :
    (c.mapCurrent f).Distinct := by
  have hnames : (c.mapCurrent f).groups.map Group.names = c.groups.map Group.names := by
    refine List.ext_getElem? fun i => ?_
    simp only [mapCurrent, List.getElem?_map, List.getElem?_mapIdx]
    cases c.groups[i]? with
    | none => rfl
    | some g =>
      refine congrArg some (Group.names_mapEntries (fun j e => ?_) g)
      exact rfl
  rw [Distinct, List.flatMap_def, hnames]
  exact h

/-! ### Groups without repeated names -/

theorem firstRepeated_eq_none {seen names : List String} (h : names.Nodup)
    (hseen : ∀ name ∈ names, name ∉ seen) : firstRepeated seen names = none := by
  induction names generalizing seen with
  | nil => rfl
  | cons name names ih =>
    obtain ⟨hname, hnames⟩ := List.nodup_cons.1 h
    rw [firstRepeated, if_neg (hseen name List.mem_cons_self)]
    refine ih hnames fun n hn hin => ?_
    rcases List.mem_cons.1 hin with rfl | hin
    · exact hname hn
    · exact hseen n (List.mem_cons_of_mem _ hn) hin

theorem firstDuplicate_eq_none {gs : List Group} (h : ∀ g ∈ gs, g.names.Nodup) (i : Nat) :
    firstDuplicate i gs = none := by
  induction gs generalizing i with
  | nil => rfl
  | cons g gs ih =>
    have hfirst : firstRepeated [] g.names = none :=
      firstRepeated_eq_none (h g List.mem_cons_self) fun _ _ => List.not_mem_nil
    rw [firstDuplicate, hfirst]
    exact ih (fun g' hg' => h g' (List.mem_cons_of_mem _ hg')) (i + 1)

theorem exists_ofGroups {gs : List Group} (h : ∀ g ∈ gs, g.names.Nodup) :
    ∃ c, ofGroups gs = .ok c ∧ c.groups = gs.map (Group.mapEntries fun _ => Entry.fillIn) := by
  have hnone := firstDuplicate_eq_none h 0
  unfold ofGroups
  split
  · rename_i hsome
    exact absurd (hnone.symm.trans hsome) (by simp)
  · exact ⟨_, rfl, rfl⟩

end CubeTrainer.Catalog
