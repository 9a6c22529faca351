import CubeTrainer.Proofs.Player.Reopening

/-!
# Opening

What becomes of a catalog, and what a cube is told, when the catalog is opened on a store, whatever
texts that store holds (`openStored_any`). Records that are missing or malformed, or that name no
entry, leave the first position, and empty texts leave those of the catalog. Nothing is written, and
a catalog whose texts have been replaced already opens like the one it comes from
(`openStored_applyOverrides`).
-/

namespace CubeTrainer

/-! ### Records -/

namespace Store

variable {s : Store} {config : Config} {q : Position}

/-- The store has a record of the position last shown, and it says `q`. -/
def Keeps (s : Store) (config : Config) (q : Position) : Prop :=
  ∃ record, s.get? config.positionKey = some record ∧ Position.ofJson record = .ok q

theorem Keeps.position_eq (h : s.Keeps config q) : s.position config = q := by
  obtain ⟨record, hrecord, hread⟩ := h
  rw [position, hrecord]
  simp only [hread]

theorem keeps_or_first (s : Store) (config : Config) :
    s.Keeps config (s.position config) ∨ s.position config = Position.first := by
  unfold position
  split
  · exact .inr rfl
  · rename_i record hrecord
    split
    · rename_i p hread
      exact .inl ⟨record, hrecord, hread⟩
    · exact .inr rfl

theorem getD_override? (s : Store) (config : Config) (name text : String) :
    (s.override? config name).getD text =
      match s.get? (config.overridePrefix ++ name) with
      | some kept => if kept = "" then text else kept
      | none => text := by
  unfold override?
  show (Option.filter _ (s.get? (config.overridePrefix ++ name))).getD text = _
  cases s.get? (config.overridePrefix ++ name) with
  | none => rfl
  | some kept =>
    by_cases h : kept = "" <;> simp [h, Option.filter]

end Store

/-! ### Catalogs -/

theorem Catalog.applyOverrides_applyOverrides (c : Catalog) (s : Store) (config : Config) :
    (c.applyOverrides s config).applyOverrides s config = c.applyOverrides s config := by
  simp only [applyOverrides, mapCurrent_mapCurrent]
  refine mapCurrent_congr fun _ e _ => ?_
  cases s.override? config e.name <;> rfl

namespace Player

theorem openStored_applyOverrides (config : Config) (store : Store) (catalog : Catalog) :
    openStored config store (catalog.applyOverrides store config) =
      openStored config store catalog := by
  unfold openStored
  rw [Catalog.applyOverrides_applyOverrides]

theorem position_of_keeps {config : Config} {store : Store} {catalog : Catalog} {q : Position}
    (hkeeps : store.Keeps config q) (hq : catalog.contains q = true) :
    (openStored config store catalog).player.position = q := by
  rw [openStored_position, hkeeps.position_eq, if_pos hq]

theorem position_of_not_keeps {config : Config} {store : Store} {catalog : Catalog}
    (h : ∀ q, store.Keeps config q → catalog.contains q = false) :
    (openStored config store catalog).player.position = Position.first := by
  rw [openStored_position]
  split
  · rename_i hin
    rcases store.keeps_or_first config with hkeeps | hfirst
    · exact absurd hin (Bool.eq_false_iff.1 (h _ hkeeps))
    · exact hfirst
  · rfl

end Player

/-- Opening, whatever the store holds. The text in use of each entry is the one that the store has
for its name, if there is one and it is not empty, and nothing else of the catalog changes. The
position is the one that the store has, if its record can be read and names an entry, or else the
first. The twists are those of the entry selected, none of them turned, and nothing plays. The cube
ends its turns, is reset to the strip of the group, and undoes the twists at once. Nothing is
written, and opening the catalog again, as it was or as it is now, is the same. -/
theorem openStored_any (config : Config) (store : Store) (catalog : Catalog) :
    let opened := Player.openStored config store catalog
    let p := opened.player
    p.catalog.groups = catalog.groups.map (fun g =>
        { g with entries := g.entries.map fun e =>
          { e with current :=
              match store.get? (config.overridePrefix ++ e.name) with
              | some text => if text = "" then e.current else text
              | none => e.current } }) ∧
      (∀ q, store.Keeps config q → catalog.contains q = true → p.position = q) ∧
      ((∀ q, store.Keeps config q → catalog.contains q = false) → p.position = ⟨0, 0⟩) ∧
      (p.actions = match p.catalog.entryAt? p.position with
        | some e => Notation.parse e.current
        | none => []) ∧
      p.progress = 0 ∧ p.playing = false ∧
      opened.calls = .finish ::
        .reset (match catalog.groupAt? p.position.group with
          | some g => g.strip
          | none => SortedMap.empty) ::
        (invert p.actions).map (fun t => .turn t false) ∧
      opened.writes = [] ∧
      let s := (Session.start config store catalog).1
      s.player = p ∧
        Session.start config s.store catalog = Session.start config store catalog ∧
        Session.start config s.store p.catalog = Session.start config store catalog := by
  intro opened p
  have hcatalog : p.catalog = catalog.applyOverrides store config :=
    Player.openStored_catalog config store catalog
  obtain ⟨q, hload, hq⟩ := Player.openStored_player config store catalog
  have hp : p = q.restarted := (congrArg Step.player hload).trans (Player.player_load q)
  have hstrip : (match catalog.groupAt? p.position.group with
      | some g => g.strip
      | none => SortedMap.empty) = p.strip := by
    rw [Player.strip, hcatalog, Catalog.applyOverrides, Catalog.groupAt?_mapCurrent]
    cases catalog.groupAt? p.position.group <;> rfl
  refine ⟨?_, fun q => Player.position_of_keeps, Player.position_of_not_keeps, ?_, ?_, ?_, ?_, ?_,
    rfl, rfl, ?_⟩
  · rw [hcatalog, Catalog.applyOverrides, Catalog.groups_mapCurrent]
    simp only [Store.getD_override?]
  · rw [hp]
    rfl
  · rw [hp]
    rfl
  · rw [hp]
    rfl
  · have hcalls : opened.calls = (q.setPlaying false).calls ++ q.restarted.startCalls :=
      (congrArg Step.calls hload).trans (Player.calls_load q)
    rw [hcalls, ← hp, Player.calls_setPlaying, if_pos hq, hstrip]
    rfl
  · have hwrites : opened.writes = q.load.writes := congrArg Step.writes hload
    rw [hwrites, (Player.saves_load q).writes]
    rfl
  · show Session.start config store p.catalog = Session.start config store catalog
    rw [hcatalog, Session.start, Session.start, Player.openStored_applyOverrides]

end CubeTrainer
