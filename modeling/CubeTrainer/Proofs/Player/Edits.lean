import CubeTrainer.Proofs.Player.Reopening

/-!
# Edits by name

A player edits the one entry that is selected, but a store keeps the text under the name of that
entry, and names are told apart within a group only. So what an edit makes of the next opening is
said by name: entries of another name are as they would be without the edit, and those of the same
name, one at most in every other group, get the text as well (`reopened_edit`).
-/

namespace CubeTrainer

open Player (Command)

/-! ### Sessions -/

namespace Session

theorem pristine_run (config : Config) (store : Store) (catalog : Catalog) (rs : List Request) :
    (run config store catalog rs).1.player.catalog.pristine = catalog.pristine := by
  have hopened := Player.consistent_openStored config store catalog
  rw [run_player]
  exact (hopened.performAll_pristine _).trans (Player.pristine_openStored config store catalog)

theorem config_run (config : Config) (store : Store) (catalog : Catalog) (rs : List Request) :
    (run config store catalog rs).1.player.config = config := by
  rw [run_player]
  exact Player.performAll_keeps_player (P := fun p => p.config = config)
    (fun p c hp => (p.perform_saves c).config.trans hp) _ _
    (Player.openStored_config config store catalog)

theorem store_perform_edit {s : Session} {e : Entry} (he : s.player.selected? = some e)
    {c : Command} {text : String}
    (hc : c = .edit text ∨ c = .restoreDefault ∧ text = e.authored) :
    (s.perform none c).1.store = s.store.insert (s.player.config.overrideKey e.name) text := by
  have hsave : s.player.save? c = some (.text e.name text) := by
    rcases hc with rfl | ⟨rfl, rfl⟩ <;> simp [Player.save?, he]
  have hwrites : (s.player.perform c).writes = _ := (s.player.perform_saves c).writes
  rw [perform_eq, Step.accepted, if_pos rfl, hwrites, hsave]
  rfl

theorem entryAt?_start (config : Config) (store : Store) (catalog : Catalog) (q : Position) :
    (start config store catalog).1.player.catalog.entryAt? q =
      (catalog.entryAt? q).map fun e =>
        { e with current := (store.override? config e.name).getD e.current } := by
  show (Player.openStored config store catalog).player.catalog.entryAt? q = _
  rw [Player.openStored_catalog, Catalog.applyOverrides, Catalog.entryAt?_mapCurrent]

end Session

/-- What an edit of the selected entry, if its write is not refused, makes of the next opening of
the catalog. Every entry of another name is as it would have been before the edit. An entry of the
same name elsewhere, which is then in another group, gets the text too; where that is empty, it
falls back to the text of the catalog. -/
theorem reopened_edit (config : Config) (store : Store) (catalog : Catalog)
    (rs : List Session.Request) {c : Command} {e : Entry} {text : String}
    (he : (Session.run config store catalog rs).1.player.selected? = some e)
    (hc : c = .edit text ∨ c = .restoreDefault ∧ text = e.authored) :
    let s := (Session.run config store catalog rs).1
    let before := (Session.start config s.store catalog).1.player.catalog
    let after := (Session.start config (s.perform none c).1.store catalog).1.player.catalog
    (∀ q, (∀ e', catalog.entryAt? q = some e' → e'.name ≠ e.name) →
      after.entryAt? q = before.entryAt? q) ∧
    ∀ q e', q ≠ s.player.position → catalog.entryAt? q = some e' → e'.name = e.name →
      q.group ≠ s.player.position.group ∧
        after.entryAt? q =
          some { e' with current := if text.isEmpty then e'.current else text } := by
  intro s before after
  have hstore : (s.perform none c).1.store = s.store.insert (config.overrideKey e.name) text := by
    have hconfig : s.player.config = config := Session.config_run config store catalog rs
    rw [Session.store_perform_edit he hc, hconfig]
  have hafter (q : Position) : after.entryAt? q = (catalog.entryAt? q).map fun e' =>
      { e' with current := (if e'.name = e.name then if text.isEmpty then none else some text
        else s.store.override? config e'.name).getD e'.current } := by
    show (Session.start config (s.perform none c).1.store catalog).1.player.catalog.entryAt? q = _
    rw [hstore, Session.entryAt?_start]
    simp only [Store.override?_insert]
  refine ⟨fun q hother => ?_, fun q e' hne he' hname => ⟨fun hgroup => hne ?_, ?_⟩⟩
  · have hbefore : before.entryAt? q = _ := Session.entryAt?_start config s.store catalog q
    rw [hafter, hbefore]
    cases he' : catalog.entryAt? q with
    | none => rfl
    | some e' => rw [Option.map_some, Option.map_some, if_neg (hother e' he')]
  · obtain ⟨e₀, he₀, hname₀, -⟩ :=
      Catalog.exists_of_pristine_eq (Session.pristine_run config store catalog rs) he
    exact Catalog.eq_of_name_eq he' he₀ hgroup (hname.trans hname₀.symm)
  · rw [hafter, he', Option.map_some, if_pos hname]
    cases text.isEmpty <;> rfl

/-- Two groups with an entry of one name, and another entry. -/
def sampleNamesakes : Catalog where
  groups := [⟨"OLL", .empty, [.ofAuthored "A" "R"]⟩,
    ⟨"PLL", .empty, [.ofAuthored "A" "U", .ofAuthored "B" "F2"]⟩]
  nodup_names := by decide

theorem reopened_edit_namesake :
    let s := (Session.run .standard .empty sampleNamesakes [⟨none, .stepForward⟩]).1
    s.player.selected? = some (.ofAuthored "A" "R") ∧
      let written := (s.perform none (.edit "F")).1.store
      let after := (Session.start .standard written sampleNamesakes).1.player.catalog
      after.entryAt? ⟨1, 0⟩ = some ⟨"A", "U", "F"⟩ ∧
        after.entryAt? ⟨1, 1⟩ = some (.ofAuthored "B" "F2") := by
  intro s
  have he : s.player.selected? = some (.ofAuthored "A" "R") := by decide +kernel
  obtain ⟨hother, hsame⟩ :=
    reopened_edit .standard .empty sampleNamesakes [⟨none, .stepForward⟩] he (.inl rfl)
  refine ⟨he, (hsame ⟨1, 0⟩ (.ofAuthored "A" "U") (by decide +kernel) rfl rfl).2, ?_⟩
  refine (hother ⟨1, 1⟩ fun e' he' => ?_).trans (by decide +kernel)
  obtain rfl : Entry.ofAuthored "B" "F2" = e' := Option.some.inj he'
  decide

/-- An edit does reach another entry, where one in another group has the same name. -/
theorem reopened_edit_not_local :
    ¬ ∀ (config : Config) (store : Store) (catalog : Catalog) (rs : List Session.Request)
      (text : String) (q : Position),
      let s := (Session.run config store catalog rs).1
      s.player.selected?.isSome = true → q ≠ s.player.position →
        let written := (s.perform none (.edit text)).1.store
        ((Session.start config written catalog).1.player.catalog.entryAt? q).map Entry.current =
          ((Session.start config s.store catalog).1.player.catalog.entryAt? q).map
            Entry.current := by
  intro h
  have hsame := h .standard .empty sampleNamesakes [] "F" ⟨1, 0⟩ (by decide +kernel)
    (by decide +kernel)
  exact absurd hsame (by decide +kernel)

end CubeTrainer
