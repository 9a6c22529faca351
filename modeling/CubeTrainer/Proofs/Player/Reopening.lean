import CubeTrainer.Proofs.Catalog.Entries
import CubeTrainer.Proofs.Player.Consistency
import CubeTrainer.Proofs.Player.Saves
import CubeTrainer.Proofs.Player.Standing

/-!
# Reopening

What a player finds when its catalog is opened again on the store that a run has left. The position
is the one saved last, and an entry has the text saved last for its name, or what it had at the
first opening if none was (`run_reopened`). If the store has taken every write, no text was empty
and no two entries share a name, then the player stands again at what the run has led to.
-/

namespace CubeTrainer

/-! ### Commands -/

namespace Player

variable {p : Player}

/-- The positions that a command names are pairs of numbers of 64 bits. -/
def Command.Fits : Command → Prop
  | .select q => q.Fits
  | .selectGroup g => g < UInt64.size
  | _ => True

instance : DecidablePred Command.Fits
  | .select q => inferInstanceAs (Decidable q.Fits)
  | .selectGroup g => inferInstanceAs (Decidable (g < UInt64.size))
  | .load | .edit _ | .restoreDefault | .stepForward | .stepBackward | .togglePlay | .onIdle =>
    inferInstanceAs (Decidable True)

theorem fits_of_save?_position {c : Command} {q : Position} (hc : c.Fits)
    (h : p.save? c = some (.position q)) : q.Fits := by
  obtain ⟨-, rfl | ⟨rfl, hindex⟩⟩ := exists_of_save?_position h
  · exact hc
  · refine ⟨hc, ?_⟩
    rw [hindex]
    decide

theorem contains_perform (p : Player) (c : Command) (q : Position) :
    (p.perform c).player.catalog.contains q = p.catalog.contains q := by
  rw [(p.perform_saves c).catalog]
  cases (p.save? c).bind Save.content? with
  | none => rfl
  | some text => exact contains_set p.catalog p.position q text

theorem catalog_perform (h : p.catalog.Distinct) (c : Command) :
    (p.perform c).player.catalog = p.catalog.mapCurrent fun _ e =>
      ((p.save? c).bind (Save.textFor? e.name)).getD e.current := by
  rw [(p.perform_saves c).catalog]
  cases hsave : p.save? c with
  | none => exact p.catalog.mapCurrent_current.symm
  | some save =>
    cases save with
    | position q => exact p.catalog.mapCurrent_current.symm
    | text name text =>
      obtain ⟨e, he, rfl⟩ := exists_of_save?_text hsave
      show p.catalog.set p.position text = _
      refine Catalog.mapCurrent_congr fun q e' he' => ?_
      show _ = (if e.name = e'.name then some text else none).getD e'.current
      by_cases hq : q = p.position
      · subst hq
        obtain rfl : e' = e := Option.some.inj (he'.symm.trans he)
        rw [if_pos rfl, if_pos rfl]
        rfl
      · rw [if_neg hq, if_neg fun hname => hq (h.eq_of_name_eq he' he hname.symm)]
        rfl

theorem openStored_position (config : Config) (store : Store) (catalog : Catalog) :
    (openStored config store catalog).player.position =
      if catalog.contains (store.position config) = true then store.position config
      else Position.first := by
  show (load _).player.position = _
  rw [player_load]
  simp only [restarted, Catalog.applyOverrides, Catalog.contains_mapCurrent]

theorem openStored_catalog (config : Config) (store : Store) (catalog : Catalog) :
    (openStored config store catalog).player.catalog = catalog.applyOverrides store config := by
  show (load _).player.catalog = _
  rw [player_load]
  rfl

theorem openStored_config (config : Config) (store : Store) (catalog : Catalog) :
    (openStored config store catalog).player.config = config := by
  show (load _).player.config = _
  rw [player_load]
  rfl

theorem Consistent.actions_eq_of (hp : p.Consistent) {q : Player} (hq : q.Consistent)
    (hcatalog : p.catalog = q.catalog) (hposition : p.position = q.position) :
    p.actions = q.actions := by
  rw [hp.actions_eq, hq.actions_eq, selectedTwists, selectedTwists, selected?, selected?, hcatalog,
    hposition]

end Player

/-! ### Runs -/

namespace Session

variable {rs : List Request}

theorem contains_of_mem_saved {p : Player} {q : Position} (hfits : ∀ r ∈ rs, r.command.Fits)
    (h : .position q ∈ saved rs p) : p.catalog.contains q = true ∧ q.Fits := by
  induction rs generalizing p with
  | nil => exact absurd h List.not_mem_nil
  | cons r rs ih =>
    rw [saved, List.mem_append] at h
    rcases h with hfirst | hrest
    · split at hfirst
      · have hsave := Option.mem_toList.1 hfirst
        exact ⟨(Player.exists_of_save?_position hsave).1,
          Player.fits_of_save?_position (hfits r List.mem_cons_self) hsave⟩
      · exact absurd hfirst List.not_mem_nil
    · obtain ⟨hin, hq⟩ := ih (fun r' hr' => hfits r' (List.mem_cons_of_mem _ hr')) hrest
      exact ⟨(p.contains_perform r.command q).symm.trans hin, hq⟩

theorem saved_cons_of_accepted {r : Request} (h : r.refusal = none) (rs : List Request)
    (p : Player) :
    saved (r :: rs) p = (p.save? r.command).toList ++ saved rs (p.perform r.command).player := by
  rw [saved, if_pos h]

theorem position_performAll (s : Session) (h : ∀ r ∈ rs, r.refusal = none) :
    (performAll rs s).1.player.position =
      (Save.lastPosition? (saved rs s.player)).getD s.player.position := by
  induction rs generalizing s with
  | nil => rfl
  | cons r rs ih =>
    have hrest := ih (s.perform r.refusal r.command).1
      fun r' hr' => h r' (List.mem_cons_of_mem _ hr')
    rw [player_perform, (s.player.perform_saves r.command).position] at hrest
    rw [saved_cons_of_accepted (h r List.mem_cons_self), Save.lastPosition?_toList_append]
    refine hrest.trans ?_
    cases Save.lastPosition? (saved rs (s.player.perform r.command).player) <;> rfl

theorem catalog_performAll (s : Session) (hnames : s.player.catalog.Distinct)
    (h : ∀ r ∈ rs, r.refusal = none) :
    (performAll rs s).1.player.catalog = s.player.catalog.mapCurrent fun _ e =>
      (Save.lastText? e.name (saved rs s.player)).getD e.current := by
  induction rs generalizing s with
  | nil => exact s.player.catalog.mapCurrent_current.symm
  | cons r rs ih =>
    have hcatalog := Player.catalog_perform hnames r.command
    have hdistinct : (s.perform r.refusal r.command).1.player.catalog.Distinct := by
      rw [player_perform, hcatalog]
      exact Catalog.distinct_mapCurrent _ hnames
    have hrest := ih (s.perform r.refusal r.command).1 hdistinct
      fun r' hr' => h r' (List.mem_cons_of_mem _ hr')
    rw [player_perform, hcatalog, Catalog.mapCurrent_mapCurrent] at hrest
    refine hrest.trans (Catalog.mapCurrent_congr fun q e _ => ?_)
    rw [saved_cons_of_accepted (h r List.mem_cons_self), Save.lastText?_toList_append]
    cases Save.lastText? e.name (saved rs (s.player.perform r.command).player) <;> rfl

/-! ### Stores of runs -/

variable {config : Config}

theorem written_start (config : Config) (store : Store) (catalog : Catalog) (rs : List Request) :
    written rs (start config store catalog).1.player =
      (saved rs (start config store catalog).1.player).map (Save.write config) := by
  have hconfig : (start config store catalog).1.player.config = config :=
    Player.openStored_config config store catalog
  rw [written_eq_map_saved, hconfig]

theorem store_run (config : Config) (store : Store) (catalog : Catalog) (rs : List Request) :
    (run config store catalog rs).1.store = store.writeAll
      ((saved rs (start config store catalog).1.player).map (Save.write config)) := by
  rw [← written_start]
  exact store_performAll rs (start config store catalog).1

theorem reopened_position (hc : config.Separate) (store : Store) (catalog : Catalog)
    (hfits : ∀ r ∈ rs, r.command.Fits) :
    (start config (run config store catalog rs).1.store catalog).1.player.position =
      (Save.lastPosition? (saved rs (start config store catalog).1.player)).getD
        (start config store catalog).1.player.position := by
  have hopened : (start config store catalog).1.player.position = _ :=
    Player.openStored_position config store catalog
  show (Player.openStored config _ catalog).player.position = _
  rw [Player.openStored_position, store_run, Store.position_writeAll hc store
    fun q hq => (contains_of_mem_saved hfits hq).2]
  cases hlast : Save.lastPosition? (saved rs (start config store catalog).1.player) with
  | none => exact hopened.symm
  | some q =>
    have hin := (contains_of_mem_saved hfits (Save.mem_of_lastPosition? hlast)).1
    have hcatalog : (start config store catalog).1.player.catalog =
        catalog.applyOverrides store config := Player.openStored_catalog config store catalog
    rw [hcatalog, Catalog.applyOverrides, Catalog.contains_mapCurrent] at hin
    exact if_pos hin

theorem reopened_catalog (hc : config.Separate) (store : Store) (catalog : Catalog)
    (rs : List Request) :
    (start config (run config store catalog rs).1.store catalog).1.player.catalog =
      catalog.mapCurrent fun _ e =>
        match Save.lastText? e.name (saved rs (start config store catalog).1.player) with
        | some text => if text.isEmpty then e.current else text
        | none => (store.override? config e.name).getD e.current := by
  show (Player.openStored config _ catalog).player.catalog = _
  rw [Player.openStored_catalog, store_run, Catalog.applyOverrides]
  refine Catalog.mapCurrent_congr fun _ e _ => ?_
  rw [Store.override?_writeAll hc]
  cases Save.lastText? e.name (saved rs (start config store catalog).1.player) with
  | none => rfl
  | some text =>
    show (if text.isEmpty then none else some text).getD e.current =
      if text.isEmpty then e.current else text
    split <;> rfl

theorem reopened_catalog_of_accepted (hc : config.Separate) (store : Store) {catalog : Catalog}
    (hnone : ∀ r ∈ rs, r.refusal = none)
    (htexts : ∀ name, .text name "" ∉ saved rs (start config store catalog).1.player)
    (hnames : catalog.Distinct) :
    (start config (run config store catalog rs).1.store catalog).1.player.catalog =
      (run config store catalog rs).1.player.catalog := by
  have hopened : (start config store catalog).1.player.catalog =
      catalog.applyOverrides store config := Player.openStored_catalog config store catalog
  have hdistinct : (start config store catalog).1.player.catalog.Distinct := by
    rw [hopened]
    exact Catalog.distinct_mapCurrent _ hnames
  have hlive : (run config store catalog rs).1.player.catalog = _ :=
    catalog_performAll (start config store catalog).1 hdistinct hnone
  rw [reopened_catalog hc, hlive, hopened, Catalog.applyOverrides, Catalog.mapCurrent_mapCurrent]
  refine Catalog.mapCurrent_congr fun _ e _ => ?_
  show _ = (Save.lastText? e.name (saved rs (start config store catalog).1.player)).getD _
  cases hlast : Save.lastText? e.name (saved rs (start config store catalog).1.player) with
  | none => rfl
  | some text =>
    have htext : ¬ text.isEmpty = true := fun hempty =>
      htexts e.name (String.isEmpty_iff.1 hempty ▸ Save.mem_of_lastText? hlast)
    exact if_neg htext

end Session

/-- What a second opening finds, on the store that a run has left with whatever writes refused: the
position saved last and, for each name, the text saved last, or else what the first opening has
found. Where the text saved last is empty, the one of the catalog is in use. If no write was refused,
no text empty and all names distinct, it finds what the run has led to. -/
theorem run_reopened {config : Config} (hc : config.Separate) (store : Store) (catalog : Catalog)
    {rs : List Session.Request} (hfits : ∀ r ∈ rs, r.command.Fits) :
    let opened := (Session.start config store catalog).1.player
    let closed := (Session.run config store catalog rs).1
    let saves := Session.saved rs opened
    let p := (Session.start config closed.store catalog).1.player
    Session.written rs opened = saves.map (Save.write config) ∧
      (p.position = match Save.lastPosition? saves with
      | some q => q
      | none =>
        if catalog.contains (store.position config) then store.position config
        else Position.first) ∧
      (∀ q e, catalog.entryAt? q = some e → ∃ o, opened.catalog.entryAt? q = some o ∧
        p.catalog.entryAt? q = some { e with
          current := match Save.lastText? e.name saves with
            | some text => if text.isEmpty then e.current else text
            | none => o.current }) ∧
      ((∀ r ∈ rs, r.refusal = none) → (∀ name, Save.text name "" ∉ saves) → catalog.Distinct →
        p.position = closed.player.position ∧ p.catalog = closed.player.catalog ∧
          p.actions = closed.player.actions) := by
  intro opened closed saves p
  have hposition : p.position = (Save.lastPosition? saves).getD opened.position :=
    Session.reopened_position hc store catalog hfits
  have hcatalog : p.catalog = _ := Session.reopened_catalog hc store catalog rs
  refine ⟨Session.written_start config store catalog rs, ?_, fun q e he => ?_,
    fun hnone htexts hnames => ?_⟩
  · have hfirst : opened.position = _ := Player.openStored_position config store catalog
    rw [hposition, hfirst]
    cases Save.lastPosition? saves <;> rfl
  · have hopened : opened.catalog = catalog.applyOverrides store config :=
      Player.openStored_catalog config store catalog
    refine ⟨_, by rw [hopened, Catalog.applyOverrides, Catalog.entryAt?_mapCurrent, he]; rfl, ?_⟩
    rw [hcatalog, Catalog.entryAt?_mapCurrent, he]
    rfl
  · have hlive : closed.player.position = (Save.lastPosition? saves).getD opened.position :=
      Session.position_performAll _ hnone
    have hsame : p.catalog = closed.player.catalog :=
      Session.reopened_catalog_of_accepted hc store hnone htexts hnames
    have hplaces : p.position = closed.player.position := hposition.trans hlive.symm
    have hclosed : closed.player.Consistent := Session.consistent_run config store catalog rs
    exact ⟨hplaces, hsame,
      (Player.consistent_openStored config _ catalog).actions_eq_of hclosed hsame hplaces⟩

/-- An edit, a selection and another edit, all kept. -/
def sampleRequests : List Session.Request :=
  [⟨none, .edit "R U2'"⟩, ⟨none, .select ⟨0, 1⟩⟩, ⟨none, .edit "F"⟩, ⟨none, .stepForward⟩]

theorem run_reopened_accepted :
    Config.standard.Separate ∧ (∀ r ∈ sampleRequests, r.command.Fits) ∧
      (∀ r ∈ sampleRequests, r.refusal = none) ∧ samplePair.Distinct ∧
      let closed := (Session.run .standard .empty samplePair sampleRequests).1
      let p := (Session.start .standard closed.store samplePair).1.player
      p.position = ⟨0, 1⟩ ∧ p.catalog = closed.player.catalog ∧
        p.actions = closed.player.actions := by
  have hc : Config.standard.Separate := by decide
  have hfits : ∀ r ∈ sampleRequests, r.command.Fits := by decide
  have hnone : ∀ r ∈ sampleRequests, r.refusal = none := by decide
  have hnames : samplePair.Distinct := by decide
  have hsaved : Session.saved sampleRequests
      (Session.start .standard .empty samplePair).1.player =
      [.text "A" "R U2'", .position ⟨0, 1⟩, .text "B" "F"] := by decide +kernel
  have htexts (name : String) : Save.text name "" ∉ Session.saved sampleRequests
      (Session.start .standard .empty samplePair).1.player := by
    rw [hsaved]
    simp
  obtain ⟨-, hposition, -, hkept⟩ := run_reopened hc .empty samplePair hfits
  obtain ⟨-, hcatalog, hactions⟩ := hkept hnone htexts hnames
  rw [hsaved] at hposition
  exact ⟨hc, hfits, hnone, hnames, hposition, hcatalog, hactions⟩

end CubeTrainer
