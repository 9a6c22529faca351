import CubeTrainer.Proofs.Player.Moves
import CubeTrainer.Proofs.Store.Records

/-!
# What commands save

A command saves at most one thing: an edit the text, a selection the position. `Player.save?` says
which, and `perform_saves` that nothing else becomes of the catalog, the position and the writes. A
run leaves its store with the writes that were not refused, in their order (`store_performAll`),
and those are the ones of what it has saved (`written_eq_map_saved`).
-/

namespace CubeTrainer

/-! ### Steps and what they save -/

def Save.content? : Save → Option String
  | .position _ => none
  | .text _ content => some content

/-- What a step from `p` does to all that is saved: it makes this save of it, or none. -/
structure Step.Saves (p : Player) (save : Option Save) (step : Step) : Prop where
  config : step.player.config = p.config
  catalog : step.player.catalog =
    ((save.bind Save.content?).map (p.catalog.set p.position)).getD p.catalog
  position : step.player.position = (save.bind Save.position?).getD p.position
  writes : step.writes = (save.map (Save.write p.config)).toList
  edited : step.edited = (save.bind Save.content?).map fun _ => p.position

namespace Player

variable {p : Player}

theorem saves_quiet (p : Player) : (Step.quiet p).Saves p none := ⟨rfl, rfl, rfl, rfl, rfl⟩

theorem saves_andThen {s : Step} {next : Player → Step} (h : s.Saves p none)
    (hnext : (next s.player).Saves s.player none) : (s.andThen next).Saves p none where
  config := hnext.config.trans h.config
  catalog := hnext.catalog.trans h.catalog
  position := hnext.position.trans h.position
  writes := by
    rw [Step.writes_andThen, h.writes, hnext.writes]
    rfl
  edited := by
    show (next s.player).edited.or s.edited = none
    rw [h.edited, hnext.edited]
    rfl

/-! ### Parts of operations -/

theorem saves_setPlaying (b : Bool) (p : Player) : (p.setPlaying b).Saves p none := by
  unfold setPlaying
  split
  · exact saves_quiet p
  · exact ⟨rfl, rfl, rfl, rfl, rfl⟩

theorem saves_advance (p : Player) : p.advance.Saves p none := by
  unfold advance
  split
  · exact ⟨rfl, rfl, rfl, rfl, rfl⟩
  · exact saves_quiet p

theorem saves_retreat (p : Player) : p.retreat.Saves p none := by
  unfold retreat
  split
  · exact ⟨rfl, rfl, rfl, rfl, rfl⟩
  · exact saves_quiet p

theorem saves_reposition (p : Player) : p.reposition.Saves p none :=
  saves_andThen (saves_setPlaying false p) ⟨rfl, rfl, rfl, rfl, rfl⟩

theorem saves_load (p : Player) : p.load.Saves p none := by
  rw [load_eq]
  obtain ⟨hconfig, hcatalog, hposition, hwrites, hedited⟩ :=
    saves_reposition { p with actions := p.selectedTwists }
  exact ⟨hconfig, hcatalog, hposition, hwrites, hedited⟩

theorem saves_onIdle (p : Player) : p.onIdle.Saves p none := by
  have hnext (q : Player) : (if q.playing then q.advance else .quiet q).Saves q none := by
    split
    · exact saves_advance q
    · exact saves_quiet q
  unfold onIdle
  refine saves_andThen ?_ (hnext _)
  split
  · exact saves_setPlaying false p
  · exact saves_quiet p

theorem saves_edit {e : Entry} (h : p.selected? = some e) (text : String) :
    (p.perform (.edit text)).Saves p (some (.text e.name text)) := by
  have hstart := saves_reposition
    { p with catalog := p.catalog.set p.position text, actions := Notation.parse text }
  rw [perform_edit_of_some h]
  exact ⟨hstart.config, hstart.catalog, hstart.position, rfl, rfl⟩

theorem saves_select {q : Position} (h : p.catalog.contains q = true) :
    (p.perform (.select q)).Saves p (some (.position q)) := by
  have hload := saves_load { p with position := q }
  rw [perform_select_of_contains h]
  exact ⟨hload.config, hload.catalog, hload.position, rfl, hload.edited⟩

/-! ### Commands -/

/-- What a command wants to be kept. -/
def save? (p : Player) : Command → Option Save
  | .edit text => p.selected?.map fun e => .text e.name text
  | .restoreDefault => p.selected?.map fun e => .text e.name e.authored
  | .select q => if p.catalog.contains q then some (.position q) else none
  | .selectGroup g =>
    if g ≠ p.position.group ∧ p.catalog.contains ⟨g, 0⟩ then some (.position ⟨g, 0⟩) else none
  | _ => none

/-- A command makes its save and no other change of what is saved. -/
theorem perform_saves (p : Player) (c : Command) : (p.perform c).Saves p (p.save? c) := by
  cases c with
  | load => exact saves_load p
  | stepForward =>
    show p.stepForward.Saves p none
    unfold stepForward
    split
    · exact saves_quiet p
    · exact saves_andThen (saves_setPlaying false p) (saves_advance _)
  | stepBackward =>
    show p.stepBackward.Saves p none
    unfold stepBackward
    split
    · exact saves_quiet p
    · exact saves_andThen (saves_setPlaying false p) (saves_retreat _)
  | togglePlay =>
    show p.togglePlay.Saves p none
    unfold togglePlay
    split
    · exact saves_setPlaying false p
    · exact saves_andThen (saves_setPlaying true p) (saves_onIdle _)
  | onIdle => exact saves_onIdle p
  | edit text =>
    rw [save?]
    cases he : p.selected? with
    | none =>
      rw [perform_edit_of_none he]
      exact saves_quiet p
    | some e => exact saves_edit he text
  | restoreDefault =>
    rw [save?]
    cases he : p.selected? with
    | none =>
      rw [perform_restoreDefault_of_none he]
      exact saves_quiet p
    | some e =>
      rw [perform_restoreDefault_of_some he]
      exact saves_edit he e.authored
  | select q =>
    rw [save?]
    split
    · rename_i hq
      exact saves_select hq
    · rename_i hq
      rw [perform_select_of_not_contains hq]
      exact saves_quiet p
  | selectGroup g =>
    rw [perform_selectGroup, save?]
    by_cases hg : g = p.position.group
    · rw [if_pos hg, if_neg fun h => h.1 hg]
      exact saves_load p
    · rw [if_neg hg]
      split
      · rename_i h
        exact saves_select h.2
      · rename_i h
        rw [perform_select_of_not_contains fun hq => h ⟨hg, hq⟩]
        exact saves_quiet p

theorem edited_perform (p : Player) (c : Command) :
    (p.perform c).edited = if c.edits then p.selected?.map fun _ => p.position else none := by
  rw [(perform_saves p c).edited]
  cases c with
  | load | stepForward | stepBackward | togglePlay | onIdle => rfl
  | edit | restoreDefault =>
    rw [save?]
    cases p.selected? <;> rfl
  | select | selectGroup =>
    rw [save?]
    split <;> rfl

theorem exists_of_save?_text {c : Command} {name text : String}
    (h : p.save? c = some (.text name text)) : ∃ e, p.selected? = some e ∧ e.name = name := by
  cases c with
  | load | stepForward | stepBackward | togglePlay | onIdle => exact absurd h (by simp [save?])
  | edit | restoreDefault =>
    obtain ⟨e, he, hsave⟩ := Option.map_eq_some_iff.1 h
    injection hsave with hname
    exact ⟨e, he, hname⟩
  | select | selectGroup =>
    rw [save?] at h
    split at h <;> cases h

theorem exists_of_save?_position {c : Command} {q : Position}
    (h : p.save? c = some (.position q)) :
    p.catalog.contains q = true ∧ (c = .select q ∨ c = .selectGroup q.group ∧ q.index = 0) := by
  cases c with
  | load | stepForward | stepBackward | togglePlay | onIdle => exact absurd h (by simp [save?])
  | edit | restoreDefault =>
    obtain ⟨e, -, hsave⟩ := Option.map_eq_some_iff.1 h
    cases hsave
  | select r =>
    rw [save?] at h
    split at h
    · rename_i hr
      cases h
      exact ⟨hr, .inl rfl⟩
    · cases h
  | selectGroup g =>
    rw [save?] at h
    split at h
    · rename_i hg
      cases h
      exact ⟨hg.2, .inr ⟨rfl, rfl⟩⟩
    · cases h

end Player

/-! ### Stores after commands -/

/-- The writes of a step that were not refused. -/
def Step.accepted (refusal : Option StoreError) (step : Step) : List Write :=
  if refusal = none then step.writes else []

theorem Step.accepted_of_no_writes {step : Step} (h : step.writes = [])
    (refusal : Option StoreError) : step.accepted refusal = [] := by
  rw [accepted, h, ite_self]

namespace Session

theorem store_edit (s : Session) (refusal : Option StoreError) (text : String) :
    (s.edit refusal text).1.store =
      s.store.writeAll ((s.edit refusal text).2.accepted refusal) := by
  cases he : s.player.selected? with
  | none =>
    rw [edit_of_none he, Step.accepted_of_no_writes rfl]
    rfl
  | some e =>
    rw [edit_of_some he]
    rfl

theorem store_select (s : Session) (refusal : Option StoreError) (q : Position) :
    (s.select refusal q).1.store =
      s.store.writeAll ((s.select refusal q).2.accepted refusal) := by
  by_cases hq : s.player.catalog.contains q = true
  · rw [select_of_contains hq]
    rfl
  · rw [select_of_not_contains hq, Step.accepted_of_no_writes rfl]
    rfl

theorem store_play {op : Player → Step} {s : Session} (h : (op s.player).Saves s.player none)
    (refusal : Option StoreError) :
    (s.play op).1.store = s.store.writeAll ((s.play op).2.accepted refusal) := by
  rw [play, Step.accepted_of_no_writes h.writes]
  rfl

/-- A command leaves the store with what it wrote, or as it was if that was refused. -/
theorem store_perform (s : Session) (refusal : Option StoreError) (c : Player.Command) :
    (s.perform refusal c).1.store =
      s.store.writeAll ((s.perform refusal c).2.accepted refusal) := by
  have hsaves := s.player.perform_saves c
  cases c with
  | load | stepForward | stepBackward | togglePlay | onIdle => exact store_play hsaves refusal
  | edit text => exact store_edit s refusal text
  | restoreDefault =>
    rw [perform]
    cases he : s.player.selected? with
    | none =>
      rw [restoreDefault_of_none he, Step.accepted_of_no_writes rfl]
      rfl
    | some e =>
      rw [restoreDefault_of_some he]
      exact store_edit s refusal e.authored
  | select q => exact store_select s refusal q
  | selectGroup g =>
    rw [perform, selectGroup]
    split
    · exact store_play (Player.saves_load s.player) refusal
    · exact store_select s refusal ⟨g, 0⟩

theorem perform_eq (s : Session) (refusal : Option StoreError) (c : Player.Command) :
    s.perform refusal c =
      (⟨(s.player.perform c).player, s.store.writeAll ((s.player.perform c).accepted refusal)⟩,
        s.player.perform c) := by
  have hstore := store_perform s refusal c
  rw [step_perform] at hstore
  exact Prod.ext (congrArg₂ Session.mk (player_perform s refusal c) hstore)
    (step_perform s refusal c)

/-! ### Saves of a run -/

/-- The writes of a run that are not refused, in order. -/
def written : List Request → Player → List Write
  | [], _ => []
  | r :: rs, p =>
    (p.perform r.command).accepted r.refusal ++ written rs (p.perform r.command).player

/-- What a run has kept in the store, in order. -/
def saved : List Request → Player → List Save
  | [], _ => []
  | r :: rs, p =>
    (if r.refusal = none then (p.save? r.command).toList else []) ++
      saved rs (p.perform r.command).player

theorem store_performAll (rs : List Request) (s : Session) :
    (performAll rs s).1.store = s.store.writeAll (written rs s.player) := by
  induction rs generalizing s with
  | nil => rfl
  | cons r rs ih =>
    have hrest := ih (s.perform r.refusal r.command).1
    rw [perform_eq] at hrest
    rw [written, Store.writeAll_append, performAll, perform_eq]
    exact hrest

theorem written_eq_map_saved (rs : List Request) (p : Player) :
    written rs p = (saved rs p).map (Save.write p.config) := by
  induction rs generalizing p with
  | nil => rfl
  | cons r rs ih =>
    have hstep := Player.perform_saves p r.command
    have hrest := ih (p.perform r.command).player
    rw [hstep.config] at hrest
    rw [written, saved, List.map_append, hrest, Step.accepted, hstep.writes]
    congr 1
    split
    · cases p.save? r.command <;> rfl
    · rfl

end Session

end CubeTrainer
