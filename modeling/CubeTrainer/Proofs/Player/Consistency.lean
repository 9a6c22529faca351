import CubeTrainer.Proofs.Player.Moves

/-!
# Consistency of players

The catalog, the position, the twists and the progress of a player are changed by different
commands. `Player.Consistent` says how they belong together; opening establishes it and every move
keeps it. `Player.perform?` carries out a command strictly, with no answer where a twist is read
that is not there: a consistent player never comes to that.
-/

namespace CubeTrainer

structure Player.Consistent (p : Player) : Prop where
  progress_le : p.progress ≤ p.actions.length
  actions_eq : p.actions = p.selectedTwists
  position : p.catalog.contains p.position = true ∨ p.position = Position.first
  playing : p.playing = true → 1 ≤ p.progress

/-! ### Strict steps -/

/-- One operation after another, if the second has an answer. -/
def Step.andThen? (s : Step) (next : Player → Option Step) : Option Step :=
  (next s.player).map fun t => s.andThen fun _ => t

theorem Step.andThen?_of_some {s : Step} {next : Player → Step} {next? : Player → Option Step}
    (h : next? s.player = some (next s.player)) : s.andThen? next? = some (s.andThen next) := by
  rw [andThen?, h]
  rfl

namespace Player

variable {p : Player}

def advance? (p : Player) : Option Step :=
  p.actions[p.progress]?.map fun t =>
    .tell { p with progress := p.progress + 1 } [.turn t true]

def retreat? (p : Player) : Option Step :=
  p.actions[p.progress - 1]?.map fun t =>
    .tell { p with progress := p.progress - 1 } [.turn t.inverse true]

def onIdle? (p : Player) : Option Step :=
  (if p.finished then p.setPlaying false else .quiet p).andThen? fun p =>
    if p.playing then p.advance? else some (.quiet p)

/-- What a command does if a twist that it reads must be there. -/
def perform? (p : Player) : Command → Option Step
  | .stepForward =>
    if p.finished then some (.quiet p) else (p.setPlaying false).andThen? advance?
  | .stepBackward =>
    if p.progress = 0 then some (.quiet p) else (p.setPlaying false).andThen? retreat?
  | .togglePlay =>
    if p.playing then some (p.setPlaying false) else (p.setPlaying true).andThen? onIdle?
  | .onIdle => p.onIdle?
  | c => some (p.perform c)

theorem advance?_of_lt (h : p.progress < p.actions.length) : p.advance? = some p.advance := by
  rw [advance?, advance, List.getElem?_eq_getElem h]
  rfl

theorem retreat?_of_lt (h : p.progress - 1 < p.actions.length) : p.retreat? = some p.retreat := by
  rw [retreat?, retreat, List.getElem?_eq_getElem h]
  rfl

theorem onIdle?_eq (hp : p.progress ≤ p.actions.length) : p.onIdle? = some p.onIdle := by
  unfold onIdle? onIdle
  refine Step.andThen?_of_some ?_
  by_cases hf : p.finished = true
  · simp [hf]
  · have hlt := lt_of_not_finished hp hf
    rw [if_neg hf]
    show (if p.playing = true then p.advance? else some (.quiet p)) =
      some (if p.playing = true then p.advance else .quiet p)
    rw [advance?_of_lt hlt]
    split <;> rfl

theorem perform?_eq (hp : p.progress ≤ p.actions.length) (c : Command) :
    p.perform? c = some (p.perform c) := by
  cases c with
  | load | edit | restoreDefault | select | selectGroup => rfl
  | stepForward =>
    rw [perform?]
    show _ = some p.stepForward
    unfold stepForward
    split
    · rfl
    · rename_i hf
      refine Step.andThen?_of_some ?_
      rw [player_setPlaying]
      exact advance?_of_lt (lt_of_not_finished hp hf)
  | stepBackward =>
    rw [perform?]
    show _ = some p.stepBackward
    unfold stepBackward
    split
    · rfl
    · have hlt : p.progress - 1 < p.actions.length := by omega
      refine Step.andThen?_of_some ?_
      rw [player_setPlaying]
      exact retreat?_of_lt hlt
  | togglePlay =>
    rw [perform?]
    show _ = some p.togglePlay
    unfold togglePlay
    split
    · rfl
    · refine Step.andThen?_of_some ?_
      rw [player_setPlaying]
      exact onIdle?_eq hp
  | onIdle => exact onIdle?_eq hp

/-! ### Moves -/

theorem consistent_restarted
    (h : p.catalog.contains p.position = true ∨ p.position = Position.first) :
    p.restarted.Consistent where
  progress_le := Nat.zero_le _
  actions_eq := rfl
  position := h
  playing := fun hplay => absurd hplay Bool.false_ne_true

theorem contains_of_selected {e : Entry} (h : p.selected? = some e) :
    p.catalog.contains p.position = true := by
  rw [Catalog.contains, show p.catalog.entryAt? p.position = some e from h]
  rfl

theorem contains_set (c : Catalog) (q r : Position) (text : String) :
    (c.set q text).contains r = c.contains r :=
  Catalog.contains_mapCurrent _ c r

theorem Consistent.move {c : Command} {step : Step} (h : p.Consistent) (hm : p.Move c step) :
    step.player.Consistent := by
  cases hm with
  | stay => exact h
  | blink => exact h
  | pause =>
    exact ⟨h.progress_le, h.actions_eq, h.position, fun hplay => absurd hplay Bool.false_ne_true⟩
  | forward playing _ hlt => exact ⟨hlt, h.actions_eq, h.position, fun _ => Nat.le_add_left _ _⟩
  | backward _ hlt =>
    exact ⟨Nat.le_of_lt hlt, h.actions_eq, h.position, fun hplay => absurd hplay Bool.false_ne_true⟩
  | load =>
    rw [player_load]
    exact consistent_restarted h.position
  | edit e text _ he =>
    have hset := contains_set p.catalog p.position p.position text
    rw [player_edit he]
    exact consistent_restarted (.inl (hset.trans (contains_of_selected he)))
  | select q _ hq =>
    rw [player_select hq]
    exact consistent_restarted (.inl hq)

theorem Move.contains {c : Command} {step : Step} (hm : p.Move c step)
    (h : p.catalog.contains p.position = true) :
    step.player.catalog.contains step.player.position = true := by
  cases hm with
  | stay | blink | pause | forward | backward => exact h
  | load =>
    rw [player_load]
    exact h
  | edit e text _ he =>
    rw [player_edit he]
    exact (contains_set p.catalog p.position p.position text).trans h
  | select q _ hq =>
    rw [player_select hq]
    exact hq

theorem Move.pristine {c : Command} {step : Step} (hm : p.Move c step) :
    step.player.catalog.pristine = p.catalog.pristine := by
  cases hm with
  | stay | blink | pause | forward | backward => rfl
  | load =>
    rw [player_load]
    rfl
  | edit e text _ he =>
    rw [player_edit he]
    exact Catalog.pristine_mapCurrent _ _
  | select q _ hq =>
    rw [player_select hq]
    rfl

theorem Move.edited {c : Command} {step : Step} (hm : p.Move c step) {q : Position}
    (h : step.player.catalog.entryAt? q ≠ p.catalog.entryAt? q) :
    c.edits = true ∧ p.position = q := by
  cases hm with
  | stay | blink | pause | forward | backward => exact absurd rfl h
  | load =>
    rw [player_load] at h
    exact absurd rfl h
  | edit e text hc he =>
    have hedits : c.edits = true := by
      rcases hc with rfl | ⟨rfl, -⟩ <;> rfl
    rw [player_edit he] at h
    by_cases hq : p.position = q
    · exact ⟨hedits, hq⟩
    · have hsame : (p.catalog.set p.position text).entryAt? q = p.catalog.entryAt? q := by
        simp [Catalog.entryAt?_set, Ne.symm hq]
      exact absurd hsame h
  | select r _ hr =>
    rw [player_select hr] at h
    exact absurd rfl h

/-! ### Runs -/

theorem Consistent.performAll (h : p.Consistent) (cs : List Command) :
    (performAll cs p).player.Consistent :=
  performAll_keeps_player (fun _ c hp => hp.move (perform_move hp.progress_le c)) cs p h

theorem Consistent.performAll_contains (h : p.Consistent)
    (hin : p.catalog.contains p.position = true) (cs : List Command) :
    (Player.performAll cs p).player.catalog.contains (Player.performAll cs p).player.position =
      true :=
  (performAll_keeps_player
    (P := fun q => q.Consistent ∧ q.catalog.contains q.position = true)
    (fun q c hq => by
      have hm := perform_move hq.1.progress_le c
      exact ⟨hq.1.move hm, hm.contains hq.2⟩)
    cs p ⟨h, hin⟩).2

theorem Consistent.performAll_pristine (h : p.Consistent) (cs : List Command) :
    (Player.performAll cs p).player.catalog.pristine = p.catalog.pristine :=
  (performAll_keeps_player
    (P := fun q => q.Consistent ∧ q.catalog.pristine = p.catalog.pristine)
    (fun q c hq => by
      have hm := perform_move hq.1.progress_le c
      exact ⟨hq.1.move hm, hm.pristine.trans hq.2⟩)
    cs p ⟨h, rfl⟩).2

/-- An entry that a run has changed was selected at an edit. -/
theorem Consistent.performAll_edited (h : p.Consistent) {cs : List Command} {q : Position}
    (hq : (Player.performAll cs p).player.catalog.entryAt? q ≠ p.catalog.entryAt? q) :
    ∃ before c after, cs = before ++ c :: after ∧ c.edits = true ∧
      (Player.performAll before p).player.position = q := by
  induction cs generalizing p with
  | nil => exact absurd rfl hq
  | cons c cs ih =>
    have hm := perform_move h.progress_le c
    by_cases hsame : (p.perform c).player.catalog.entryAt? q = p.catalog.entryAt? q
    · rw [← hsame] at hq
      obtain ⟨before, c', after, rfl, hc', hpos⟩ := ih (h.move hm) hq
      exact ⟨c :: before, c', after, rfl, hc', hpos⟩
    · obtain ⟨hc, hpos⟩ := hm.edited hsame
      exact ⟨[], c, cs, rfl, hc, hpos⟩

theorem consistent_openStored (config : Config) (store : Store) (catalog : Catalog) :
    (openStored config store catalog).player.Consistent := by
  show (load _).player.Consistent
  rw [player_load]
  refine consistent_restarted ?_
  by_cases hin : (catalog.applyOverrides store config).contains (store.position config) = true
  · left
    simp only [if_pos hin]
    exact hin
  · right
    simp only [if_neg hin]

theorem pristine_openStored (config : Config) (store : Store) (catalog : Catalog) :
    (openStored config store catalog).player.catalog.pristine = catalog.pristine := by
  show (load _).player.catalog.pristine = _
  rw [player_load]
  exact Catalog.pristine_mapCurrent _ _

end Player

namespace Session

theorem consistent_run (config : Config) (store : Store) (catalog : Catalog)
    (rs : List Request) : (run config store catalog rs).1.player.Consistent := by
  rw [run_player]
  exact (Player.consistent_openStored config store catalog).performAll _

theorem move_run (config : Config) (store : Store) (catalog : Catalog) (rs : List Request)
    (c : Player.Command) :
    (run config store catalog rs).1.player.Move c
      ((run config store catalog rs).1.player.perform c) :=
  Player.perform_move (consistent_run config store catalog rs).progress_le c

theorem playing_start (config : Config) (store : Store) (catalog : Catalog) :
    (run config store catalog []).1.player.playing = false := by
  obtain ⟨q, hload, -⟩ := Player.openStored_player config store catalog
  show (Player.openStored config store catalog).player.playing = false
  rw [hload]
  exact (Player.restarts_load q).playing

end Session

/-- After every run, with whatever writes refused, the parts of the player belong together, a
selected entry has stayed one, the catalog is the one opened but for texts in use, of which only
those of entries selected at an edit have changed since, and no command can miss a twist. -/
theorem run_consistent (config : Config) (store : Store) (catalog : Catalog)
    (rs : List Session.Request) :
    let opened := (Session.start config store catalog).1.player
    let p := (Session.run config store catalog rs).1.player
    p.Consistent ∧
      (∀ more, p.catalog.contains p.position = true →
        let q := (Session.run config store catalog (rs ++ more)).1.player
        q.catalog.contains q.position = true) ∧
      p.catalog.pristine = catalog.pristine ∧
      (∀ q, p.catalog.entryAt? q ≠ opened.catalog.entryAt? q →
        ∃ before r after, rs = before ++ r :: after ∧ r.command.edits = true ∧
          (Session.run config store catalog before).1.player.position = q) ∧
      ∀ c, p.perform? c = some (p.perform c) := by
  intro opened p
  have hopen : opened.Consistent := Player.consistent_openStored config store catalog
  have hrun (rs : List Session.Request) : (Session.run config store catalog rs).1.player =
      (Player.performAll (rs.map Session.Request.command) opened).player :=
    Session.run_player config store catalog rs
  have hp : p = (Player.performAll (rs.map Session.Request.command) opened).player := hrun rs
  have hcons : p.Consistent := hp ▸ hopen.performAll _
  refine ⟨hcons, fun more hin => ?_, ?_, fun q hq => ?_, Player.perform?_eq hcons.progress_le⟩
  · have hmore := hcons.performAll_contains hin (more.map Session.Request.command)
    simp only [hrun, List.map_append, Player.performAll_append, Step.player_andThen, ← hp]
    exact hmore
  · rw [hp, hopen.performAll_pristine]
    exact Player.pristine_openStored config store catalog
  · rw [hp] at hq
    obtain ⟨before, c, after, hsplit, hc, hpos⟩ := hopen.performAll_edited hq
    obtain ⟨rs₁, rs₂, rfl, rfl, htail⟩ := List.map_eq_append_iff.1 hsplit
    obtain ⟨r, rs₃, rfl, rfl, -⟩ := List.map_eq_cons_iff.1 htail
    exact ⟨rs₁, r, rs₃, rfl, hc, by rw [hrun, hpos]⟩

end CubeTrainer
