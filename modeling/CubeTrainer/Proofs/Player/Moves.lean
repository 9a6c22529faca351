import CubeTrainer.Proofs.Player.Steps

/-!
# Moves

What a command can make of a player. `perform_move` lists it once: nothing, a pause, one twist
forward or backward, or a restart after the entry was read again, edited or exchanged. What all
commands keep is shown move by move, and `performAll_keeps` carries it through a run.
-/

namespace CubeTrainer

namespace Player

variable {p : Player}

/-! ### Parts of operations -/

@[simp] theorem player_setPlaying (b : Bool) (p : Player) :
    (p.setPlaying b).player = { p with playing := b } := by
  unfold setPlaying
  split
  · rename_i h
    subst h
    rfl
  · rfl

@[simp] theorem calls_setPlaying (b : Bool) (p : Player) :
    (p.setPlaying b).calls = if p.playing = b then [] else [.interactive !b] := by
  unfold setPlaying
  split <;> rfl

@[simp] theorem player_reposition (p : Player) :
    p.reposition.player = { p with progress := 0, playing := false } := by
  simp [reposition, Step.tell]

def startCalls (p : Player) : List Call :=
  .finish :: .reset p.strip :: (invert p.actions).map fun t => .turn t false

theorem calls_reposition (p : Player) :
    p.reposition.calls = (p.setPlaying false).calls ++ p.startCalls := by
  rw [reposition, Step.calls_andThen, player_setPlaying]
  rfl

theorem advance_of_lt (h : p.progress < p.actions.length) :
    p.advance = .tell { p with progress := p.progress + 1 } [.turn p.actions[p.progress] true] := by
  rw [advance, List.getElem?_eq_getElem h]

theorem retreat_of_lt (h : p.progress - 1 < p.actions.length) :
    p.retreat =
      .tell { p with progress := p.progress - 1 }
        [.turn p.actions[p.progress - 1].inverse true] := by
  rw [retreat, List.getElem?_eq_getElem h]

theorem finished_iff : p.finished = true ↔ p.progress = p.actions.length := by
  simp [finished]

theorem lt_of_not_finished (hp : p.progress ≤ p.actions.length) (h : ¬ p.finished = true) :
    p.progress < p.actions.length :=
  Nat.lt_of_le_of_ne hp fun he => h (finished_iff.2 he)

/-! ### Restarts -/

def selectedTwists (p : Player) : List Twist :=
  match p.selected? with
  | some e => Notation.parse e.current
  | none => []

def restarted (p : Player) : Player :=
  { p with actions := p.selectedTwists, progress := 0, playing := false }

theorem load_eq (p : Player) : p.load = reposition { p with actions := p.selectedTwists } := by
  unfold load selectedTwists
  cases p.selected? with
  | none => simp only [Notation.parse_empty]
  | some e => rfl

theorem player_load (p : Player) : p.load.player = p.restarted := by
  rw [load_eq, player_reposition]
  rfl

theorem calls_load (p : Player) :
    p.load.calls = (p.setPlaying false).calls ++ p.restarted.startCalls := by
  rw [load_eq, calls_reposition]
  simp only [calls_setPlaying]
  rfl

theorem player_select {q : Position} (h : p.catalog.contains q = true) :
    (p.perform (.select q)).player = restarted { p with position := q } := by
  rw [perform_select_of_contains h]
  exact player_load _

theorem calls_select {q : Position} (h : p.catalog.contains q = true) :
    (p.perform (.select q)).calls =
      (p.setPlaying false).calls ++ (restarted { p with position := q }).startCalls := by
  rw [perform_select_of_contains h]
  simp only [calls_load, calls_setPlaying]

theorem selectedTwists_set {e : Entry} (h : p.selected? = some e) (text : String) :
    selectedTwists { p with catalog := p.catalog.set p.position text } = Notation.parse text := by
  have hset : (p.catalog.set p.position text).entryAt? p.position =
      some { e with current := text } := by
    rw [Catalog.entryAt?_set, show p.catalog.entryAt? p.position = some e from h]
    simp
  simp [selectedTwists, selected?, hset]

theorem player_edit {e : Entry} (h : p.selected? = some e) (text : String) :
    (p.perform (.edit text)).player =
      restarted { p with catalog := p.catalog.set p.position text } := by
  rw [perform_edit_of_some h, restarted, selectedTwists_set h]
  exact player_reposition _

theorem calls_edit {e : Entry} (h : p.selected? = some e) (text : String) :
    (p.perform (.edit text)).calls = (p.setPlaying false).calls ++
      (restarted { p with catalog := p.catalog.set p.position text }).startCalls := by
  rw [perform_edit_of_some h, restarted, selectedTwists_set h]
  simp only [calls_reposition, calls_setPlaying]
  rfl

structure Restarts (p q : Player) (step : Step) : Prop where
  player : step.player = q.restarted
  calls : step.calls = (p.setPlaying false).calls ++ q.restarted.startCalls

theorem restarts_load (p : Player) : Restarts p p p.load :=
  ⟨player_load p, calls_load p⟩

theorem restarts_edit {e : Entry} (h : p.selected? = some e) (text : String) :
    Restarts p { p with catalog := p.catalog.set p.position text } (p.perform (.edit text)) :=
  ⟨player_edit h text, calls_edit h text⟩

theorem restarts_select {q : Position} (h : p.catalog.contains q = true) :
    Restarts p { p with position := q } (p.perform (.select q)) :=
  ⟨player_select h, calls_select h⟩

theorem Restarts.playing {q : Player} {step : Step} (h : Restarts p q step) :
    step.player.playing = false := by
  rw [h.player]
  rfl

/-! ### Moves -/

def Command.edits : Command → Bool
  | .edit _ => true
  | .restoreDefault => true
  | _ => false

/-- The step that a command takes from `p`, by what it does. -/
inductive Move (p : Player) : Command → Step → Prop
  /-- Nothing is done; a player that plays does something when a turn has ended. -/
  | stay {c} (hc : c = .onIdle → p.playing = false) : Move p c (.quiet p)
  /-- Playing starts where no twist is left, and stops again. -/
  | blink (hend : p.progress = p.actions.length) (hp : p.playing = false) :
      Move p .togglePlay (.tell p [.interactive false, .interactive true])
  | pause {c} (hc : c = .togglePlay ∨ c = .onIdle ∧ p.progress = p.actions.length)
      (hp : p.playing = true) :
      Move p c (.tell { p with playing := false } [.interactive true])
  /-- The next twist is turned; `playing` says whether more follow by themselves. -/
  | forward {c} (playing : Bool)
      (hc : c = .stepForward ∧ playing = false ∨
        c = .togglePlay ∧ p.playing = false ∧ playing = true ∨
        c = .onIdle ∧ p.playing = true ∧ playing = true)
      (hlt : p.progress < p.actions.length) :
      Move p c (.tell { p with progress := p.progress + 1, playing := playing }
        ((p.setPlaying playing).calls ++ [.turn p.actions[p.progress] true]))
  | backward (hpos : 0 < p.progress) (hlt : p.progress - 1 < p.actions.length) :
      Move p .stepBackward (.tell { p with progress := p.progress - 1, playing := false }
        ((p.setPlaying false).calls ++ [.turn p.actions[p.progress - 1].inverse true]))
  | load {c} (hc : c = .load ∨ c = .selectGroup p.position.group) : Move p c p.load
  | edit {c} (e : Entry) (text : String)
      (hc : c = .edit text ∨ c = .restoreDefault ∧ text = e.authored)
      (he : p.selected? = some e) : Move p c (p.perform (.edit text))
  | select {c} (q : Position)
      (hc : c = .select q ∨ c = .selectGroup q.group ∧ q.group ≠ p.position.group ∧ q.index = 0)
      (hq : p.catalog.contains q = true) : Move p c (p.perform (.select q))

theorem setPlaying_andThen_advance (playing : Bool) (h : p.progress < p.actions.length) :
    (p.setPlaying playing).andThen advance =
      .tell { p with progress := p.progress + 1, playing := playing }
        ((p.setPlaying playing).calls ++ [.turn p.actions[p.progress] true]) := by
  have hnext := advance_of_lt (p := { p with playing := playing }) h
  unfold setPlaying
  split
  · rename_i heq
    subst heq
    rw [Step.quiet_andThen, advance_of_lt h]
    rfl
  · rw [Step.andThen, Step.tell, hnext]
    rfl

theorem setPlaying_andThen_retreat (h : p.progress - 1 < p.actions.length) :
    (p.setPlaying false).andThen retreat =
      .tell { p with progress := p.progress - 1, playing := false }
        ((p.setPlaying false).calls ++ [.turn p.actions[p.progress - 1].inverse true]) := by
  have hlast := retreat_of_lt (p := { p with playing := false }) h
  unfold setPlaying
  split
  · rename_i heq
    rw [Step.quiet_andThen, retreat_of_lt h, ← heq]
    rfl
  · rw [Step.andThen, Step.tell, hlast]
    rfl

theorem move_stepForward (hp : p.progress ≤ p.actions.length) :
    p.Move .stepForward p.stepForward := by
  unfold stepForward
  split
  · exact .stay nofun
  · rename_i hf
    have hlt := lt_of_not_finished hp hf
    rw [setPlaying_andThen_advance false hlt]
    exact .forward false (.inl ⟨rfl, rfl⟩) hlt

theorem move_stepBackward (hp : p.progress ≤ p.actions.length) :
    p.Move .stepBackward p.stepBackward := by
  unfold stepBackward
  split
  · exact .stay nofun
  · have hlt : p.progress - 1 < p.actions.length := by omega
    rw [setPlaying_andThen_retreat hlt]
    exact .backward (by omega) hlt

theorem onIdle_of_not_playing (h : p.playing = false) : p.onIdle = .quiet p := by
  unfold onIdle
  split
  · rw [setPlaying, if_pos h, Step.quiet_andThen]
    simp [h]
  · simp [h]

theorem onIdle_of_finished (h : p.playing = true) (hf : p.finished = true) :
    p.onIdle = .tell { p with playing := false } [.interactive true] := by
  simp [onIdle, hf, setPlaying, h, Step.andThen, Step.tell, Step.quiet]

theorem onIdle_of_lt (h : p.playing = true) (hlt : p.progress < p.actions.length) :
    p.onIdle =
      .tell { p with progress := p.progress + 1 } [.turn p.actions[p.progress] true] := by
  have hf : ¬ p.finished = true := fun hf => Nat.ne_of_lt hlt (finished_iff.1 hf)
  rw [onIdle, if_neg hf, Step.quiet_andThen, if_pos h, advance_of_lt hlt]

theorem move_onIdle (hp : p.progress ≤ p.actions.length) : p.Move .onIdle p.onIdle := by
  cases h : p.playing with
  | false =>
    rw [onIdle_of_not_playing h]
    exact .stay fun _ => h
  | true =>
    by_cases hf : p.finished = true
    · rw [onIdle_of_finished h hf]
      exact .pause (.inr ⟨rfl, finished_iff.1 hf⟩) h
    · have hlt := lt_of_not_finished hp hf
      have hmove := Move.forward true (.inr (.inr ⟨rfl, h, rfl⟩)) hlt
      have hsame : { p with progress := p.progress + 1, playing := true } =
          { p with progress := p.progress + 1 } := by rw [← h]
      rw [calls_setPlaying, if_pos h] at hmove
      rw [onIdle_of_lt h hlt, ← hsame]
      exact hmove

theorem togglePlay_of_playing (h : p.playing = true) :
    p.togglePlay = .tell { p with playing := false } [.interactive true] := by
  simp [togglePlay, setPlaying, h]

theorem togglePlay_of_finished (h : p.playing = false) (hf : p.finished = true) :
    p.togglePlay = .tell p [.interactive false, .interactive true] := by
  have hidle := onIdle_of_finished (p := { p with playing := true }) rfl hf
  have hsame : { p with playing := false } = p := by rw [← h]
  simp only [togglePlay, h, setPlaying, Bool.false_eq_true, if_false, Step.andThen, Step.tell,
    hidle, hsame]
  rfl

theorem togglePlay_of_lt (h : p.playing = false) (hlt : p.progress < p.actions.length) :
    p.togglePlay =
      .tell { p with progress := p.progress + 1, playing := true }
        [.interactive false, .turn p.actions[p.progress] true] := by
  have hidle := onIdle_of_lt (p := { p with playing := true }) rfl hlt
  simp only [togglePlay, h, setPlaying, Bool.false_eq_true, if_false, Step.andThen, Step.tell,
    hidle]
  rfl

theorem move_togglePlay (hp : p.progress ≤ p.actions.length) :
    p.Move .togglePlay p.togglePlay := by
  cases h : p.playing with
  | true =>
    rw [togglePlay_of_playing h]
    exact .pause (.inl rfl) h
  | false =>
    by_cases hf : p.finished = true
    · rw [togglePlay_of_finished h hf]
      exact .blink (finished_iff.1 hf) h
    · have hlt := lt_of_not_finished hp hf
      have hmove := Move.forward true (.inr (.inl ⟨rfl, h, rfl⟩)) hlt
      simp only [calls_setPlaying, h, Bool.false_eq_true, if_false] at hmove
      rw [togglePlay_of_lt h hlt]
      exact hmove

theorem move_edit (text : String) : p.Move (.edit text) (p.perform (.edit text)) := by
  cases he : p.selected? with
  | none =>
    rw [perform_edit_of_none he]
    exact .stay nofun
  | some e => exact .edit e text (.inl rfl) he

theorem move_restoreDefault : p.Move .restoreDefault (p.perform .restoreDefault) := by
  cases he : p.selected? with
  | none =>
    rw [perform_restoreDefault_of_none he]
    exact .stay nofun
  | some e =>
    rw [perform_restoreDefault_of_some he]
    exact .edit e e.authored (.inr ⟨rfl, rfl⟩) he

theorem move_select (q : Position) : p.Move (.select q) (p.perform (.select q)) := by
  by_cases hq : p.catalog.contains q = true
  · exact .select q (.inl rfl) hq
  · rw [perform_select_of_not_contains hq]
    exact .stay nofun

theorem move_selectGroup (g : Nat) : p.Move (.selectGroup g) (p.perform (.selectGroup g)) := by
  rw [perform_selectGroup]
  split
  · rename_i hg
    subst hg
    exact .load (.inr rfl)
  · rename_i hg
    by_cases hq : p.catalog.contains ⟨g, 0⟩ = true
    · exact .select ⟨g, 0⟩ (.inr ⟨rfl, hg, rfl⟩) hq
    · rw [perform_select_of_not_contains hq]
      exact .stay nofun

theorem perform_move (hp : p.progress ≤ p.actions.length) (c : Command) :
    p.Move c (p.perform c) := by
  cases c with
  | load => exact .load (.inl rfl)
  | edit text => exact move_edit text
  | restoreDefault => exact move_restoreDefault
  | stepForward => exact move_stepForward hp
  | stepBackward => exact move_stepBackward hp
  | togglePlay => exact move_togglePlay hp
  | onIdle => exact move_onIdle hp
  | select q => exact move_select q
  | selectGroup g => exact move_selectGroup g

/-! ### What a run keeps -/

theorem Move.progress_le {c : Command} {step : Step} (hp : p.progress ≤ p.actions.length)
    (hm : p.Move c step) : step.player.progress ≤ step.player.actions.length := by
  cases hm with
  | stay => exact hp
  | blink => exact hp
  | pause => exact hp
  | forward playing hc hlt => exact hlt
  | backward hpos hlt => exact Nat.le_of_lt hlt
  | load hc =>
    rw [player_load]
    exact Nat.zero_le _
  | edit e text hc he =>
    rw [player_edit he]
    exact Nat.zero_le _
  | select q hc hq =>
    rw [player_select hq]
    exact Nat.zero_le _

/-- What every command keeps of a player and of the state of a cube that is told its calls, a whole
run keeps. -/
theorem performAll_keeps {σ : Type} (cube : Cube σ) {I : Player → σ → Prop}
    (hstep : ∀ p c s, I p s → I (p.perform c).player (cube.respondAll s (p.perform c).calls))
    (cs : List Command) (p : Player) (s : σ) (h : I p s) :
    I (performAll cs p).player (cube.respondAll s (performAll cs p).calls) := by
  induction cs generalizing p s with
  | nil => exact h
  | cons c cs ih =>
    have hrest := ih (p.perform c).player _ (hstep p c s h)
    rw [performAll, Step.player_andThen, Step.calls_andThen, Cube.respondAll_append]
    exact hrest

theorem performAll_keeps_player {P : Player → Prop}
    (hstep : ∀ p c, P p → P (p.perform c).player) (cs : List Command) (p : Player) (h : P p) :
    P (performAll cs p).player :=
  performAll_keeps ⟨fun _ => id, fun _ _ => id, id, fun _ => id⟩ (I := fun p (_ : Unit) => P p)
    (fun p c _ => hstep p c) cs p () h

theorem openStored_player (config : Config) (store : Store) (catalog : Catalog) :
    ∃ q : Player, openStored config store catalog = q.load ∧ q.playing = false :=
  ⟨_, rfl, rfl⟩

end Player

end CubeTrainer
