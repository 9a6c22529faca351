import CubeTrainer.Proofs.Player.Consistency
import CubeTrainer.Proofs.Trainer.Freshness
import CubeTrainer.Proofs.Trainer.Refusals

/-!
# Declined commands

A player declines a command for which there is nothing to do: no twist is left in that direction, no
turn was awaited, no such entry is there (`Player.Declines`). Of a declined command becomes nothing
at all, also while the player plays (`perform_of_declines`). Every other command is carried out
whole (`perform_fulfils`).
-/

namespace CubeTrainer

theorem Catalog.contains_first_iff (c : Catalog) (g : Nat) :
    c.contains ⟨g, 0⟩ = false ↔ ∀ group, c.groupAt? g = some group → group.entries = [] := by
  unfold contains entryAt?
  cases c.groupAt? g with
  | none => simp
  | some group => cases group.entries <;> simp

namespace Player

variable {p q : Player} {c : Command} {step : Step} {writes : List Write}

/-! ### Declined -/

def Declines (p : Player) : Command → Prop
  | .stepForward => p.progress = p.actions.length
  | .stepBackward => p.progress = 0
  | .onIdle => p.playing = false
  | .select q => p.catalog.contains q = false
  | .selectGroup g =>
    g ≠ p.position.group ∧ ∀ group, p.catalog.groupAt? g = some group → group.entries = []
  | .edit _ | .restoreDefault => p.selected? = none
  | .load | .togglePlay => False

instance (p : Player) : (c : Command) → Decidable (p.Declines c)
  | .stepForward => inferInstanceAs (Decidable (p.progress = p.actions.length))
  | .stepBackward => inferInstanceAs (Decidable (p.progress = 0))
  | .onIdle => inferInstanceAs (Decidable (p.playing = false))
  | .select q => inferInstanceAs (Decidable (p.catalog.contains q = false))
  | .selectGroup g =>
    decidable_of_iff (g ≠ p.position.group ∧ p.catalog.contains ⟨g, 0⟩ = false)
      (and_congr_right' (p.catalog.contains_first_iff g))
  | .edit _ | .restoreDefault => inferInstanceAs (Decidable (p.selected? = none))
  | .load | .togglePlay => .isFalse id

/-- The player is as before, the cube is told nothing, and no write is tried. -/
theorem perform_of_declines (h : p.Declines c) : p.perform c = .quiet p := by
  cases c with
  | load | togglePlay => exact h.elim
  | stepForward => exact if_pos (finished_iff.2 h)
  | stepBackward => exact if_pos h
  | onIdle => exact onIdle_of_not_playing h
  | select q => exact perform_select_of_not_contains (Bool.not_eq_true _ ▸ h)
  | selectGroup g =>
    obtain ⟨hg, hempty⟩ := h
    have hnot : ¬ p.catalog.contains ⟨g, 0⟩ = true := by
      rw [(p.catalog.contains_first_iff g).2 hempty]
      exact Bool.false_ne_true
    rw [perform_selectGroup, if_neg hg, perform_select_of_not_contains hnot]
  | edit text => exact perform_edit_of_none h text
  | restoreDefault => exact perform_restoreDefault_of_none h

/-! ### Carried out -/

/-- The step stops `p` from playing, brings the cube to the start of what `q` has selected, and
tries these writes. -/
structure StartsOver (p q : Player) (writes : List Write) (step : Step) : Prop where
  player : step.player = { q with actions := q.selectedTwists, progress := 0, playing := false }
  calls : step.calls =
    (if p.playing then [.interactive true] else []) ++
      .finish :: .reset q.strip :: (invert q.selectedTwists).map fun t => .turn t false
  writes : step.writes = writes

theorem Restarts.startsOver (h : Restarts p q step) (hwrites : step.writes = writes) :
    StartsOver p q writes step where
  player := h.player
  calls := by
    rw [h.calls, calls_setPlaying]
    cases p.playing <;> rfl
  writes := hwrites

/-- What the step does for a command that is not declined. -/
def Fulfils (p : Player) (step : Step) : Command → Prop
  | .load => StartsOver p p [] step
  | .select q => StartsOver p { p with position := q } [p.config.positionWrite q] step
  | .selectGroup g =>
    if g = p.position.group then StartsOver p p [] step
    else StartsOver p { p with position := ⟨g, 0⟩ } [p.config.positionWrite ⟨g, 0⟩] step
  | .edit text => ∃ e, p.selected? = some e ∧
      StartsOver p { p with catalog := p.catalog.set p.position text }
        [p.config.overrideWrite e.name text] step
  | .restoreDefault => ∃ e, p.selected? = some e ∧
      StartsOver p { p with catalog := p.catalog.set p.position e.authored }
        [p.config.overrideWrite e.name e.authored] step
  | .stepForward | .stepBackward | .togglePlay | .onIdle => step.calls ≠ [] ∧ step.writes = []

theorem startsOver_load (p : Player) : StartsOver p p [] p.load :=
  (restarts_load p).startsOver (saves_load p).writes

theorem startsOver_select {q : Position} (h : p.catalog.contains q = true) :
    StartsOver p { p with position := q } [p.config.positionWrite q]
      (p.perform (.select q)) :=
  (restarts_select h).startsOver (saves_select h).writes

theorem startsOver_edit {e : Entry} (h : p.selected? = some e) (text : String) :
    StartsOver p { p with catalog := p.catalog.set p.position text }
      [p.config.overrideWrite e.name text] (p.perform (.edit text)) :=
  (restarts_edit h text).startsOver (saves_edit h text).writes

theorem calls_stepForward_ne_nil (hlt : p.progress < p.actions.length) :
    p.stepForward.calls ≠ [] := by
  have hf : ¬ p.finished = true := fun hf => Nat.ne_of_lt hlt (finished_iff.1 hf)
  rw [stepForward, if_neg hf, setPlaying_andThen_advance false hlt]
  exact List.append_ne_nil_of_right_ne_nil _ (List.cons_ne_nil _ _)

theorem calls_stepBackward_ne_nil (hp : p.progress ≤ p.actions.length) (h : p.progress ≠ 0) :
    p.stepBackward.calls ≠ [] := by
  rw [stepBackward, if_neg h, setPlaying_andThen_retreat (by omega)]
  exact List.append_ne_nil_of_right_ne_nil _ (List.cons_ne_nil _ _)

theorem calls_onIdle_ne_nil (hp : p.progress ≤ p.actions.length) (h : p.playing = true) :
    p.onIdle.calls ≠ [] := by
  rcases Nat.lt_or_eq_of_le hp with hlt | hend
  · rw [onIdle_of_lt h hlt]
    exact List.cons_ne_nil _ _
  · rw [onIdle_of_finished h (finished_iff.2 hend)]
    exact List.cons_ne_nil _ _

theorem calls_togglePlay_ne_nil (hp : p.progress ≤ p.actions.length) :
    p.togglePlay.calls ≠ [] := by
  cases h : p.playing with
  | true =>
    rw [togglePlay_of_playing h]
    exact List.cons_ne_nil _ _
  | false =>
    rcases Nat.lt_or_eq_of_le hp with hlt | hend
    · rw [togglePlay_of_lt h hlt]
      exact List.cons_ne_nil _ _
    · rw [togglePlay_of_finished h (finished_iff.2 hend)]
      exact List.cons_ne_nil _ _

theorem perform_fulfils (hp : p.progress ≤ p.actions.length) (h : ¬ p.Declines c) :
    p.Fulfils (p.perform c) c := by
  have hwrites := (p.perform_saves c).writes
  cases c with
  | load => exact startsOver_load p
  | stepForward => exact ⟨calls_stepForward_ne_nil (Nat.lt_of_le_of_ne hp h), hwrites⟩
  | stepBackward => exact ⟨calls_stepBackward_ne_nil hp h, hwrites⟩
  | togglePlay => exact ⟨calls_togglePlay_ne_nil hp, hwrites⟩
  | onIdle => exact ⟨calls_onIdle_ne_nil hp (Bool.eq_true_of_not_eq_false h), hwrites⟩
  | select q => exact startsOver_select (Bool.eq_true_of_not_eq_false h)
  | selectGroup g =>
    rw [Fulfils, perform_selectGroup]
    by_cases hg : g = p.position.group
    · rw [if_pos hg, if_pos hg]
      exact startsOver_load p
    · rw [if_neg hg, if_neg hg]
      have hnot : ¬ p.catalog.contains ⟨g, 0⟩ = false := fun hempty =>
        h ⟨hg, (p.catalog.contains_first_iff g).1 hempty⟩
      exact startsOver_select (Bool.eq_true_of_not_eq_false hnot)
  | edit text =>
    obtain ⟨e, he⟩ := Option.ne_none_iff_exists'.1 h
    exact ⟨e, he, startsOver_edit he text⟩
  | restoreDefault =>
    obtain ⟨e, he⟩ := Option.ne_none_iff_exists'.1 h
    refine ⟨e, he, ?_⟩
    rw [perform_restoreDefault_of_some he]
    exact startsOver_edit he e.authored

end Player

/-! ### Trainers -/

namespace Trainer

variable {σ ρ ι : Type}

theorem perform_of_declines (t : Trainer σ ρ ι) (refusal : Option StoreError)
    {c : Player.Command} (h : t.session.player.Declines c) :
    t.perform refusal c = (t, .quiet t.session.player) := by
  have hsession : t.session.perform refusal c = (t.session, .quiet t.session.player) := by
    rw [Session.perform_eq, Player.perform_of_declines h, Step.accepted_of_no_writes rfl]
    rfl
  rw [perform, hsession]
  rfl

theorem consistent_takeAll (scene : Scene σ) (soil : σ → σ) (r : Rasterizer ρ ι) (config : Config)
    (store : Store) (catalog : Catalog) (s₀ : σ) (r₀ : ρ) (events : List Event) :
    let t := takeAll scene soil r (start config store catalog s₀ r₀).1 events
    t.session.player.Consistent := by
  intro t
  have hsession : t.session = _ := session_takeAll events (start config store catalog s₀ r₀).1
  rw [hsession]
  exact Session.consistent_run config store catalog (events.filterMap Event.request?)

/-- After every run, a declined command leaves the whole trainer as it is, tells the cube nothing
and tries no write. A command that is not declined is carried out: whatever selects or edits leads
to the start, with the one write of the position or of the text, and nothing else tries a write,
the opening and what is no command among it. -/
theorem run_declined_or_fulfilled (scene : Scene σ) (soil : σ → σ) (r : Rasterizer ρ ι)
    (config : Config) (store : Store) (catalog : Catalog) (s₀ : σ) (r₀ : ρ)
    (events : List Event) :
    let t := takeAll scene soil r (start config store catalog s₀ r₀).1 events
    let p := t.session.player
    (∀ refusal c, p.Declines c → t.perform refusal c = (t, .quiet p)) ∧
      (∀ refusal c, ¬ p.Declines c →
        p.Fulfils (t.perform refusal c).2 c ∧
          (t.perform refusal c).1.session.player = (t.perform refusal c).2.player) ∧
      (∀ event, event.request? = none → (t.take scene soil r event).session = t.session) ∧
      (Player.openStored config store catalog).writes = [] := by
  intro t p
  have hp : p.Consistent := consistent_takeAll scene soil r config store catalog s₀ r₀ events
  refine ⟨fun refusal c => perform_of_declines t refusal, fun refusal c hc => ?_, ?_, ?_⟩
  · have hstep : (t.perform refusal c).2 = p.perform c := Session.step_perform t.session refusal c
    exact ⟨hstep ▸ Player.perform_fulfils hp.progress_le hc,
      Session.player_perform_eq_step t.session refusal c⟩
  · intro event hevent
    cases event with
    | tick | sceneChange => rfl
    | command refusal c => cases hevent
  · exact (Player.saves_load _).writes

/-- The third entry of two is declined while the player plays, and the second is not. -/
theorem run_declined_while_playing :
    let t := takeAll sampleScene (fun _ => true) sampleRasterizer
      (start .standard .empty samplePair true false).1 [.tick, .command none .togglePlay]
    let p := t.session.player
    p.playing = true ∧ p.Declines (.select ⟨0, 2⟩) ∧
      t.perform none (.select ⟨0, 2⟩) = (t, .quiet p) ∧
      ¬ p.Declines (.select ⟨0, 1⟩) ∧
      Player.StartsOver p { p with position := ⟨0, 1⟩ } [p.config.positionWrite ⟨0, 1⟩]
        (t.perform none (.select ⟨0, 1⟩)).2 := by
  intro t p
  obtain ⟨hdeclined, hfulfilled, -⟩ := run_declined_or_fulfilled sampleScene (fun _ => true)
    sampleRasterizer .standard .empty samplePair true false [.tick, .command none .togglePlay]
  have houtside : p.Declines (.select ⟨0, 2⟩) := by decide +kernel
  have hinside : ¬ p.Declines (.select ⟨0, 1⟩) := by decide +kernel
  exact ⟨by decide +kernel, houtside, hdeclined none _ houtside, hinside,
    (hfulfilled none _ hinside).1⟩

end Trainer

end CubeTrainer
