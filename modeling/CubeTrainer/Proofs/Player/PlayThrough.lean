import CubeTrainer.Proofs.Player.Consistency
import CubeTrainer.Proofs.Player.Saves
import CubeTrainer.Proofs.Player.Standing

/-!
# Playing through

A player that plays takes one report for each twist that is left, and one more on which it stops
(`PlaysOut.of_playing`); the first twist after a start takes none, since it is turned at once. On
the way it turns what steps by hand would turn and ends where they end, and as many steps back turn
the inverted algorithm (`run_played_out`).
-/

namespace CubeTrainer

theorem Step.tell_andThen {p q : Player} {calls calls' : List Call} {next : Player → Step}
    (h : next p = .tell q calls') :
    (Step.tell p calls).andThen next = .tell q (calls ++ calls') := by
  simp [Step.andThen, Step.tell, h]

namespace Player

variable {p : Player}

def ended (p : Player) : Player := { p with progress := p.actions.length, playing := false }

def turnsAhead (p : Player) : List Call := (p.actions.drop p.progress).map fun t => .turn t true

def turnsBack (p : Player) : List Call :=
  (invert (p.actions.take p.progress)).map fun t => .turn t true

theorem turnsAhead_of_lt (h : p.progress < p.actions.length) :
    p.turnsAhead = .turn p.actions[p.progress] true ::
      turnsAhead { p with progress := p.progress + 1 } := by
  rw [turnsAhead, List.drop_eq_getElem_cons h]
  rfl

theorem turnsAhead_of_finished (h : p.finished = true) : p.turnsAhead = [] := by
  rw [turnsAhead, finished_iff.1 h, List.drop_length]
  rfl

theorem ended_of_finished (h : p.finished = true) : p.ended = { p with playing := false } := by
  rw [ended, ← finished_iff.1 h]

theorem turnsBack_of_pos (hpos : 0 < p.progress) (h : p.progress - 1 < p.actions.length) :
    p.turnsBack = .turn p.actions[p.progress - 1].inverse true ::
      turnsBack { p with progress := p.progress - 1 } := by
  have hlast : p.actions.take p.progress =
      p.actions.take (p.progress - 1) ++ [p.actions[p.progress - 1]] := by
    rw [← List.take_succ_eq_append_getElem h, Nat.sub_add_cancel hpos]
  rw [turnsBack, hlast, invert_append]
  rfl

theorem turnsLeft_eq_zero_iff : p.turnsLeft = 0 ↔ p.playing = false := by
  unfold turnsLeft
  cases p.playing <;> simp

theorem turnsLeft_onIdle (hp : p.playing = true) (hle : p.progress ≤ p.actions.length) :
    p.onIdle.player.turnsLeft + 1 = p.turnsLeft := by
  by_cases hf : p.finished = true
  · have hend := finished_iff.1 hf
    rw [onIdle_of_finished hp hf]
    simp [turnsLeft, Step.tell, hp, hend]
  · have hlt := lt_of_not_finished hle hf
    rw [onIdle_of_lt hp hlt]
    simp only [turnsLeft, Step.tell, hp, if_true]
    omega

theorem turnsLeft_togglePlay (hp : p.playing = false) (hle : p.progress ≤ p.actions.length) :
    p.togglePlay.player.turnsLeft = p.actions.length - p.progress := by
  by_cases hf : p.finished = true
  · have hend := finished_iff.1 hf
    rw [togglePlay_of_finished hp hf]
    simp [turnsLeft, Step.tell, hp, hend]
  · have hlt := lt_of_not_finished hle hf
    rw [togglePlay_of_lt hp hlt]
    simp only [turnsLeft, Step.tell, if_true]
    omega

/-! ### Steps by hand -/

theorem stepForward_of_lt (hp : p.playing = false) (h : p.progress < p.actions.length) :
    p.stepForward =
      .tell { p with progress := p.progress + 1 } [.turn p.actions[p.progress] true] := by
  have hf : ¬ p.finished = true := fun hf => Nat.ne_of_lt h (finished_iff.1 hf)
  rw [stepForward, if_neg hf, setPlaying, if_pos hp, Step.quiet_andThen, advance_of_lt h]

theorem stepBackward_of_pos (hp : p.playing = false) (hpos : 0 < p.progress)
    (h : p.progress - 1 < p.actions.length) :
    p.stepBackward = .tell { p with progress := p.progress - 1 }
      [.turn p.actions[p.progress - 1].inverse true] := by
  rw [stepBackward, if_neg (by omega), setPlaying, if_pos hp, Step.quiet_andThen, retreat_of_lt h]

theorem performAll_stepForward (hp : p.playing = false) {k : Nat}
    (hk : p.progress + k = p.actions.length) :
    performAll (List.replicate k .stepForward) p = .tell p.ended p.turnsAhead := by
  induction k generalizing p with
  | zero =>
    have hf : p.finished = true := finished_iff.2 hk
    rw [ended_of_finished hf, turnsAhead_of_finished hf, ← hp]
    rfl
  | succ k ih =>
    have hlt : p.progress < p.actions.length := by omega
    have hrest := ih (p := { p with progress := p.progress + 1 }) hp (by simp only; omega)
    rw [List.replicate_succ, performAll, turnsAhead_of_lt hlt]
    show p.stepForward.andThen _ = _
    rw [stepForward_of_lt hp hlt]
    exact Step.tell_andThen hrest

theorem performAll_stepBackward (hp : p.playing = false) (hle : p.progress ≤ p.actions.length)
    {k : Nat} (hk : p.progress = k) :
    performAll (List.replicate k .stepBackward) p = .tell { p with progress := 0 } p.turnsBack := by
  induction k generalizing p with
  | zero =>
    have hsame : { p with progress := 0 } = p := by rw [← hk]
    have hnone : p.turnsBack = [] := by rw [turnsBack, hk]; rfl
    rw [hsame, hnone]
    rfl
  | succ k ih =>
    have hlt : p.progress - 1 < p.actions.length := by omega
    have hrest := ih (p := { p with progress := p.progress - 1 }) hp (by simp only; omega)
      (by simp only; omega)
    rw [List.replicate_succ, performAll, turnsBack_of_pos (by omega) hlt]
    show p.stepBackward.andThen _ = _
    rw [stepBackward_of_pos hp (by omega) hlt]
    exact Step.tell_andThen hrest

end Player

namespace Session

variable {s t : Session} {step : Step} {k : Nat}

/-! ### Sessions whose stores stay -/

theorem perform_of_no_writes {c : Player.Command} (h : (s.player.perform c).writes = [])
    (refusal : Option StoreError) :
    s.perform refusal c = (⟨(s.player.perform c).player, s.store⟩, s.player.perform c) := by
  rw [perform_eq, Step.accepted_of_no_writes h]
  rfl

theorem perform_of_tell {c : Player.Command} {q : Player} {calls : List Call}
    (h : s.player.perform c = .tell q calls) (refusal : Option StoreError) :
    s.perform refusal c = (⟨q, s.store⟩, .tell q calls) := by
  rw [perform_of_no_writes (by rw [h]; rfl), h]
  rfl

theorem written_of_no_writes {rs : List Request} {p : Player}
    (h : (p.performAll (rs.map Request.command)).writes = []) : written rs p = [] := by
  induction rs generalizing p with
  | nil => rfl
  | cons r rs ih =>
    rw [List.map_cons, Player.performAll, Step.writes_andThen] at h
    obtain ⟨hfirst, hrest⟩ := List.append_eq_nil_iff.1 h
    rw [written, Step.accepted_of_no_writes hfirst, ih hrest]
    rfl

theorem performAll_of_tell {rs : List Request} {q : Player} {calls : List Call}
    (h : s.player.performAll (rs.map Request.command) = .tell q calls) :
    performAll rs s = (⟨q, s.store⟩, .tell q calls) := by
  have hwritten : written rs s.player = [] := written_of_no_writes (by rw [h]; rfl)
  have hsession : (performAll rs s).1 = ⟨q, s.store⟩ := by
    show Session.mk (performAll rs s).1.player (performAll rs s).1.store = _
    rw [performAll_player, store_performAll, hwritten, h]
    rfl
  exact Prod.ext hsession ((performAll_step rs s).trans h)

/-! ### Playing out -/

/-- Reports that turns have ended, one after another for as long as the player plays: there are `k`
of them, they lead from `s` to `t`, and `step` is all that is done. -/
inductive PlaysOut : Session → Nat → Session → Step → Prop
  | stop {s : Session} (h : s.player.playing = false) : PlaysOut s 0 s (.quiet s.player)
  | report {s t : Session} {k : Nat} {step : Step} (refusal : Option StoreError)
      (h : s.player.playing = true) (rest : PlaysOut (s.perform refusal .onIdle).1 k t step) :
      PlaysOut s (k + 1) t ((s.perform refusal .onIdle).2.andThen fun _ => step)

theorem PlaysOut.of_not_playing (h : s.PlaysOut k t step) (hp : s.player.playing = false) :
    k = 0 ∧ t = s ∧ step = .quiet s.player := by
  cases h with
  | stop => exact ⟨rfl, rfl, rfl⟩
  | report refusal hplay => exact absurd hplay (Bool.eq_false_iff.1 hp)

/-- From a player that plays there is one way to play out: each report turns the next twist, and the
last one stops. -/
theorem PlaysOut.of_playing (h : s.PlaysOut k t step) (hp : s.player.playing = true)
    (hle : s.player.progress ≤ s.player.actions.length) :
    k = s.player.actions.length - s.player.progress + 1 ∧ t = ⟨s.player.ended, s.store⟩ ∧
      step = .tell s.player.ended (s.player.turnsAhead ++ [.interactive true]) := by
  -- on the reports: each but the last leaves a player that plays with one twist less ahead
  induction h with
  | stop hstop => exact absurd hp (Bool.eq_false_iff.1 hstop)
  | @report s t k step refusal _ rest ih =>
    by_cases hf : s.player.finished = true
    · have hend := Player.finished_iff.1 hf
      rw [perform_of_tell (c := .onIdle) (Player.onIdle_of_finished hp hf)] at rest ⊢
      obtain ⟨rfl, rfl, rfl⟩ := rest.of_not_playing rfl
      rw [Player.turnsAhead_of_finished hf, Player.ended_of_finished hf]
      exact ⟨by omega, rfl, rfl⟩
    · have hlt := Player.lt_of_not_finished hle hf
      rw [perform_of_tell (c := .onIdle) (Player.onIdle_of_lt hp hlt)] at ih ⊢
      obtain ⟨hk, ht, hstep⟩ := ih hp hlt
      rw [Player.turnsAhead_of_lt hlt]
      refine ⟨?_, ht, Step.tell_andThen hstep⟩
      simp only at hk
      omega

/-- Once a player that does not play is started, playing out turns all that is left; where nothing
is left the start stops by itself, and no report is needed. -/
theorem PlaysOut.of_togglePlay {refusal : Option StoreError}
    (h : (s.perform refusal .togglePlay).1.PlaysOut k t step) (hp : s.player.playing = false)
    (hle : s.player.progress ≤ s.player.actions.length) :
    k = s.player.actions.length - s.player.progress ∧ t = ⟨s.player.ended, s.store⟩ ∧
      (s.perform refusal .togglePlay).2.calls ++ step.calls =
        .interactive false :: s.player.turnsAhead ++ [.interactive true] := by
  by_cases hf : s.player.finished = true
  · have hend := Player.finished_iff.1 hf
    have hsame : s.player.ended = s.player := by rw [Player.ended_of_finished hf, ← hp]
    rw [perform_of_tell (c := .togglePlay) (Player.togglePlay_of_finished hp hf)] at h ⊢
    obtain ⟨rfl, rfl, rfl⟩ := h.of_not_playing hp
    rw [Player.turnsAhead_of_finished hf, hsame]
    exact ⟨by omega, rfl, rfl⟩
  · have hlt := Player.lt_of_not_finished hle hf
    rw [perform_of_tell (c := .togglePlay) (Player.togglePlay_of_lt hp hlt)] at h ⊢
    obtain ⟨hk, ht, hstep⟩ := h.of_playing rfl hlt
    rw [hstep, Player.turnsAhead_of_lt hlt]
    refine ⟨?_, ht, rfl⟩
    simp only at hk
    omega

theorem playsOut_playOutWithin {fuel : Nat} (hle : s.player.progress ≤ s.player.actions.length)
    (hfuel : s.player.turnsLeft ≤ fuel) :
    s.PlaysOut s.player.turnsLeft ⟨(s.player.playOutWithin fuel).player, s.store⟩
      (s.player.playOutWithin fuel) := by
  induction fuel generalizing s with
  | zero =>
    have hp : s.player.playing = false := Player.turnsLeft_eq_zero_iff.1 (by omega)
    rw [Player.turnsLeft_eq_zero_iff.2 hp]
    exact .stop hp
  | succ fuel ih =>
    cases hp : s.player.playing with
    | false =>
      rw [Player.turnsLeft_eq_zero_iff.2 hp, Player.playOutWithin, if_neg (by simp [hp])]
      exact .stop hp
    | true =>
      have hleft := Player.turnsLeft_onIdle hp hle
      have hnext : s.perform none .onIdle =
          (⟨s.player.onIdle.player, s.store⟩, s.player.onIdle) :=
        perform_of_no_writes (c := .onIdle) (Player.saves_onIdle s.player).writes none
      have hrest := ih (s := ⟨s.player.onIdle.player, s.store⟩)
        ((Player.move_onIdle hle).progress_le hle) (by simp only; omega)
      have hreport := PlaysOut.report none hp (by rw [hnext]; exact hrest)
      rw [hnext] at hreport
      rw [← hleft, Player.playOutWithin, if_pos hp]
      exact hreport

end Session

/-- From every player that a run leads to. If it does not play, starting it and reporting ended turns
for as long as it plays takes as many reports as twists are left, and tells the cube the same turns
as that many steps forward by hand, between a lock and an unlock of manual turns; both lead to the
same session, in which all twists are turned. If it plays, one report more is needed. From there, as
many steps back as there are twists lead to the start with the turns of the inverted algorithm. -/
theorem run_played_out (config : Config) (store : Store) (catalog : Catalog)
    (rs : List Session.Request) :
    let s := (Session.run config store catalog rs).1
    let p := s.player
    let left := p.actions.length - p.progress
    let ended : Session := ⟨{ p with progress := p.actions.length, playing := false }, s.store⟩
    let turns := (p.actions.drop p.progress).map fun t => Call.turn t true
    (p.playing = false → ∀ refusal,
      let started := s.perform refusal .togglePlay
      (∃ t step, started.1.PlaysOut left t step) ∧
        (∀ k t step, started.1.PlaysOut k t step → k = left ∧ t = ended ∧
          started.2.calls ++ step.calls = .interactive false :: turns ++ [.interactive true]) ∧
        ∀ manual : List Session.Request,
          manual.map Session.Request.command = List.replicate left .stepForward →
          (Session.performAll manual s).1 = ended ∧
            (Session.performAll manual s).2.calls = turns) ∧
      (p.playing = true →
        (∃ t step, s.PlaysOut (left + 1) t step) ∧
          ∀ k t step, s.PlaysOut k t step → k = left + 1 ∧ t = ended ∧
            step.calls = turns ++ [.interactive true]) ∧
      ∀ back : List Session.Request,
        back.map Session.Request.command = List.replicate p.actions.length .stepBackward →
        (Session.performAll back ended).1 = ⟨{ ended.player with progress := 0 }, s.store⟩ ∧
          (Session.performAll back ended).2.calls =
            (invert p.actions).map fun t => .turn t true := by
  intro s p left ended turns
  have hle : p.progress ≤ p.actions.length :=
    (Session.consistent_run config store catalog rs).progress_le
  refine ⟨?_, ?_, ?_⟩
  · intro hp refusal started
    refine ⟨?_, fun k t step h => h.of_togglePlay hp hle, ?_⟩
    · have hout := Session.playsOut_playOutWithin (s := started.1)
        ((Player.move_togglePlay hle).progress_le hle) (Nat.le_refl _)
      have hleft : started.1.player.turnsLeft = left := Player.turnsLeft_togglePlay hp hle
      exact ⟨_, _, hleft ▸ hout⟩
    · intro manual hmanual
      have hsteps := Player.performAll_stepForward (p := p) (k := left) hp (by omega)
      rw [← hmanual] at hsteps
      rw [Session.performAll_of_tell hsteps]
      exact ⟨rfl, rfl⟩
  · intro hp
    have hleft : s.player.turnsLeft = left + 1 := if_pos hp
    refine ⟨⟨_, _, hleft ▸ Session.playsOut_playOutWithin hle (Nat.le_refl _)⟩, ?_⟩
    intro k t step h
    obtain ⟨hk, ht, hstep⟩ := h.of_playing hp hle
    exact ⟨hk, ht, congrArg Step.calls hstep⟩
  · intro back hback
    have hsteps := Player.performAll_stepBackward (p := ended.player) rfl (Nat.le_refl _) rfl
    rw [← hback] at hsteps
    have hturns : ended.player.turnsBack = (invert p.actions).map fun t => .turn t true := by
      show (invert (p.actions.take p.actions.length)).map _ = _
      rw [List.take_length]
    rw [Session.performAll_of_tell hsteps, hturns]
    exact ⟨rfl, rfl⟩

/-- One of four twists was turned by hand, and then the rest is played. -/
theorem run_played_out_midway :
    let s := (Session.run .standard .empty samplePair [⟨none, .stepForward⟩]).1
    let s' := (Session.run .standard .empty samplePair [⟨none, .stepForward⟩, ⟨none, .togglePlay⟩]).1
    let started := s.perform none .togglePlay
    let turns : List Call :=
      [.turn ⟨"U", false, 1⟩ true, .turn ⟨"R", true, 1⟩ true, .turn ⟨"U", true, 1⟩ true]
    s.player.playing = false ∧ s'.player.playing = true ∧
      (∃ t step, started.1.PlaysOut 3 t step ∧
        started.2.calls ++ step.calls = .interactive false :: turns ++ [.interactive true]) ∧
      (∃ t step, s'.PlaysOut 3 t step ∧ t.player.progress = 4) ∧
      (Session.performAll (List.replicate 3 ⟨none, .stepForward⟩) s).2.calls = turns := by
  intro s s' started turns
  have hp : s.player.playing = false := by decide +kernel
  have hp' : s'.player.playing = true := by decide +kernel
  have hturns : (s.player.actions.drop s.player.progress).map (fun t => Call.turn t true) = turns :=
    by decide +kernel
  obtain ⟨hpaused, -, -⟩ := run_played_out .standard .empty samplePair [⟨none, .stepForward⟩]
  obtain ⟨⟨t, step, hout⟩, hsame, hmanual⟩ := hpaused hp none
  obtain ⟨-, -, hcalls⟩ := hsame _ t step hout
  rw [hturns] at hcalls
  obtain ⟨-, hsteps⟩ := hmanual (List.replicate 3 ⟨none, .stepForward⟩) (by decide +kernel)
  obtain ⟨-, hplaying, -⟩ := run_played_out .standard .empty samplePair
    [⟨none, .stepForward⟩, ⟨none, .togglePlay⟩]
  obtain ⟨⟨t', step', hout'⟩, hsame'⟩ := hplaying hp'
  obtain ⟨-, rfl, -⟩ := hsame' _ t' step' hout'
  have hleft : s.player.actions.length - s.player.progress = 3 := by decide +kernel
  have hleft' : s'.player.actions.length - s'.player.progress + 1 = 3 := by decide +kernel
  exact ⟨hp, hp', ⟨t, step, hleft ▸ hout, hcalls⟩, ⟨_, step', hleft' ▸ hout', by decide +kernel⟩,
    hsteps.trans hturns⟩

end CubeTrainer
