import CubeTrainer.Proofs.Player.Flight

/-!
# The end of playing

A player that plays takes each report for the end of the turn that it began last, although a turn
may have been in flight already when it was started. So the report on which it comes to the end
leaves as many turns in flight as there were then (`ended_in_flight`), and not always none
(`ended_with_turn_in_flight`).
-/

namespace CubeTrainer

open Message (inFlight countFrom)

namespace Player

variable {p : Player} {c : Command} {step : Step}

theorem Move.eq_togglePlay (hm : p.Move c step) (hp : p.playing = false)
    (h : step.player.playing = true) : c = .togglePlay := by
  rcases hm.of_playing h with ⟨-, hplay, -⟩ | ⟨⟨hc, -⟩ | ⟨-, hplay⟩, -⟩
  · exact absurd hplay (Bool.eq_false_iff.1 hp)
  · exact hc
  · exact absurd hplay (Bool.eq_false_iff.1 hp)

end Player

/-! ### Stretches of playing -/

namespace Session

variable {config : Config} {store : Store} {catalog : Catalog} {rs : List Request} {r : Request}

/-- The playing that goes on at the end of a run was started by its request number `k`. -/
structure StartedAt (config : Config) (store : Store) (catalog : Catalog) (rs : List Request)
    (k : Nat) : Prop where
  command : ∃ h : k < rs.length, rs[k].command = .togglePlay
  paused : (run config store catalog (rs.take k)).1.player.playing = false
  playing : ∀ i, k < i → i ≤ rs.length →
    (run config store catalog (rs.take i)).1.player.playing = true

theorem playing_take_concat
    (hplay : (run config store catalog (rs ++ [r])).1.player.playing = true) {i : Nat}
    (hlt : rs.length < i) (hle : i ≤ (rs ++ [r]).length) :
    (run config store catalog ((rs ++ [r]).take i)).1.player.playing = true := by
  have hi : i = (rs ++ [r]).length := by
    rw [List.length_append, List.length_singleton] at hle ⊢
    omega
  rw [hi, List.take_length]
  exact hplay

theorem StartedAt.concat {k : Nat} (h : StartedAt config store catalog rs k)
    (hplay : (run config store catalog (rs ++ [r])).1.player.playing = true) :
    StartedAt config store catalog (rs ++ [r]) k := by
  obtain ⟨hk, hcommand⟩ := h.command
  have htake {i : Nat} (hi : i ≤ rs.length) : (rs ++ [r]).take i = rs.take i :=
    List.take_append_of_le_length hi
  refine ⟨⟨?_, ?_⟩, ?_, fun i hki hi => ?_⟩
  · rw [List.length_append]
    exact Nat.lt_add_right _ hk
  · rw [List.getElem_append_left hk]
    exact hcommand
  · rw [htake (Nat.le_of_lt hk)]
    exact h.paused
  · by_cases hle : i ≤ rs.length
    · rw [htake hle]
      exact h.playing i hki hle
    · exact playing_take_concat hplay (Nat.lt_of_not_le hle) hi

theorem startedAt_length (hpaused : (run config store catalog rs).1.player.playing = false)
    (hplay : (run config store catalog (rs ++ [r])).1.player.playing = true) :
    StartedAt config store catalog (rs ++ [r]) rs.length := by
  have hm := move_run config store catalog rs r.command
  refine ⟨⟨by simp, ?_⟩, ?_, fun i hki hi => playing_take_concat hplay hki hi⟩
  · rw [player_run_concat] at hplay
    rw [List.getElem_concat_length rfl]
    exact hm.eq_togglePlay hpaused hplay
  · rw [List.take_left]
    exact hpaused

/-- While the player plays, one turn more is in flight than when the playing was started. -/
theorem exists_startedAt (hplay : (run config store catalog rs).1.player.playing = true) :
    ∃ k, StartedAt config store catalog rs k ∧
      inFlight (messages config store catalog rs) =
        inFlight (messages config store catalog (rs.take k)) + 1 := by
  -- on the requests: playing that goes on keeps its start and the number, and playing that was not
  -- on before the last request is started by it
  induction rs using List.reverseRecOn with
  | nil => exact absurd hplay (Bool.eq_false_iff.1 (playing_start config store catalog))
  | append_singleton rs r ih =>
    have hm := move_run config store catalog rs r.command
    have hcount := hm.count_of_playing (player_run_concat config store catalog rs r ▸ hplay)
      (inFlight (messages config store catalog rs))
    rw [inFlight_concat, hcount]
    cases hbefore : (run config store catalog rs).1.player.playing with
    | true =>
      obtain ⟨k, hstarted, hsame⟩ := ih hbefore
      obtain ⟨hk, -⟩ := hstarted.command
      refine ⟨k, hstarted.concat hplay, ?_⟩
      rw [if_pos rfl, List.take_append_of_le_length (Nat.le_of_lt hk)]
      exact hsame
    | false =>
      refine ⟨rs.length, startedAt_length hbefore hplay, ?_⟩
      rw [if_neg Bool.false_ne_true, List.take_left]

end Session

/-- When a report ends the playing, all twists are turned, the user may turn layers again, and the
turns that are left in flight are as many as there were when the playing was started. So none is
left if and only if it was started with none in flight. -/
theorem ended_in_flight (config : Config) (store : Store) (catalog : Catalog)
    {rs : List Session.Request} {refusal : Option StoreError}
    (hplay : (Session.run config store catalog rs).1.player.playing = true)
    (hend : (Session.run config store catalog (rs ++ [⟨refusal, .onIdle⟩])).1.player.playing =
      false) :
    let p := (Session.run config store catalog rs).1.player
    p.progress = p.actions.length ∧ (p.perform .onIdle).calls = [.interactive true] ∧
      ∃ k, Session.StartedAt config store catalog rs k ∧
        inFlight (Session.messages config store catalog (rs ++ [⟨refusal, .onIdle⟩])) =
          inFlight (Session.messages config store catalog (rs.take k)) := by
  intro p
  have hp : p.onIdle.player.playing = false := by
    rw [Session.player_run_concat] at hend
    exact hend
  rcases Session.onIdle_cases hplay with ⟨-, hturn⟩ | ⟨hf, hcalls⟩
  · rw [hturn] at hp
    exact absurd hplay (Bool.eq_false_iff.1 hp)
  · obtain ⟨k, hstarted, hcount⟩ := Session.exists_startedAt hplay
    refine ⟨Player.finished_iff.1 hf, congrArg Step.calls hcalls, k, hstarted, ?_⟩
    rw [Session.inFlight_concat, hcount]
    show countFrom _ (p.onIdle.messages .onIdle) = _
    rw [hcalls]
    exact Int.add_sub_cancel _ 1

/-- A step by hand whose turn is in flight when the playing starts, and reports up to the end. -/
def sampleHurry : List Session.Request :=
  [⟨none, .stepForward⟩, ⟨none, .togglePlay⟩, ⟨none, .onIdle⟩, ⟨none, .onIdle⟩]

theorem ended_in_flight_hurried :
    (Session.run .standard .empty samplePair sampleHurry).1.player.playing = true ∧
      (Session.run .standard .empty samplePair (sampleHurry ++ [⟨none, .onIdle⟩])).1.player.playing =
        false ∧
      inFlight (Session.messages .standard .empty samplePair (sampleHurry ++ [⟨none, .onIdle⟩])) =
        1 := by
  have hplay : (Session.run .standard .empty samplePair sampleHurry).1.player.playing = true := by
    decide +kernel
  have hend : (Session.run .standard .empty samplePair
      (sampleHurry ++ [⟨none, .onIdle⟩])).1.player.playing = false := by decide +kernel
  obtain ⟨-, -, k, ⟨⟨hk, hstart⟩, -, -⟩, hcount⟩ :=
    ended_in_flight .standard .empty samplePair hplay hend
  have honly : ∀ i (hi : i < sampleHurry.length), sampleHurry[i].command = .togglePlay → i = 1 := by
    decide
  obtain rfl : k = 1 := honly k hk hstart
  exact ⟨hplay, hend, hcount.trans (by decide +kernel)⟩

/-- The playing does end while a turn is in flight, where one was when it started. -/
theorem ended_with_turn_in_flight :
    ¬ ∀ (config : Config) (store : Store) (catalog : Catalog) (rs : List Session.Request)
      (refusal : Option StoreError),
      let reported := rs ++ [⟨refusal, .onIdle⟩]
      Session.Truthful config store catalog reported →
        (Session.run config store catalog rs).1.player.playing = true →
        (Session.run config store catalog reported).1.player.playing = false →
        inFlight (Session.messages config store catalog reported) = 0 := by
  intro h
  have hnone := h .standard .empty samplePair sampleHurry none (by decide +kernel)
    (by decide +kernel) (by decide +kernel)
  exact absurd hnone (by decide +kernel)

end CubeTrainer
