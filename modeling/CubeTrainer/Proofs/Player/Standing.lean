import CubeTrainer.Proofs.Player.Moves
import Mathlib.GroupTheory.Perm.List

/-!
# Where the cube stands

A player counts the twists that have been turned, and the cube is to stand where undoing the others
leads from the solved state. `Player.standing` is that state. A restart brings a cube there whatever
was before, and every other move keeps it there.
-/

namespace CubeTrainer

variable {σ : Type} {cube : Cube σ} {base : Strip → σ}

def Cube.turnAll (cube : Cube σ) (s : σ) (ts : List Twist) : σ :=
  cube.respondAll s (ts.map fun t => .turn t false)

namespace Cube

theorem turnAll_append (s : σ) (ts us : List Twist) :
    cube.turnAll s (ts ++ us) = cube.turnAll (cube.turnAll s ts) us := by
  rw [turnAll, List.map_append, respondAll_append]
  rfl

theorem turnAll_concat (s : σ) (ts : List Twist) (t : Twist) :
    cube.turnAll s (ts ++ [t]) = cube.turn t false (cube.turnAll s ts) :=
  turnAll_append s ts [t]

theorem Lawful.turn_of_inverse (h : cube.Lawful base) (t : Twist) (a : Bool) (s : σ) :
    cube.turn t a (cube.turn t.inverse false s) = s := by
  have hundo := h.turn_inverse t.inverse false s
  rw [Twist.inverse_inverse] at hundo
  rw [h.turn_animated t a false]
  exact hundo

end Cube

namespace Player

variable {p : Player}

/-- Where the progress of `p` says that the cube is: at `base`, with the twists undone that have not
been turned. -/
def standing (cube : Cube σ) (base : Strip → σ) (p : Player) : σ :=
  cube.turnAll (base p.strip) (invert (p.actions.drop p.progress))

theorem standing_of_finished (h : p.finished = true) : p.standing cube base = base p.strip := by
  rw [standing, finished_iff.1 h, List.drop_length]
  rfl

theorem standing_of_start (h : p.progress = 0) :
    p.standing cube base = cube.turnAll (base p.strip) (invert p.actions) := by
  rw [standing, h, List.drop_zero]

theorem standing_of_lt (h : p.progress < p.actions.length) :
    p.standing cube base = cube.turn p.actions[p.progress].inverse false
      (standing cube base { p with progress := p.progress + 1 }) := by
  rw [standing, List.drop_eq_getElem_cons h, invert_cons, Cube.turnAll_concat]
  rfl

theorem respondAll_setPlaying (hc : cube.Lawful base) (b : Bool) (s : σ) :
    cube.respondAll s (p.setPlaying b).calls = s := by
  rw [calls_setPlaying]
  split
  · rfl
  · exact hc.setInteractive _ s

theorem respondAll_startCalls (hc : cube.Lawful base) (p : Player) (s : σ) :
    cube.respondAll s p.restarted.startCalls = p.restarted.standing cube base := by
  have hstart : p.restarted.progress = 0 := rfl
  rw [standing_of_start hstart]
  show cube.turnAll (cube.reset p.strip (cube.finish s)) (invert p.restarted.actions) = _
  rw [hc.reset]
  rfl

theorem Restarts.respondAll_standing (hc : cube.Lawful base) {q : Player} {step : Step}
    (h : Restarts p q step) (s : σ) :
    cube.respondAll s step.calls = step.player.standing cube base := by
  rw [h.calls, h.player, Cube.respondAll_append, respondAll_startCalls hc]

/-- A cube that stands in its place does so after every move. -/
theorem Move.respondAll_standing (hc : cube.Lawful base) {c : Command} {step : Step}
    (hm : p.Move c step) :
    cube.respondAll (p.standing cube base) step.calls = step.player.standing cube base := by
  cases hm with
  | stay => rfl
  | blink =>
    show cube.setInteractive true (cube.setInteractive false _) = _
    rw [hc.setInteractive, hc.setInteractive]
    rfl
  | pause => exact hc.setInteractive _ _
  | forward playing _ hlt =>
    show cube.respondAll _ (_ ++ _) = _
    rw [Cube.respondAll_append, respondAll_setPlaying hc, standing_of_lt hlt]
    exact hc.turn_of_inverse _ _ _
  | backward hpos hlt =>
    have hback := @standing_of_lt _ cube base
      { p with progress := p.progress - 1, playing := false } hlt
    simp only [Nat.sub_add_cancel hpos] at hback
    show cube.respondAll _ (_ ++ _) = _
    rw [Cube.respondAll_append, respondAll_setPlaying hc]
    exact (hc.turn_animated _ _ _ _).trans hback.symm
  | load => exact (restarts_load p).respondAll_standing hc _
  | edit e text _ he => exact (restarts_edit he text).respondAll_standing hc _
  | select q _ hq => exact (restarts_select hq).respondAll_standing hc _

theorem performAll_standing (hc : cube.Lawful base) (cs : List Command) (p : Player)
    (hp : p.progress ≤ p.actions.length) :
    cube.respondAll (p.standing cube base) (performAll cs p).calls =
      (performAll cs p).player.standing cube base := by
  have hrun := performAll_keeps cube
    (I := fun p s => p.progress ≤ p.actions.length ∧ s = p.standing cube base)
    (fun p c s ⟨hp, hs⟩ => by
      have hm := perform_move hp c
      rw [hs]
      exact ⟨hm.progress_le hp, hm.respondAll_standing hc⟩)
    cs p _ ⟨hp, rfl⟩
  exact hrun.2

end Player

/-! ### Cubes of pieces -/

variable {α : Type}

/-- How a twist moves the pieces if a quarter turn of a layer moves them by `g`. -/
def Twist.perm (g : String → Equiv.Perm α) (t : Twist) : Equiv.Perm α :=
  if t.reverse then (g t.layer ^ t.times)⁻¹ else g t.layer ^ t.times

theorem Twist.perm_inverse (g : String → Equiv.Perm α) (t : Twist) :
    t.inverse.perm g = (t.perm g)⁻¹ := by
  cases h : t.reverse <;> simp [perm, h]

/-- A cube that knows its strip and where its pieces are. -/
def Cube.ofPerm (g : String → Equiv.Perm α) : Cube (Strip × Equiv.Perm α) where
  reset strip _ := (strip, 1)
  turn t _ s := (s.1, t.perm g * s.2)

theorem Cube.lawful_ofPerm (g : String → Equiv.Perm α) :
    (ofPerm g).Lawful fun strip => (strip, 1) where
  turn_animated _ _ _ _ := rfl
  turn_inverse t a s := by
    obtain ⟨strip, x⟩ := s
    simp [ofPerm, Twist.perm_inverse]
  reset _ _ := rfl
  finish _ := rfl
  setInteractive _ _ := rfl

/-! ### Runs -/

/-- After every run, with whatever writes refused, the cube stands where the progress says: past the
solved state by the undone rest of the algorithm, so solved when all is turned and at the start
state when nothing is. -/
theorem run_standing (hc : cube.Lawful base) (config : Config) (store : Store) (catalog : Catalog)
    (rs : List Session.Request) (s₀ : σ) :
    let p := (Session.run config store catalog rs).1.player
    let s := cube.respondAll s₀ (Session.run config store catalog rs).2
    s = cube.turnAll (base p.strip) (invert (p.actions.drop p.progress)) ∧
      (p.finished = true → s = base p.strip) ∧
      (p.progress = 0 → s = cube.turnAll (base p.strip) (invert p.actions)) := by
  intro p s
  have hs : s = p.standing cube base := by
    show cube.respondAll s₀ (Session.run config store catalog rs).2 =
      (Session.run config store catalog rs).1.player.standing cube base
    rw [Session.run_calls, Session.run_player]
    obtain ⟨q, hq, -⟩ := Player.openStored_player config store catalog
    have hopen : cube.respondAll s₀ q.load.calls = q.load.player.standing cube base :=
      (Player.restarts_load q).respondAll_standing hc s₀
    rw [Player.run, hq, Step.calls_andThen, Step.player_andThen, Cube.respondAll_append, hopen,
      Player.player_load]
    exact Player.performAll_standing hc _ _ (Nat.zero_le _)
  exact ⟨hs, fun hf => hs.trans (Player.standing_of_finished hf),
    fun h0 => hs.trans (Player.standing_of_start h0)⟩

/-- Two algorithms of one group, the first with four twists. -/
def samplePair : Catalog where
  groups := [⟨"PLL", SortedMap.empty.insert "D" [0, 1],
    [.ofAuthored "A" "R U R' U'", .ofAuthored "B" "(R2 U)2"]⟩]
  nodup_names := by decide

/-- Two layers that share two of six pieces. -/
def sampleLayers (layer : String) : Equiv.Perm (Fin 6) :=
  if layer = "R" then List.formPerm [0, 1, 2, 3]
  else if layer = "U" then List.formPerm [2, 3, 4, 5]
  else 1

theorem run_standing_refused_edit :
    (Cube.ofPerm sampleLayers).Lawful (fun strip => (strip, 1)) ∧
      (Cube.ofPerm sampleLayers).respondAll (SortedMap.empty, 1)
          (Session.run .standard .empty samplePair
            [⟨none, .togglePlay⟩, ⟨none, .onIdle⟩, ⟨some .unavailable, .edit "R U2'"⟩,
              ⟨none, .stepForward⟩]).2 =
        (Cube.ofPerm sampleLayers).turnAll (SortedMap.empty.insert "D" [0, 1], 1)
          [⟨"U", false, 2⟩] := by
  have hrun := run_standing (Cube.lawful_ofPerm sampleLayers) .standard .empty samplePair
    [⟨none, .togglePlay⟩, ⟨none, .onIdle⟩, ⟨some .unavailable, .edit "R U2'"⟩,
      ⟨none, .stepForward⟩] (SortedMap.empty, 1)
  refine ⟨Cube.lawful_ofPerm sampleLayers, hrun.1.trans ?_⟩
  refine congrArg₂ (fun strip ts => (Cube.ofPerm sampleLayers).turnAll (strip, 1) ts) ?_ ?_
  · decide +kernel
  · decide +kernel

end CubeTrainer
