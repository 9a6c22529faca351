import CubeTrainer.Proofs.Player.Consistency
import Mathlib.Data.List.Induction

/-!
# Locking manual turns

While a player plays, the user is not to turn layers by hand. What the cube was told about this last
decides (`unlocked`), so it matters when each call is made, also within one step. `Guarded` says of
a list of calls that each is made at a time that suits it. Every step is guarded if it starts with
the lock as the player has it, and leaves the lock as the player has it then (`Move.locks`).
-/

namespace CubeTrainer

open Player (Command)

/-! ### Calls and the lock -/

/-- What a call says about manual turns. -/
def Call.enabled? : Call → Option Bool
  | .interactive enabled => some enabled
  | _ => none

/-- Whether the user may turn layers by hand after these calls, where `free` says whether that was
so before them. -/
def unlockedAfter (free : Bool) (calls : List Call) : Bool :=
  (calls.filterMap Call.enabled?).getLast?.getD free

/-- Whether the user may turn layers by hand after all the calls of a cube: as the last one about it
says, and if there was none, yes. -/
def unlocked (log : List Call) : Bool := unlockedAfter true log

theorem unlockedAfter_cons (free : Bool) (call : Call) (calls : List Call) :
    unlockedAfter free (call :: calls) = unlockedAfter (call.enabled?.getD free) calls := by
  unfold unlockedAfter
  cases h : call.enabled? with
  | none => rw [List.filterMap_cons_none h, Option.getD_none]
  | some enabled =>
    rw [List.filterMap_cons_some h, List.getLast?_cons, Option.getD_some, Option.getD_some]

theorem unlockedAfter_append (free : Bool) (calls calls' : List Call) :
    unlockedAfter free (calls ++ calls') = unlockedAfter (unlockedAfter free calls) calls' := by
  induction calls generalizing free with
  | nil => rfl
  | cons call calls ih => rw [List.cons_append, unlockedAfter_cons, ih, unlockedAfter_cons]

theorem unlocked_append (log calls : List Call) :
    unlocked (log ++ calls) = unlockedAfter (unlocked log) calls :=
  unlockedAfter_append true log calls

/-- Each of the calls is made at a time that suits it. -/
def Guarded (ok : Bool → Call → Prop) : (free : Bool) → List Call → Prop
  | _, [] => True
  | free, call :: calls => ok free call ∧ Guarded ok (call.enabled?.getD free) calls

namespace Guarded

variable {ok ok' : Bool → Call → Prop} {free : Bool} {calls calls' : List Call}

theorem append_iff : Guarded ok free (calls ++ calls') ↔
    Guarded ok free calls ∧ Guarded ok (unlockedAfter free calls) calls' := by
  induction calls generalizing free with
  | nil => exact ⟨fun h => ⟨trivial, h⟩, And.right⟩
  | cons call calls ih =>
    rw [List.cons_append, Guarded, ih, Guarded, unlockedAfter_cons, and_assoc]

theorem mono (hok : ∀ free call, ok free call → ok' free call) (h : Guarded ok free calls) :
    Guarded ok' free calls := by
  induction calls generalizing free with
  | nil => trivial
  | cons call calls ih => exact ⟨hok free call h.1, ih h.2⟩

theorem at_call {before after : List Call} {call : Call} (h : Guarded ok free calls)
    (hcalls : calls = before ++ call :: after) : ok (unlockedAfter free before) call := by
  subst hcalls
  exact (append_iff.1 h).2.1

end Guarded

/-! ### Times for calls -/

/-- The lock is changed to what it is not, and it is open for all but animated turns. -/
def Call.Orderly (free : Bool) : Call → Prop
  | .interactive enabled => enabled = !free
  | .turn _ true => True
  | .turn _ false | .finish | .reset _ => free = true

theorem switches_alternate {free : Bool} {calls : List Call} (h : Guarded Call.Orderly free calls)
    (i : Nat) (hi : i < (calls.filterMap Call.enabled?).length) :
    (calls.filterMap Call.enabled?)[i] = if i % 2 = 0 then !free else free := by
  induction calls generalizing free i with
  | nil => exact absurd hi (Nat.not_lt_zero _)
  | cons call calls ih =>
    obtain ⟨hcall, hcalls⟩ := h
    cases call with
    | finish | reset | turn => exact ih hcalls i hi
    | interactive enabled =>
      obtain rfl : enabled = !free := hcall
      cases i with
      | zero => rfl
      | succ i =>
        have hrest := ih hcalls i (Nat.lt_of_succ_lt_succ hi)
        refine hrest.trans ?_
        rcases Nat.mod_two_eq_zero_or_one i with hi | hi
        · rw [if_pos hi, if_neg (by omega)]
          exact Bool.not_not free
        · rw [if_neg (by omega), if_pos (by omega)]
          rfl

namespace Player

variable {p : Player} {c : Command} {step : Step}

def Command.steps : Command → Bool
  | .stepForward | .stepBackward => true
  | _ => false

def Command.plays : Command → Bool
  | .togglePlay | .onIdle => true
  | _ => false

/-- A call is orderly, and if it is a turn, the lock is as the command has it that it comes from. -/
def Timely (c : Command) (free : Bool) (call : Call) : Prop :=
  call.Orderly free ∧ ∀ t animated, call = .turn t animated →
    (c.plays = true → free = false) ∧ (c.steps = true → free = true)

theorem timely_interactive (c : Command) (free : Bool) : Timely c free (.interactive !free) :=
  ⟨rfl, nofun⟩

theorem guarded_setPlaying {b : Bool} {calls : List Call} (h : Guarded (Timely c) (!b) calls) :
    Guarded (Timely c) (!p.playing) ((p.setPlaying b).calls ++ calls) := by
  rw [calls_setPlaying]
  split
  · rename_i hb
    rw [hb]
    exact h
  · rename_i hb
    obtain rfl : b = !p.playing := Bool.eq_not.2 (Ne.symm hb)
    exact ⟨timely_interactive c _, h⟩

theorem unlockedAfter_setPlaying (b : Bool) (p : Player) :
    unlockedAfter (!p.playing) (p.setPlaying b).calls = !b := by
  rw [calls_setPlaying]
  split
  · rename_i hb
    rw [hb]
    rfl
  · rfl

theorem guarded_startCalls (hc : c.plays = false) (p : Player) :
    Guarded (Timely c) true p.startCalls := by
  have hturns (ts : List Twist) : Guarded (Timely c) true (ts.map fun t => .turn t false) := by
    induction ts with
    | nil => trivial
    | cons t ts ih =>
      refine ⟨⟨rfl, fun _ _ _ => ⟨fun hplays => ?_, fun _ => rfl⟩⟩, ih⟩
      exact absurd hplays (Bool.eq_false_iff.1 hc)
  exact ⟨⟨rfl, nofun⟩, ⟨rfl, nofun⟩, hturns (invert p.actions)⟩

theorem unlockedAfter_startCalls (free : Bool) (p : Player) :
    unlockedAfter free p.startCalls = free := by
  have hturns (ts : List Twist) : unlockedAfter free (ts.map fun t => .turn t false) = free := by
    induction ts with
    | nil => rfl
    | cons t ts ih => exact ih
  exact hturns (invert p.actions)

/-- The calls of a step are made at times that suit them and its command, where the lock was as `p`
has it, and leave the lock as the player has it then. -/
structure Locks (p : Player) (c : Command) (step : Step) : Prop where
  guarded : Guarded (Timely c) (!p.playing) step.calls
  unlocked : unlockedAfter (!p.playing) step.calls = !step.player.playing

theorem Restarts.locks {q : Player} (h : Restarts p q step) (hc : c.plays = false) :
    p.Locks c step where
  guarded := by
    rw [h.calls]
    exact guarded_setPlaying (guarded_startCalls hc _)
  unlocked := by
    rw [h.calls, h.playing, unlockedAfter_append, unlockedAfter_setPlaying,
      unlockedAfter_startCalls]

theorem locks_turn {b : Bool} (hplays : c.plays = b) (hsteps : c.steps = !b) {q : Player}
    (hq : q.playing = b) (t : Twist) :
    p.Locks c (.tell q ((p.setPlaying b).calls ++ [.turn t true])) where
  guarded := by
    refine guarded_setPlaying ⟨⟨trivial, fun _ _ _ => ⟨fun h => ?_, fun h => ?_⟩⟩, trivial⟩
    · rw [← hplays, h]
      rfl
    · rw [← hsteps, h]
  unlocked := by
    show unlockedAfter _ (_ ++ _) = !q.playing
    rw [unlockedAfter_append, unlockedAfter_setPlaying, hq]
    rfl

theorem Move.locks (hm : p.Move c step) : p.Locks c step := by
  cases hm with
  | stay => exact ⟨trivial, rfl⟩
  | blink _ hp =>
    constructor
    · rw [hp]
      exact ⟨timely_interactive _ true, timely_interactive _ false, trivial⟩
    · show true = !p.playing
      rw [hp]
      rfl
  | pause _ hp =>
    constructor
    · rw [hp]
      exact ⟨timely_interactive c false, trivial⟩
    · rfl
  | forward playing hc hlt =>
    rcases hc with ⟨rfl, rfl⟩ | ⟨rfl, -, rfl⟩ | ⟨rfl, -, rfl⟩
    · exact locks_turn rfl rfl rfl _
    · exact locks_turn rfl rfl rfl _
    · exact locks_turn rfl rfl rfl _
  | backward => exact locks_turn rfl rfl rfl _
  | load hc =>
    refine (restarts_load p).locks ?_
    rcases hc with rfl | rfl <;> rfl
  | edit e text hc he =>
    refine (restarts_edit he text).locks ?_
    rcases hc with rfl | ⟨rfl, -⟩ <;> rfl
  | select q hc hq =>
    refine (restarts_select hq).locks ?_
    rcases hc with rfl | ⟨rfl, -⟩ <;> rfl

end Player

/-! ### Runs -/

namespace Session

theorem run_guarded (config : Config) (store : Store) (catalog : Catalog) (rs : List Request) :
    Guarded Call.Orderly true (run config store catalog rs).2 ∧
      unlocked (run config store catalog rs).2 =
        !(run config store catalog rs).1.player.playing := by
  induction rs using List.reverseRecOn with
  | nil =>
    obtain ⟨q, hload, hq⟩ := Player.openStored_player config store catalog
    have hcalls : (run config store catalog []).2 = q.load.calls := by
      rw [← hload]
      exact List.append_nil _
    have hplayer : (run config store catalog []).1.player = q.load.player :=
      congrArg Step.player hload
    obtain ⟨hguarded, hafter⟩ := (Player.restarts_load q).locks (c := .load) rfl
    rw [hq] at hguarded hafter
    rw [hcalls, hplayer]
    exact ⟨hguarded.mono fun _ _ => And.left, hafter⟩
  | append_singleton rs r ih =>
    obtain ⟨hguarded, hunlocked⟩ := ih
    obtain ⟨hcalls, hafter⟩ := (move_run config store catalog rs r.command).locks
    rw [calls_run_concat, player_run_concat, unlocked_append, hunlocked, Guarded.append_iff]
    refine ⟨⟨hguarded, ?_⟩, hafter⟩
    show Guarded _ (unlocked (run config store catalog rs).2) _
    rw [hunlocked]
    exact hcalls.mono fun _ _ => And.left

end Session

/-- After every run, with whatever writes refused: manual turns were locked and unlocked by turns,
locked first, and are unlocked exactly if the player does not play. Whenever the cube was told to
end its turns, to reset, or to turn at once, they were unlocked; and whatever command comes next,
each turn of a step by hand is made while they are unlocked, and each that the player makes on its
own while they are locked. -/
theorem run_locking (config : Config) (store : Store) (catalog : Catalog)
    (rs : List Session.Request) :
    let s := (Session.run config store catalog rs).1
    let log := (Session.run config store catalog rs).2
    let switches := log.filterMap Call.enabled?
    (∀ i (h : i < switches.length), switches[i] = decide (i % 2 = 1)) ∧
      unlocked log = !s.player.playing ∧
      (∀ before call after, log = before ++ call :: after →
        (call = .finish ∨ (∃ strip, call = .reset strip) ∨ ∃ t, call = .turn t false) →
        unlocked before = true) ∧
      ∀ refusal c before t animated after,
        (s.perform refusal c).2.calls = before ++ .turn t animated :: after →
        (c = .togglePlay ∨ c = .onIdle → unlocked (log ++ before) = false) ∧
          (c = .stepForward ∨ c = .stepBackward → unlocked (log ++ before) = true) := by
  intro s log switches
  obtain ⟨hguarded, hunlocked⟩ := Session.run_guarded config store catalog rs
  refine ⟨fun i h => ?_, hunlocked, fun before call after hlog hcall => ?_,
    fun refusal c before t animated after hcalls => ?_⟩
  · have hswitch := switches_alternate hguarded i h
    refine hswitch.trans ?_
    rcases Nat.mod_two_eq_zero_or_one i with hi | hi <;> simp [hi]
  · have horderly := hguarded.at_call hlog
    rcases hcall with rfl | ⟨strip, rfl⟩ | ⟨t, rfl⟩ <;> exact horderly
  · have hlocks := (Session.move_run config store catalog rs c).locks
    rw [Session.step_perform] at hcalls
    have htimely := (hlocks.guarded.at_call hcalls).2 t animated rfl
    rw [unlocked_append, hunlocked]
    refine ⟨fun hc => htimely.1 ?_, fun hc => htimely.2 ?_⟩
    · rcases hc with rfl | rfl <;> rfl
    · rcases hc with rfl | rfl <;> rfl

end CubeTrainer
