import CubeTrainer.Proofs.Player.Consistency
import CubeTrainer.Proofs.Player.Standing

/-!
# Turns in flight

An animated turn takes its time, and the host tells the player when one has ended. The player does
not count them, so what it makes of such a report is compared with the turns that are in flight
according to all that was said (`inFlight`). While it plays it answers each report with a turn, so
their number stays what it was after the start (`Move.count_of_playing`). Hence some turn is in
flight as long as it plays, and it cannot come to a halt (`playing_in_flight`).
-/

namespace CubeTrainer

open Player (Command)

/-! ### Messages -/

/-- What passes between a player and its host: commands one way, calls of the cube the other. -/
inductive Message where
  | command (c : Command)
  | call (call : Call)
deriving DecidableEq

namespace Message

def call? : Message → Option Call
  | .command _ => none
  | .call told => some told

theorem filterMap_call? (calls : List Call) : (calls.map call).filterMap call? = calls := by
  simp [List.filterMap_map, Function.comp_def, call?]

def startsTurn : Message → Bool
  | .call (.turn _ animated) => animated
  | _ => false

/-- The animated turns since all were last finished at once, less the reports since then that a turn
has ended. -/
def inFlight (log : List Message) : Int :=
  let recent := log.reverse.takeWhile (· ≠ .call .finish)
  recent.countP startsTurn - recent.count (.command .onIdle)

/-- The number of turns in flight after a message, if it was `n` before. -/
def count (n : Int) : Message → Int
  | .command c => if c = .onIdle then n - 1 else n
  | .call .finish => 0
  | .call (.turn _ animated) => if animated then n + 1 else n
  | .call _ => n

theorem inFlight_concat (log : List Message) (m : Message) :
    inFlight (log ++ [m]) = count (inFlight log) m := by
  cases m with
  | command c =>
    by_cases hc : c = .onIdle
    · simp [inFlight, count, startsTurn, hc]
      omega
    · simp [inFlight, count, startsTurn, hc]
  | call call =>
    cases call with
    | finish => simp [inFlight, count]
    | reset | interactive => simp [inFlight, count, startsTurn]
    | turn t animated =>
      cases animated with
      | false => simp [inFlight, count, startsTurn]
      | true =>
        simp [inFlight, count, startsTurn, List.countP_cons]
        omega

/-- The number of turns in flight after some messages, if it was `n` before. -/
def countFrom (n : Int) (ms : List Message) : Int := ms.foldl count n

theorem inFlight_append (log ms : List Message) :
    inFlight (log ++ ms) = countFrom (inFlight log) ms := by
  induction ms generalizing log with
  | nil => rw [List.append_nil, countFrom, List.foldl_nil]
  | cons m ms ih =>
    rw [List.append_cons, ih, inFlight_concat]
    rfl

end Message

open Message (inFlight countFrom)

/-! ### Steps -/

def Step.messages (step : Step) (c : Command) : List Message :=
  .command c :: step.calls.map .call

namespace Player

variable {p : Player} {c : Command} {step : Step}

def countCalls (n : Int) (calls : List Call) : Int := countFrom n (calls.map .call)

theorem countCalls_append (n : Int) (calls calls' : List Call) :
    countCalls n (calls ++ calls') = countCalls (countCalls n calls) calls' := by
  simp [countCalls, countFrom]

theorem countCalls_setPlaying (n : Int) (b : Bool) (p : Player) :
    countCalls n (p.setPlaying b).calls = n := by
  rw [calls_setPlaying]
  split <;> rfl

theorem countCalls_startCalls (n : Int) (p : Player) : countCalls n p.startCalls = 0 := by
  have hstill (ts : List Twist) : countCalls 0 (ts.map fun t => .turn t false) = 0 := by
    induction ts with
    | nil => rfl
    | cons t ts ih => exact ih
  exact hstill (invert p.actions)

theorem countFrom_messages (n : Int) (c : Command) (step : Step) :
    countFrom n (step.messages c) =
      countCalls (if c = .onIdle then n - 1 else n) step.calls := rfl

theorem Restarts.count_eq_zero {q : Player} (h : Restarts p q step) (c : Command) (n : Int) :
    countFrom n (step.messages c) = 0 := by
  rw [countFrom_messages, h.calls, countCalls_append, countCalls_startCalls]

/-- A player plays after a step if it did before and nothing is done, or if it turns the next twist
on its own. -/
theorem Move.of_playing (hm : p.Move c step) (h : step.player.playing = true) :
    (c ≠ .onIdle ∧ p.playing = true ∧ step.calls = []) ∨
      (c = .togglePlay ∧ p.playing = false ∨ c = .onIdle ∧ p.playing = true) ∧
        ∃ t, step.calls = (p.setPlaying true).calls ++ [.turn t true] := by
  cases hm with
  | stay hc => exact .inl ⟨fun he => Bool.eq_false_iff.1 (hc he) h, h, rfl⟩
  | blink _ hp => exact absurd h (Bool.eq_false_iff.1 hp)
  | pause | backward => exact absurd h Bool.false_ne_true
  | forward playing hc hlt =>
    obtain rfl : playing = true := h
    refine .inr ⟨?_, _, rfl⟩
    rcases hc with ⟨-, hmanual⟩ | ⟨hc, hp, -⟩ | ⟨hc, hp, -⟩
    · exact absurd hmanual.symm Bool.false_ne_true
    · exact .inl ⟨hc, hp⟩
    · exact .inr ⟨hc, hp⟩
  | load => exact absurd h (Bool.eq_false_iff.1 (restarts_load p).playing)
  | edit e text _ he => exact absurd h (Bool.eq_false_iff.1 (restarts_edit he text).playing)
  | select q _ hq => exact absurd h (Bool.eq_false_iff.1 (restarts_select hq).playing)

/-- A player that plays has answered a report with a turn, or has started with one. -/
theorem Move.count_of_playing (hm : p.Move c step) (h : step.player.playing = true) (n : Int) :
    countFrom n (step.messages c) = if p.playing = true then n else n + 1 := by
  rw [countFrom_messages]
  rcases hm.of_playing h with ⟨hc, hp, hcalls⟩ | ⟨hc, t, hcalls⟩
  · rw [hcalls, if_neg hc, if_pos hp]
    rfl
  · rw [hcalls, countCalls_append, countCalls_setPlaying]
    rcases hc with ⟨rfl, hp⟩ | ⟨rfl, hp⟩
    · rw [hp]
      rfl
    -- the report takes one turn off, and the turn it is answered with makes up for it
    · rw [if_pos rfl, if_pos hp]
      exact Int.sub_add_cancel n 1

theorem Move.count_of_not_playing (hm : p.Move c step) (h : step.player.playing = false) (n : Int) :
    countFrom n (step.messages c) = 0 ∨
      countFrom n (step.messages c) = n + 1 ∨
      countFrom n (step.messages c) = if c = .onIdle then n - 1 else n := by
  cases hm with
  | stay | blink | pause => exact .inr (.inr rfl)
  | forward playing hc hlt =>
    obtain rfl : playing = false := h
    rcases hc with ⟨rfl, -⟩ | ⟨-, -, hauto⟩ | ⟨-, -, hauto⟩
    · right; left
      rw [countFrom_messages]
      show countCalls _ (_ ++ [.turn _ true]) = _
      rw [countCalls_append, countCalls_setPlaying]
      rfl
    · exact absurd hauto Bool.false_ne_true
    · exact absurd hauto Bool.false_ne_true
  | backward =>
    right; left
    rw [countFrom_messages]
    show countCalls _ (_ ++ [.turn _ true]) = _
    rw [countCalls_append, countCalls_setPlaying]
    rfl
  | load => exact .inl ((restarts_load p).count_eq_zero c n)
  | edit e text _ he => exact .inl ((restarts_edit he text).count_eq_zero c n)
  | select q _ hq => exact .inl ((restarts_select hq).count_eq_zero c n)

/-- A host whose report is of a turn in flight keeps their number from falling below zero, and above
zero while the player plays. -/
theorem Move.count_bounds (hm : p.Move c step) {n : Int} (hn : 0 ≤ n)
    (hplay : p.playing = true → 0 < n) (hreport : c = .onIdle → 0 < n) :
    0 ≤ countFrom n (step.messages c) ∧
      (step.player.playing = true → 0 < countFrom n (step.messages c)) := by
  cases h : step.player.playing with
  | true =>
    have hpos : 0 < countFrom n (step.messages c) := by
      rw [hm.count_of_playing h]
      split
      · rename_i hp
        exact hplay hp
      · omega
    exact ⟨Int.le_of_lt hpos, fun _ => hpos⟩
  | false =>
    refine ⟨?_, nofun⟩
    rcases hm.count_of_not_playing h n with hzero | hturn | hnone
    · omega
    · omega
    · rw [hnone]
      split
      · rename_i hc
        have := hreport hc
        omega
      · exact hn

/-- All that passes between a player and its host when it is given commands. -/
def messages : List Command → Player → List Message
  | [], _ => []
  | c :: cs, p => (p.perform c).messages c ++ messages cs (p.perform c).player

theorem messages_append (cs cs' : List Command) (p : Player) :
    messages (cs ++ cs') p = messages cs p ++ messages cs' (performAll cs p).player := by
  induction cs generalizing p with
  | nil => rfl
  | cons c cs ih =>
    rw [List.cons_append, messages, ih, messages, List.append_assoc]
    rfl

theorem calls_messages (cs : List Command) (p : Player) :
    (messages cs p).filterMap Message.call? = (performAll cs p).calls := by
  induction cs generalizing p with
  | nil => rfl
  | cons c cs ih =>
    have hstep : ((p.perform c).messages c).filterMap Message.call? = (p.perform c).calls :=
      Message.filterMap_call? (p.perform c).calls
    rw [messages, List.filterMap_append, ih, hstep]
    rfl

end Player

/-! ### Runs -/

namespace Session

variable {config : Config} {store : Store} {catalog : Catalog} {rs : List Request} {r : Request}

/-- All that has passed between the player and its host since the catalog was opened. -/
def messages (config : Config) (store : Store) (catalog : Catalog) (rs : List Request) :
    List Message :=
  let opened := start config store catalog
  opened.2.map .call ++ opened.1.player.messages (rs.map Request.command)

/-- The host reports that a turn has ended only where one is in flight. -/
def Truthful (config : Config) (store : Store) (catalog : Catalog) (rs : List Request) : Prop :=
  ∀ i (h : i < rs.length), rs[i].command = .onIdle →
    0 < inFlight (messages config store catalog (rs.take i))

instance (config : Config) (store : Store) (catalog : Catalog) (rs : List Request) :
    Decidable (Truthful config store catalog rs) :=
  inferInstanceAs (Decidable (∀ i (h : i < rs.length), rs[i].command = .onIdle →
    0 < inFlight (messages config store catalog (rs.take i))))

/-- The calls among the messages are those that the cube is told. -/
theorem calls_messages (config : Config) (store : Store) (catalog : Catalog) (rs : List Request) :
    (messages config store catalog rs).filterMap Message.call? =
      (run config store catalog rs).2 := by
  rw [messages, List.filterMap_append, Message.filterMap_call?, Player.calls_messages, run_calls]
  rfl

theorem messages_concat (config : Config) (store : Store) (catalog : Catalog) (rs : List Request)
    (r : Request) :
    messages config store catalog (rs ++ [r]) = messages config store catalog rs ++
      ((run config store catalog rs).1.player.perform r.command).messages r.command := by
  have hp : (run config store catalog rs).1.player = (Player.performAll (rs.map Request.command)
      (start config store catalog).1.player).player := run_player config store catalog rs
  rw [hp, messages, List.map_append, Player.messages_append, messages, List.append_assoc]
  simp only [List.map_cons, List.map_nil, Player.messages, List.append_nil]

theorem inFlight_concat (config : Config) (store : Store) (catalog : Catalog) (rs : List Request)
    (r : Request) :
    inFlight (messages config store catalog (rs ++ [r])) =
      countFrom (inFlight (messages config store catalog rs))
        (((run config store catalog rs).1.player.perform r.command).messages r.command) := by
  rw [messages_concat, Message.inFlight_append]

theorem inFlight_start (config : Config) (store : Store) (catalog : Catalog) :
    inFlight (messages config store catalog []) = 0 := by
  obtain ⟨q, hload, -⟩ := Player.openStored_player config store catalog
  have hmessages : messages config store catalog [] = q.load.calls.map .call := by
    rw [← hload]
    exact List.append_nil _
  have hcount : inFlight (q.load.calls.map .call) = Player.countCalls 0 q.load.calls :=
    Message.inFlight_append [] _
  rw [hmessages, hcount, Player.calls_load, Player.countCalls_append,
    Player.countCalls_startCalls]

theorem truthful_concat_iff :
    Truthful config store catalog (rs ++ [r]) ↔ Truthful config store catalog rs ∧
      (r.command = .onIdle → 0 < inFlight (messages config store catalog rs)) := by
  constructor
  · intro h
    refine ⟨fun i hi hreport => ?_, fun hreport => ?_⟩
    · have hlt : i < (rs ++ [r]).length := by simp; omega
      have hbefore := h i hlt (by rwa [List.getElem_append_left hi])
      rwa [List.take_append_of_le_length (Nat.le_of_lt hi)] at hbefore
    · have hbefore := h rs.length (by simp) (by simpa using hreport)
      rwa [List.take_left] at hbefore
  · rintro ⟨h, hlast⟩ i hi hreport
    by_cases hlt : i < rs.length
    · rw [List.getElem_append_left hlt] at hreport
      rw [List.take_append_of_le_length (Nat.le_of_lt hlt)]
      exact h i hlt hreport
    · have hend : i = rs.length := by simp at hi; omega
      subst hend
      rw [List.take_left]
      exact hlast (by simpa using hreport)

theorem inFlight_bounds (h : Truthful config store catalog rs) :
    0 ≤ inFlight (messages config store catalog rs) ∧
      ((run config store catalog rs).1.player.playing = true →
        0 < inFlight (messages config store catalog rs)) := by
  induction rs using List.reverseRecOn with
  | nil =>
    rw [inFlight_start, playing_start]
    exact ⟨Int.le_refl 0, nofun⟩
  | append_singleton rs r ih =>
    obtain ⟨hrs, hreport⟩ := truthful_concat_iff.1 h
    obtain ⟨hn, hplay⟩ := ih hrs
    rw [inFlight_concat, player_run_concat]
    exact (move_run config store catalog rs r.command).count_bounds hn hplay hreport

theorem onIdle_cases (hplay : (run config store catalog rs).1.player.playing = true) :
    let p := (run config store catalog rs).1.player
    p.finished = false ∧ p.onIdle.player = { p with progress := p.progress + 1 } ∨
      p.finished = true ∧ p.onIdle = .tell { p with playing := false } [.interactive true] := by
  intro p
  cases hf : p.finished with
  | true => exact .inr ⟨rfl, Player.onIdle_of_finished hplay hf⟩
  | false =>
    have hle : p.progress ≤ p.actions.length :=
      (consistent_run config store catalog rs).progress_le
    have hlt := Player.lt_of_not_finished hle (Bool.eq_false_iff.1 hf)
    exact .inl ⟨rfl, by rw [Player.onIdle_of_lt hplay hlt]; rfl⟩

end Session

/-- Whatever a user does while turns end, as long as the player plays some turn is in flight. Its
end is still to be reported, and then the next twist is turned, or the playing ends because none is
left. -/
theorem playing_in_flight (config : Config) (store : Store) (catalog : Catalog)
    {rs : List Session.Request} (h : Session.Truthful config store catalog rs)
    (hplay : (Session.run config store catalog rs).1.player.playing = true) :
    0 < inFlight (Session.messages config store catalog rs) ∧
      ∀ refusal, let reported := rs ++ [⟨refusal, .onIdle⟩]
        let p := (Session.run config store catalog rs).1.player
        let q := (Session.run config store catalog reported).1.player
        Session.Truthful config store catalog reported ∧
          (q.playing = true ∧ q.progress = p.progress + 1 ∨
            q.playing = false ∧ p.progress = p.actions.length) := by
  have hpos := (Session.inFlight_bounds h).2 hplay
  refine ⟨hpos, fun refusal => ?_⟩
  intro reported p q
  have hq : q = p.onIdle.player := Session.player_run_concat config store catalog rs _
  refine ⟨Session.truthful_concat_iff.2 ⟨h, fun _ => hpos⟩, ?_⟩
  rcases Session.onIdle_cases hplay with ⟨-, hturn⟩ | ⟨hf, hend⟩
  · left
    rw [hq, hturn]
    exact ⟨hplay, rfl⟩
  · right
    rw [hq, hend]
    exact ⟨rfl, Player.finished_iff.1 hf⟩

/-- A pause and a step by hand while a turn is in flight. -/
def samplePause : List Session.Request :=
  [⟨none, .togglePlay⟩, ⟨none, .togglePlay⟩, ⟨none, .stepForward⟩, ⟨none, .togglePlay⟩,
    ⟨none, .onIdle⟩]

theorem playing_in_flight_resumed :
    Session.Truthful .standard .empty samplePair samplePause ∧
      (Session.run .standard .empty samplePair samplePause).1.player.playing = true ∧
      0 < inFlight (Session.messages .standard .empty samplePair samplePause) := by
  have h : Session.Truthful .standard .empty samplePair samplePause := by decide +kernel
  have hplay : (Session.run .standard .empty samplePair samplePause).1.player.playing = true := by
    decide +kernel
  exact ⟨h, hplay, (playing_in_flight .standard .empty samplePair h hplay).1⟩

end CubeTrainer
