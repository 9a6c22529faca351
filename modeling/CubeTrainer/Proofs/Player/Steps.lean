import CubeTrainer.Proofs.Store.Records
import CubeTrainer.Session

/-!
# Steps of a session

What an operation does to the player and which writes it tries come from the player alone: not from
the store, nor from its answer. `perform_congr` shows this one operation at a time, for two sessions
with the same player, so that a command has one step on all stores, `Player.perform`. A session goes
through the steps of its player (`performAll_step`).
-/

namespace CubeTrainer

namespace Session

variable {s s' : Session}

/-! ### Single operations -/

theorem edit_of_none (h : s.player.selected? = none) (refusal : Option StoreError)
    (text : String) : s.edit refusal text = (s, .quiet s.player) := by
  unfold edit
  simp only [h]

theorem edit_of_some {e : Entry} (h : s.player.selected? = some e) (refusal : Option StoreError)
    (text : String) :
    s.edit refusal text =
      let w := s.player.config.overrideWrite e.name text
      let step := Player.reposition { s.player with
        catalog := s.player.catalog.set s.player.position text
        actions := Notation.parse text }
      (⟨step.player, s.store.writeAll (if refusal = none then [w] else [])⟩,
        { step with writes := [w], edited := some s.player.position }) := by
  unfold edit
  simp only [h]
  cases refusal <;> rfl

theorem restoreDefault_of_none (h : s.player.selected? = none) (refusal : Option StoreError) :
    s.restoreDefault refusal = (s, .quiet s.player) := by
  rw [restoreDefault, h]

theorem restoreDefault_of_some {e : Entry} (h : s.player.selected? = some e)
    (refusal : Option StoreError) : s.restoreDefault refusal = s.edit refusal e.authored := by
  rw [restoreDefault, h]

theorem select_of_contains {q : Position} (h : s.player.catalog.contains q = true)
    (refusal : Option StoreError) :
    s.select refusal q =
      let w := s.player.config.positionWrite q
      let step := Player.load { s.player with position := q }
      (⟨step.player, s.store.writeAll (if refusal = none then [w] else [])⟩,
        { step with writes := [w] }) := by
  unfold select
  simp only [h]
  cases refusal <;> rfl

theorem select_of_not_contains {q : Position} (h : ¬ s.player.catalog.contains q = true)
    (refusal : Option StoreError) : s.select refusal q = (s, .quiet s.player) :=
  if_neg h

/-! ### Two sessions -/

theorem edit_congr (h : s.player = s'.player) (f g : Option StoreError) (text : String) :
    (s.edit f text).2 = (s'.edit g text).2 := by
  cases he : s'.player.selected? with
  | none => rw [edit_of_none (h ▸ he), edit_of_none he, h]
  | some e => rw [edit_of_some (h ▸ he), edit_of_some he, h]

theorem restoreDefault_congr (h : s.player = s'.player) (f g : Option StoreError) :
    (s.restoreDefault f).2 = (s'.restoreDefault g).2 := by
  cases he : s'.player.selected? with
  | none => rw [restoreDefault_of_none (h ▸ he), restoreDefault_of_none he, h]
  | some e =>
    rw [restoreDefault_of_some (h ▸ he), restoreDefault_of_some he]
    exact edit_congr h f g e.authored

theorem select_congr (h : s.player = s'.player) (f g : Option StoreError) (q : Position) :
    (s.select f q).2 = (s'.select g q).2 := by
  by_cases hq : s'.player.catalog.contains q = true
  · rw [select_of_contains (h ▸ hq), select_of_contains hq, h]
  · rw [select_of_not_contains (h ▸ hq), select_of_not_contains hq, h]

theorem selectGroup_congr (h : s.player = s'.player) (f g : Option StoreError) (group : Nat) :
    (s.selectGroup f group).2 = (s'.selectGroup g group).2 := by
  unfold selectGroup
  rw [h]
  split
  · exact congrArg Player.load h
  · exact select_congr h f g ⟨group, 0⟩

theorem perform_congr (h : s.player = s'.player) (f g : Option StoreError) (c : Player.Command) :
    (s.perform f c).2 = (s'.perform g c).2 := by
  cases c with
  | load => exact congrArg Player.load h
  | edit text => exact edit_congr h f g text
  | restoreDefault => exact restoreDefault_congr h f g
  | stepForward => exact congrArg Player.stepForward h
  | stepBackward => exact congrArg Player.stepBackward h
  | togglePlay => exact congrArg Player.togglePlay h
  | onIdle => exact congrArg Player.onIdle h
  | select q => exact select_congr h f g q
  | selectGroup group => exact selectGroup_congr h f g group

/-! ### The session after a step -/

theorem player_edit_eq_step (s : Session) (refusal : Option StoreError) (text : String) :
    (s.edit refusal text).1.player = (s.edit refusal text).2.player := by
  cases he : s.player.selected? with
  | none => rw [edit_of_none he, Step.quiet]
  | some e => rw [edit_of_some he]

theorem player_select_eq_step (s : Session) (refusal : Option StoreError) (q : Position) :
    (s.select refusal q).1.player = (s.select refusal q).2.player := by
  by_cases hq : s.player.catalog.contains q = true
  · rw [select_of_contains hq]
  · rw [select_of_not_contains hq, Step.quiet]

/-- A session goes on with the player of the step, also when the write was refused. -/
theorem player_perform_eq_step (s : Session) (refusal : Option StoreError) (c : Player.Command) :
    (s.perform refusal c).1.player = (s.perform refusal c).2.player := by
  cases c with
  | load | stepForward | stepBackward | togglePlay | onIdle => rfl
  | edit text => exact player_edit_eq_step s refusal text
  | restoreDefault =>
    rw [perform]
    cases he : s.player.selected? with
    | none => rw [restoreDefault_of_none he, Step.quiet]
    | some e =>
      rw [restoreDefault_of_some he]
      exact player_edit_eq_step s refusal e.authored
  | select q => exact player_select_eq_step s refusal q
  | selectGroup g =>
    rw [perform, selectGroup]
    split
    · rfl
    · exact player_select_eq_step s refusal ⟨g, 0⟩

end Session

/-! ### Steps of a player -/

namespace Player

variable {p : Player}

/-- The step of a command, on any store. -/
def perform (p : Player) (c : Command) : Step :=
  (Session.perform ⟨p, SortedMap.empty⟩ none c).2

def performAll : List Command → Player → Step
  | [], p => .quiet p
  | c :: cs, p => (p.perform c).andThen (performAll cs)

theorem performAll_append (cs cs' : List Command) (p : Player) :
    p.performAll (cs ++ cs') = (p.performAll cs).andThen (performAll cs') := by
  induction cs generalizing p with
  | nil => simp [performAll]
  | cons c cs ih =>
    rw [List.cons_append, performAll, performAll, Step.andThen_assoc]
    exact congrArg _ (funext ih)

def run (config : Config) (store : Store) (catalog : Catalog) (cs : List Command) : Step :=
  (openStored config store catalog).andThen (performAll cs)

theorem perform_edit_of_none (h : p.selected? = none) (text : String) :
    p.perform (.edit text) = .quiet p :=
  congrArg Prod.snd (Session.edit_of_none (s := ⟨p, SortedMap.empty⟩) h none text)

theorem perform_edit_of_some {e : Entry} (h : p.selected? = some e) (text : String) :
    p.perform (.edit text) =
      { reposition { p with
          catalog := p.catalog.set p.position text
          actions := Notation.parse text } with
        writes := [p.config.overrideWrite e.name text]
        edited := some p.position } :=
  congrArg Prod.snd (Session.edit_of_some (s := ⟨p, SortedMap.empty⟩) h none text)

theorem perform_restoreDefault_of_none (h : p.selected? = none) :
    p.perform .restoreDefault = .quiet p :=
  congrArg Prod.snd (Session.restoreDefault_of_none (s := ⟨p, SortedMap.empty⟩) h none)

theorem perform_restoreDefault_of_some {e : Entry} (h : p.selected? = some e) :
    p.perform .restoreDefault = p.perform (.edit e.authored) :=
  congrArg Prod.snd (Session.restoreDefault_of_some (s := ⟨p, SortedMap.empty⟩) h none)

theorem perform_select_of_contains {q : Position} (h : p.catalog.contains q = true) :
    p.perform (.select q) =
      { load { p with position := q } with writes := [p.config.positionWrite q] } :=
  congrArg Prod.snd (Session.select_of_contains (s := ⟨p, SortedMap.empty⟩) h none)

theorem perform_select_of_not_contains {q : Position} (h : ¬ p.catalog.contains q = true) :
    p.perform (.select q) = .quiet p :=
  congrArg Prod.snd (Session.select_of_not_contains (s := ⟨p, SortedMap.empty⟩) h none)

theorem perform_selectGroup (p : Player) (g : Nat) :
    p.perform (.selectGroup g) =
      if g = p.position.group then p.load else p.perform (.select ⟨g, 0⟩) := by
  rw [perform, Session.perform, Session.selectGroup]
  split <;> rfl

end Player

/-! ### Steps of a run -/

namespace Session

theorem step_perform (s : Session) (refusal : Option StoreError) (c : Player.Command) :
    (s.perform refusal c).2 = s.player.perform c :=
  have hsame : s.player = Session.player ⟨s.player, SortedMap.empty⟩ := rfl
  perform_congr hsame refusal none c

theorem player_perform (s : Session) (refusal : Option StoreError) (c : Player.Command) :
    (s.perform refusal c).1.player = (s.player.perform c).player := by
  rw [player_perform_eq_step, step_perform]

theorem performAll_player (rs : List Request) (s : Session) :
    (performAll rs s).1.player = (s.player.performAll (rs.map Request.command)).player := by
  induction rs generalizing s with
  | nil => rfl
  | cons r rs ih =>
    have hrest := ih (s.perform r.refusal r.command).1
    rw [player_perform] at hrest
    exact hrest

theorem performAll_step (rs : List Request) (s : Session) :
    (performAll rs s).2 = s.player.performAll (rs.map Request.command) := by
  induction rs generalizing s with
  | nil => rfl
  | cons r rs ih =>
    have hrest := ih (s.perform r.refusal r.command).1
    rw [player_perform] at hrest
    rw [performAll, hrest, step_perform]
    rfl

theorem run_player (config : Config) (store : Store) (catalog : Catalog) (rs : List Request) :
    (run config store catalog rs).1.player =
      (Player.run config store catalog (rs.map Request.command)).player :=
  performAll_player rs _

theorem run_calls (config : Config) (store : Store) (catalog : Catalog) (rs : List Request) :
    (run config store catalog rs).2 =
      (Player.run config store catalog (rs.map Request.command)).calls := by
  rw [run, Player.run, Step.calls_andThen, performAll_step]
  rfl

theorem player_run_concat (config : Config) (store : Store) (catalog : Catalog) (rs : List Request)
    (r : Request) :
    (run config store catalog (rs ++ [r])).1.player =
      ((run config store catalog rs).1.player.perform r.command).player := by
  simp only [run_player, Player.run, List.map_append, Player.performAll_append, List.map_cons,
    List.map_nil, Player.performAll, Step.player_andThen, Step.quiet]

theorem calls_run_concat (config : Config) (store : Store) (catalog : Catalog) (rs : List Request)
    (r : Request) :
    (run config store catalog (rs ++ [r])).2 = (run config store catalog rs).2 ++
      ((run config store catalog rs).1.player.perform r.command).calls := by
  have hp := run_player config store catalog rs
  simp only [run_calls, hp, Player.run, List.map_append, Player.performAll_append, List.map_cons,
    List.map_nil, Player.performAll, Step.calls_andThen, Step.player_andThen, Step.quiet,
    List.append_assoc, List.append_nil]

end Session

end CubeTrainer
