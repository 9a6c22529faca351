import CubeTrainer.Proofs.Trainer.Freshness

/-!
# Refused writes

Which writes a store refuses can be seen in the store and nowhere else. Two runs with the same
commands are followed side by side, one operation at a time: they agree on the player after it and
on its step, by `Session.perform_congr`; with a display, also on the previews, what ticks did and
the statistics. The stores differ by the writes that each of them has refused.
-/

namespace CubeTrainer

open Player (Command)

/-! ### Sessions -/

namespace Session

variable {s s' : Session}

/-- Commands with the answers of a store to what they write: the one numbered `i` is refused if
`refusals i` says why. -/
def requests (refusals : Nat → Option StoreError) (cs : List Command) : List Request :=
  cs.mapIdx fun i c => ⟨refusals i, c⟩

/-- What can be seen of each request: the player after it, and its step. -/
def trace : List Request → Session → List (Player × Step)
  | [], _ => []
  | r :: rs, s =>
    let next := s.perform r.refusal r.command
    (next.1.player, next.2) :: trace rs next.1

/-- The writes of a trace that were not refused, in order. -/
def accepted (rs : List Request) (steps : List (Player × Step)) : List Write :=
  (rs.zip steps).flatMap fun x => x.2.2.accepted x.1.refusal

theorem requests_cons (refusals : Nat → Option StoreError) (c : Command) (cs : List Command) :
    requests refusals (c :: cs) = ⟨refusals 0, c⟩ :: requests (fun i => refusals (i + 1)) cs :=
  List.mapIdx_cons

theorem player_perform_congr (h : s.player = s'.player) (f g : Option StoreError) (c : Command) :
    (s.perform f c).1.player = (s'.perform g c).1.player := by
  rw [player_perform_eq_step, player_perform_eq_step, perform_congr h f g c]

theorem trace_congr (h : s.player = s'.player) (f g : Nat → Option StoreError)
    (cs : List Command) : trace (requests f cs) s = trace (requests g cs) s' := by
  induction cs generalizing f g s s' with
  | nil => rfl
  | cons c cs ih =>
    have hstep := perform_congr h (f 0) (g 0) c
    have hnext := player_perform_congr h (f 0) (g 0) c
    rw [requests_cons, requests_cons, trace, trace]
    exact congrArg₂ List.cons (Prod.ext hnext hstep) (ih hnext _ _)

theorem length_writes_perform_le (s : Session) (refusal : Option StoreError) (c : Command) :
    (s.perform refusal c).2.writes.length ≤ 1 := by
  rw [step_perform, (s.player.perform_saves c).writes]
  cases s.player.save? c with
  | none => exact Nat.zero_le 1
  | some save => exact Nat.le_refl 1

theorem store_performAll_trace (rs : List Request) (s : Session) :
    (performAll rs s).1.store = s.store.writeAll (accepted rs (trace rs s)) := by
  induction rs generalizing s with
  | nil => rfl
  | cons r rs ih =>
    have hrest := ih (s.perform r.refusal r.command).1
    rw [store_perform, ← Store.writeAll_append] at hrest
    exact hrest

end Session

/-! ### Trainers -/

namespace Trainer

variable {σ ρ ι : Type} {scene : Scene σ} {soil : σ → σ} {r : Rasterizer ρ ι}

def Event.withRefusal (refusal : Option StoreError) : Event → Event
  | .command _ c => .command refusal c
  | event => event

/-- The events with the answers of a store, as in `Session.requests`. -/
def refuse (refusals : Nat → Option StoreError) (events : List Event) : List Event :=
  events.mapIdx fun i event => event.withRefusal (refusals i)

/-- What can be seen of an event, and of a trainer after it. -/
structure Report (σ ρ ι : Type) where
  /-- What a tick did. -/
  outcome : Option Outcome
  /-- What a command did. -/
  step : Option Step
  player : Player
  display : Display σ ρ ι

def report (scene : Scene σ) (soil : σ → σ) (r : Rasterizer ρ ι) (t : Trainer σ ρ ι)
    (event : Event) : Report σ ρ ι where
  outcome := match event with
    | .tick => some (t.tick scene r).1
    | _ => none
  step := match event with
    | .command refusal c => some (t.perform refusal c).2
    | _ => none
  player := (t.take scene soil r event).session.player
  display := (t.take scene soil r event).display

def reports (scene : Scene σ) (soil : σ → σ) (r : Rasterizer ρ ι) :
    List Event → Trainer σ ρ ι → List (Report σ ρ ι)
  | [], _ => []
  | event :: events, t =>
    t.report scene soil r event :: reports scene soil r events (t.take scene soil r event)

structure Alike (t t' : Trainer σ ρ ι) : Prop where
  player : t.session.player = t'.session.player
  display : t.display = t'.display

variable {t t' : Trainer σ ρ ι}

theorem Alike.perform (h : t.Alike t') (f g : Option StoreError) (c : Command) :
    (t.perform f c).1.Alike (t'.perform g c).1 ∧ (t.perform f c).2 = (t'.perform g c).2 := by
  have hstep : (t.perform f c).2 = (t'.perform g c).2 := Session.perform_congr h.player f g c
  refine ⟨⟨Session.player_perform_congr h.player f g c, ?_⟩, hstep⟩
  rw [display_of_edited, display_of_edited, h.player, h.display]

theorem Alike.tick (h : t.Alike t') :
    (t.tick scene r).2.Alike (t'.tick scene r).2 ∧ (t.tick scene r).1 = (t'.tick scene r).1 := by
  have hsame : t.display.tick scene r t.session.player.catalog =
      t'.display.tick scene r t'.session.player.catalog := by
    rw [h.display, h.player]
  have houtcome : (t.tick scene r).1 = (t'.tick scene r).1 := congrArg (fun p => p.1) hsame
  exact ⟨⟨h.player, congrArg (fun p => p.2) hsame⟩, houtcome⟩

theorem Alike.take (h : t.Alike t') (f g : Option StoreError) (event : Event) :
    (t.take scene soil r (event.withRefusal f)).Alike
      (t'.take scene soil r (event.withRefusal g)) := by
  cases event with
  | tick => exact h.tick.1
  | sceneChange =>
    refine ⟨h.player, ?_⟩
    show { t.display with scene := soil t.display.scene } = _
    rw [h.display]
    rfl
  | command _ c => exact (h.perform f g c).1

theorem Alike.report (h : t.Alike t') (f g : Option StoreError) (event : Event) :
    t.report scene soil r (event.withRefusal f) = t'.report scene soil r (event.withRefusal g) := by
  have hnext : Alike (t.take scene soil r (event.withRefusal f)) _ := h.take f g event
  unfold Trainer.report
  rw [hnext.player, hnext.display]
  congr 1
  · cases event with
    | tick => exact congrArg some h.tick.2
    | sceneChange | command => rfl
  · cases event with
    | tick | sceneChange => rfl
    | command _ c => exact congrArg some (h.perform f g c).2

theorem refuse_cons (refusals : Nat → Option StoreError) (event : Event) (events : List Event) :
    refuse refusals (event :: events) =
      event.withRefusal (refusals 0) :: refuse (fun i => refusals (i + 1)) events :=
  List.mapIdx_cons

theorem Alike.reports (h : t.Alike t') (f g : Nat → Option StoreError) (events : List Event) :
    reports scene soil r (refuse f events) t = reports scene soil r (refuse g events) t' := by
  induction events generalizing f g t t' with
  | nil => rfl
  | cons event events ih =>
    rw [refuse_cons, refuse_cons, Trainer.reports, Trainer.reports, h.report (f 0) (g 0) event,
      ih (h.take (f 0) (g 0) event)]

/-! ### Stores of trainers -/

/-- The writes of an event that were not refused, from the step of its command. -/
def Event.accepted : Event → Option Step → List Write
  | .command refusal _, some step => step.accepted refusal
  | _, _ => []

def accepted (events : List Event) (reports : List (Report σ ρ ι)) : List Write :=
  (events.zip reports).flatMap fun x => x.1.accepted x.2.step

theorem store_take (t : Trainer σ ρ ι) (event : Event) :
    (t.take scene soil r event).session.store =
      t.session.store.writeAll (event.accepted (t.report scene soil r event).step) := by
  cases event with
  | tick | sceneChange => rfl
  | command refusal c => exact Session.store_perform t.session refusal c

theorem store_takeAll (events : List Event) (t : Trainer σ ρ ι) :
    (t.takeAll scene soil r events).session.store =
      t.session.store.writeAll (accepted events (reports scene soil r events t)) := by
  induction events generalizing t with
  | nil => rfl
  | cons event events ih =>
    have hrest := ih (t.take scene soil r event)
    rw [store_take, ← Store.writeAll_append] at hrest
    exact hrest

def Event.request? : Event → Option Session.Request
  | .command refusal c => some ⟨refusal, c⟩
  | _ => none

theorem session_takeAll (events : List Event) (t : Trainer σ ρ ι) :
    (t.takeAll scene soil r events).session =
      (Session.performAll (events.filterMap Event.request?) t.session).1 := by
  induction events generalizing t with
  | nil => rfl
  | cons event events ih =>
    have hrest := ih (t.take scene soil r event)
    cases event with
    | tick | sceneChange => exact hrest
    | command refusal c => exact hrest

end Trainer

/-- Whatever two stores refuse, two runs with the same commands agree on all that they do but for
what the stores contain. A command tries one write at most, and each store has the accepted writes
of its run, in order. -/
theorem refusals_unseen {σ ρ ι : Type} (config : Config) (store : Store) (catalog : Catalog)
    (f g : Nat → Option StoreError) :
    (∀ (s : Session) refusal c, (s.perform refusal c).2.writes.length ≤ 1) ∧
    (∀ cs : List Command,
      let s := (Session.start config store catalog).1
      let rs := Session.requests f cs
      let steps := Session.trace rs s
      steps = Session.trace (Session.requests g cs) s ∧
        (Session.performAll rs s).1.store = store.writeAll (Session.accepted rs steps)) ∧
    ∀ (scene : Scene σ) (soil : σ → σ) (r : Rasterizer ρ ι) (s₀ : σ) (r₀ : ρ)
      (events : List Trainer.Event),
      let t := (Trainer.start config store catalog s₀ r₀).1
      let events' := Trainer.refuse f events
      let reports := Trainer.reports scene soil r events' t
      reports = Trainer.reports scene soil r (Trainer.refuse g events) t ∧
        (t.takeAll scene soil r events').session.store =
          store.writeAll (Trainer.accepted events' reports) := by
  refine ⟨Session.length_writes_perform_le, ?_, ?_⟩
  · intro cs s rs steps
    exact ⟨Session.trace_congr rfl f g cs, Session.store_performAll_trace rs s⟩
  · intro scene soil r s₀ r₀ events t events' reports
    exact ⟨Trainer.Alike.reports ⟨rfl, rfl⟩ f g events, Trainer.store_takeAll events' t⟩

end CubeTrainer
