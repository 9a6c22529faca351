import CubeTrainer.Proofs.Trainer.Ticks

/-!
# Work accounting

A run is watched by a scene that counts its renders and a rasterizer that logs its calls, and
watching it changes nothing (`unwatched_takeAll`). What they have counted is what the statistics
say, and the pictures that were drawn are those that are there and those that edits have erased
(`Display.Accounted`).
-/

namespace CubeTrainer

variable {σ ρ ι : Type}

/-- Counts how often the scene is rendered. -/
def Scene.counted (scene : Scene σ) : Scene (σ × Nat) where
  isDirty s := scene.isDirty s.1
  render s := (scene.render s.1, s.2 + 1)

/-- Notes of each call whether there was a picture. -/
def Rasterizer.logged (r : Rasterizer ρ ι) : Rasterizer (ρ × List Bool) ι where
  draw strip text s :=
    let drawn := r.draw strip text s.1
    (drawn.1, drawn.2, s.2 ++ [drawn.1.isSome])

theorem Rasterizer.log_of_draw {r : Rasterizer ρ ι} {strip : Strip} {text : String}
    {s s' : ρ × List Bool} {picture : Option ι}
    (h : r.logged.draw strip text s = (picture, s')) : s'.2 = s.2 ++ [picture.isSome] := by
  obtain ⟨rfl, rfl⟩ := Prod.mk.inj h
  rfl

/-! ### Watched displays -/

namespace Display

variable {d d' : Display (σ × Nat) (ρ × List Bool) ι} {scene : Scene σ} {r : Rasterizer ρ ι}
  {c : Catalog} {o : Outcome} {os : List Outcome} {erased : Nat}

def unwatched (d : Display (σ × Nat) (ρ × List Bool) ι) : Display σ ρ ι :=
  ⟨d.previews, d.stats, d.scene.1, d.rasterizer.1⟩

theorem unwatched_fill (d : Display (σ × Nat) (ρ × List Bool) ι) (p : Position) :
    (d.fill c r.logged p).1 = (d.unwatched.fill c r p).1 ∧
      (d.fill c r.logged p).2.unwatched = (d.unwatched.fill c r p).2 := by
  have hslot : d.unwatched.previews.slotAt? p = d.previews.slotAt? p := rfl
  unfold fill Previews.fill
  rw [hslot]
  cases c.groupAt? p.group with
  | none => exact ⟨rfl, rfl⟩
  | some g =>
    cases c.entryAt? p with
    | none => exact ⟨rfl, rfl⟩
    | some e =>
      cases d.previews.slotAt? p with
      | none => exact ⟨rfl, rfl⟩
      | some slot =>
        have hdraw : r.logged.draw g.strip e.current d.rasterizer =
            let drawn := r.draw g.strip e.current d.unwatched.rasterizer
            (drawn.1, drawn.2, d.rasterizer.2 ++ [drawn.1.isSome]) := rfl
        simp only [hdraw]
        rcases r.draw g.strip e.current d.unwatched.rasterizer with ⟨_ | picture, s⟩ <;>
          exact ⟨rfl, rfl⟩

theorem unwatched_tick (d : Display (σ × Nat) (ρ × List Bool) ι) :
    (d.tick scene.counted r.logged c).1 = (d.unwatched.tick scene r c).1 ∧
      (d.tick scene.counted r.logged c).2.unwatched = (d.unwatched.tick scene r c).2 := by
  have hdirty : scene.counted.isDirty d.scene = scene.isDirty d.unwatched.scene := rfl
  have hnext : d.unwatched.previews.nextPending? = d.previews.nextPending? := rfl
  unfold tick
  rw [hdirty, hnext]
  cases scene.isDirty d.unwatched.scene with
  | true => exact ⟨rfl, rfl⟩
  | false =>
    cases d.previews.nextPending? with
    | none => exact ⟨rfl, rfl⟩
    | some p =>
      obtain ⟨hdone, hrest⟩ := unwatched_fill (c := c) (r := r) d p
      simp only [Bool.false_eq_true, if_false, ← hdone, ← hrest]
      cases (d.fill c r.logged p).1 <;> exact ⟨rfl, rfl⟩

/-- The statistics agree with what was counted, where `os` are the outcomes of all ticks, and what
was filled is still there but for the pictures that were erased. -/
structure Accounted (d : Display (σ × Nat) (ρ × List Bool) ι) (os : List Outcome)
    (erased : Nat) : Prop where
  ticks : d.stats.ticks = os.length
  renders : d.stats.renders = d.scene.2
  draws : d.stats.fills + d.stats.deferrals = d.rasterizer.2.length
  deferrals : d.stats.deferrals = d.rasterizer.2.count false
  total : d.stats.ticks =
    d.stats.renders + d.stats.fills + d.stats.deferrals + os.count .idle
  filled : d.previews.filledCount + erased = d.stats.fills

theorem Accounted.tick (h : d.Accounted os erased)
    (hticked : Ticked scene.counted r.logged c d o d') : d'.Accounted (os ++ [o]) erased := by
  obtain ⟨htick, hkind⟩ := hticked.counted
  have hticks : d'.stats.ticks = (os ++ [o]).length := by
    rw [htick, h.ticks, List.length_append, List.length_singleton]
  have htotal : d'.stats.ticks =
      d'.stats.renders + d'.stats.fills + d'.stats.deferrals + (os ++ [o]).count .idle := by
    have hbefore := h.total
    rw [List.count_append]
    omega
  cases hticked with
  | rendered =>
    exact ⟨hticks, congrArg (· + 1) h.renders, h.draws, h.deferrals, htotal, h.filled⟩
  | idle => exact ⟨hticks, h.renders, h.draws, h.deferrals, htotal, h.filled⟩
  | @filled p rest g e picture s _ hpending _ _ hdraw =>
    have hlog : s.2 = d.rasterizer.2 ++ [true] := Rasterizer.log_of_draw hdraw
    have hcount := Previews.filledCount_set (Previews.slotAt?_of_pending hpending) (some picture)
    have hdraws := h.draws
    have hfilled := h.filled
    refine ⟨hticks, h.renders, ?_, ?_, htotal, ?_⟩
    · simp only [hlog, List.length_append, List.length_singleton]
      omega
    · simp [hlog, h.deferrals]
    · show (d.previews.set p (some picture)).filledCount + erased = d.stats.fills + 1
      have hone : (d.previews.set p (some picture)).filledCount = d.previews.filledCount + 1 :=
        hcount
      omega
  | @deferred p rest g e s _ _ _ _ hdraw =>
    have hlog : s.2 = d.rasterizer.2 ++ [false] := Rasterizer.log_of_draw hdraw
    have hdraws := h.draws
    refine ⟨hticks, h.renders, ?_, ?_, htotal, h.filled⟩
    · simp only [hlog, List.length_append, List.length_singleton]
      omega
    · simp [hlog, h.deferrals]

theorem Accounted.invalidate (h : d.Accounted os erased) (p : Position) :
    Accounted { d with previews := d.previews.invalidate p } os
      (erased + if d.previews.has p then 1 else 0) := by
  refine ⟨h.ticks, h.renders, h.draws, h.deferrals, h.total, ?_⟩
  have hcount := d.previews.filledCount_invalidate p
  have hfilled := h.filled
  show (d.previews.invalidate p).filledCount + _ = d.stats.fills
  omega

end Display

/-! ### Watched trainers -/

namespace Trainer

variable {t : Trainer (σ × Nat) (ρ × List Bool) ι} {scene : Scene σ} {soil : σ → σ}
  {r : Rasterizer ρ ι} {os : List Outcome} {erased : Nat}

def unwatched (t : Trainer (σ × Nat) (ρ × List Bool) ι) : Trainer σ ρ ι :=
  ⟨t.session, t.display.unwatched⟩

theorem unwatched_perform (t : Trainer (σ × Nat) (ρ × List Bool) ι) (refusal : Option StoreError)
    (c : Player.Command) :
    (t.perform refusal c).1.unwatched = (t.unwatched.perform refusal c).1 := by
  have hdisplay : (t.perform refusal c).1.display.unwatched =
      (t.unwatched.perform refusal c).1.display := by
    have hplayer : t.unwatched.session.player = t.session.player := rfl
    rw [display_of_edited, display_of_edited, hplayer]
    cases (t.session.player.perform c).edited <;> rfl
  exact congrArg (Trainer.mk (t.session.perform refusal c).1) hdisplay

theorem unwatched_take (t : Trainer (σ × Nat) (ρ × List Bool) ι) (event : Event) :
    (t.take scene.counted (Prod.map soil id) r.logged event).unwatched =
      t.unwatched.take scene soil r event := by
  cases event with
  | tick => exact congrArg (Trainer.mk t.session) (Display.unwatched_tick t.display).2
  | sceneChange => rfl
  | command refusal c => exact unwatched_perform t refusal c

theorem unwatched_takeAll (t : Trainer (σ × Nat) (ρ × List Bool) ι) (events : List Event) :
    (t.takeAll scene.counted (Prod.map soil id) r.logged events).unwatched =
      t.unwatched.takeAll scene soil r events := by
  induction events generalizing t with
  | nil => rfl
  | cons event events ih =>
    have hrest := ih (t.take scene.counted (Prod.map soil id) r.logged event)
    rw [unwatched_take] at hrest
    exact hrest

/-! ### Erased pictures -/

/-- Whether an event is an edit that finds the slot of the selected entry filled. -/
def erases (t : Trainer σ ρ ι) (event : Event) : Bool :=
  event.edits && t.display.previews.has t.session.player.position

/-- How many of the events erase a picture. -/
def erasures (scene : Scene σ) (soil : σ → σ) (r : Rasterizer ρ ι) :
    List Event → Trainer σ ρ ι → Nat
  | [], _ => 0
  | event :: events, t =>
    (if t.erases event then 1 else 0) + erasures scene soil r events (t.take scene soil r event)

theorem accounted_perform (hshaped : t.Shaped) (h : t.display.Accounted os erased)
    (refusal : Option StoreError) (c : Player.Command) :
    (t.perform refusal c).1.display.Accounted os
      (erased + if t.erases (.command refusal c) then 1 else 0) := by
  rw [display_perform]
  by_cases hedit : c.edits = true ∧ t.session.player.selected?.isSome = true
  · have herases : t.erases (.command refusal c) =
        t.display.previews.has t.session.player.position := by
      simp [erases, Event.edits, hedit.1]
    rw [if_pos hedit, herases]
    exact h.invalidate t.session.player.position
  · -- An edit without a selected entry finds no picture either.
    have herases : t.erases (.command refusal c) = false := by
      refine Bool.eq_false_iff.2 fun hboth => hedit ?_
      obtain ⟨hc, hhas⟩ := (Bool.and_eq_true _ _).mp hboth
      exact ⟨hc, selected_of_has hshaped hhas⟩
    rw [if_neg hedit, herases]
    exact h

/-! ### Runs -/

theorem accounted_take (hshaped : t.Shaped) (h : t.display.Accounted os erased) (scene : Scene σ)
    (soil : σ → σ) (r : Rasterizer ρ ι) (event : Event) :
    (t.take scene.counted (Prod.map soil id) r.logged event).display.Accounted
      (os ++ outcomes scene soil r [event] t.unwatched)
      (erased + erasures scene soil r [event] t.unwatched) := by
  cases event with
  | tick =>
    have hwatched : (t.tick scene.counted r.logged).1 = (t.unwatched.tick scene r).1 :=
      (Display.unwatched_tick t.display).1
    have htick := h.tick (tick_ticked hshaped scene.counted r.logged)
    rw [hwatched] at htick
    exact htick
  | sceneChange =>
    show Display.Accounted _ (os ++ []) _
    rw [List.append_nil]
    exact ⟨h.ticks, h.renders, h.draws, h.deferrals, h.total, h.filled⟩
  | command refusal c =>
    show Display.Accounted _ (os ++ []) _
    rw [List.append_nil]
    exact accounted_perform hshaped h refusal c

theorem accounted_takeAll (hshaped : t.Shaped) (h : t.display.Accounted os erased)
    (scene : Scene σ) (soil : σ → σ) (r : Rasterizer ρ ι) (events : List Event) :
    (t.takeAll scene.counted (Prod.map soil id) r.logged events).display.Accounted
      (os ++ outcomes scene soil r events t.unwatched)
      (erased + erasures scene soil r events t.unwatched) := by
  induction events generalizing t os erased with
  | nil =>
    rw [outcomes, erasures, List.append_nil]
    exact h
  | cons event events ih =>
    have hrest := ih (shaped_take hshaped scene.counted (Prod.map soil id) r.logged event)
      (accounted_take hshaped h scene soil r event)
    rw [unwatched_take, List.append_assoc, Nat.add_assoc, ← outcomes_cons] at hrest
    exact hrest

theorem accounted_start (config : Config) (store : Store) (catalog : Catalog) (s₀ : σ) (r₀ : ρ) :
    let opened : Trainer (σ × Nat) (ρ × List Bool) ι :=
      (start config store catalog (s₀, 0) (r₀, [])).1
    opened.display.Accounted [] 0 where
  ticks := rfl
  renders := rfl
  draws := rfl
  deferrals := rfl
  total := rfl
  filled := Previews.filledCount_ofCatalog _

/-- After all events, whatever was drawn late, edited or refused: the ticks of the statistics are
those that there were, the renders those of the scene, the fills and the deferrals together the
calls of the rasterizer, and the deferrals those that had no picture. Each tick did one of these or
was idle. As many previews are there as were filled, but for those that an edit has erased, and what
is drawn next has no picture yet. -/
theorem run_accounted (scene : Scene σ) (soil : σ → σ) (r : Rasterizer ρ ι) (config : Config)
    (store : Store) (catalog : Catalog) (s₀ : σ) (r₀ : ρ) (events : List Event) :
    let opened := (start config store catalog s₀ r₀).1
    let t := opened.takeAll scene soil r events
    let watched := takeAll scene.counted (Prod.map soil id) r.logged
      (start config store catalog (s₀, 0) (r₀, [])).1 events
    let renders := watched.display.scene.2
    let log := watched.display.rasterizer.2
    let stats := t.display.stats
    watched.unwatched = t ∧
      stats.ticks = events.count .tick ∧
      stats.renders = renders ∧
      stats.fills + stats.deferrals = log.length ∧
      stats.deferrals = log.count false ∧
      stats.ticks = stats.renders + stats.fills + stats.deferrals +
        (outcomes scene soil r events opened).count .idle ∧
      t.display.previews.filledCount + erasures scene soil r events opened = stats.fills ∧
      ∀ p, (t.tick scene r).1 = .filled p ∨ (t.tick scene r).1 = .deferred p →
        t.display.previews.slotAt? p = some none := by
  intro opened t watched renders log stats
  have hwatched : watched.unwatched = t := unwatched_takeAll _ events
  have hshaped : t.Shaped :=
    shaped_takeAll (shaped_start config store catalog s₀ r₀) scene soil r events
  have haccounted : watched.display.Accounted ([] ++ outcomes scene soil r events opened)
      (0 + erasures scene soil r events opened) :=
    accounted_takeAll (shaped_start config store catalog (s₀, 0) (r₀, []))
      (accounted_start config store catalog s₀ r₀) scene soil r events
  have hdisplay : watched.display.unwatched = t.display := congrArg Trainer.display hwatched
  have hstats : watched.display.stats = stats := congrArg Display.stats hdisplay
  have hpreviews : watched.display.previews = t.display.previews :=
    congrArg Display.previews hdisplay
  obtain ⟨hticks, hrenders, hdraws, hdeferrals, htotal, hfilled⟩ := haccounted
  rw [hstats] at hticks hrenders hdraws hdeferrals htotal hfilled
  rw [List.nil_append] at hticks htotal
  rw [hpreviews, Nat.zero_add] at hfilled
  refine ⟨hwatched, hticks.trans (length_outcomes events opened), hrenders, hdraws, hdeferrals,
    htotal, hfilled, fun p hp => ?_⟩
  obtain ⟨rest, hpending⟩ := (tick_ticked hshaped scene r).drawn_pending hp
  exact Previews.slotAt?_of_pending hpending

/-- The first edit finds a picture, and the second one none. -/
example :
    erasures sampleScene (fun _ => true) sampleRasterizer
      [.tick, .tick, .tick, .command none (.edit "U2"), .command none .restoreDefault]
      (start .standard .empty samplePair true false).1 = 1 := by
  decide +kernel

end Trainer

end CubeTrainer
