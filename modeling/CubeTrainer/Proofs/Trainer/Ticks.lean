import CubeTrainer.Proofs.Previews.Pending
import CubeTrainer.Proofs.Trainer.Freshness

/-!
# Ticks

What a tick can do, said once: it renders a scene that has changed, or has the first of the pending
previews drawn, with or without a picture, or finds nothing to do. For this the previews need a slot
for each entry of the live catalog and no others, which all events keep (`shaped_takeAll`).
-/

namespace CubeTrainer

variable {σ ρ ι : Type}

namespace Display

variable {d : Display σ ρ ι} {scene : Scene σ} {r : Rasterizer ρ ι} {c : Catalog}

/-- What becomes of a display in a tick, by what the tick does. -/
inductive Ticked (scene : Scene σ) (r : Rasterizer ρ ι) (c : Catalog) (d : Display σ ρ ι) :
    Outcome → Display σ ρ ι → Prop
  | rendered (hdirty : scene.isDirty d.scene = true) :
    Ticked scene r c d .rendered { d with
      scene := scene.render d.scene
      stats := { d.stats with ticks := d.stats.ticks + 1, renders := d.stats.renders + 1 } }
  | idle (hclean : scene.isDirty d.scene = false) (hpending : d.previews.pending = []) :
    Ticked scene r c d .idle { d with stats := { d.stats with ticks := d.stats.ticks + 1 } }
  | filled {p rest g e picture s} (hclean : scene.isDirty d.scene = false)
      (hpending : d.previews.pending = p :: rest) (hg : c.groupAt? p.group = some g)
      (he : c.entryAt? p = some e)
      (hdraw : r.draw g.strip e.current d.rasterizer = (some picture, s)) :
    Ticked scene r c d (.filled p) { d with
      previews := d.previews.set p (some picture)
      rasterizer := s
      stats := { d.stats with ticks := d.stats.ticks + 1, fills := d.stats.fills + 1 } }
  | deferred {p rest g e s} (hclean : scene.isDirty d.scene = false)
      (hpending : d.previews.pending = p :: rest) (hg : c.groupAt? p.group = some g)
      (he : c.entryAt? p = some e)
      (hdraw : r.draw g.strip e.current d.rasterizer = (none, s)) :
    Ticked scene r c d (.deferred p) { d with
      rasterizer := s
      stats := { d.stats with ticks := d.stats.ticks + 1, deferrals := d.stats.deferrals + 1 } }

theorem tick_ticked (hsizes : d.previews.slots.map List.length = c.groups.map Group.size) :
    Ticked scene r c d (d.tick scene r c).1 (d.tick scene r c).2 := by
  unfold tick
  split
  · rename_i hdirty
    exact .rendered hdirty
  · rename_i hdirty
    have hclean : scene.isDirty d.scene = false := Bool.eq_false_iff.2 hdirty
    rw [Previews.nextPending?_eq_head?]
    cases hpending : d.previews.pending with
    | nil => exact .idle hclean hpending
    | cons p rest =>
      have hslot := Previews.slotAt?_of_pending hpending
      have hentry : (c.entryAt? p).isSome = true := by
        have hsome := Previews.isSome_slotAt? hsizes p
        rw [hslot] at hsome
        exact hsome.symm
      obtain ⟨e, he⟩ := Option.isSome_iff_exists.1 hentry
      obtain ⟨g, hg, -⟩ := Option.bind_eq_some_iff.1 he
      cases hdraw : r.draw g.strip e.current d.rasterizer with
      | mk picture s =>
        cases picture with
        | none =>
          simp only [List.head?_cons, fill, Previews.fill, hg, he, hslot, hdraw]
          exact .deferred hclean hpending hg he hdraw
        | some picture =>
          simp only [List.head?_cons, fill, Previews.fill, hg, he, hslot, hdraw]
          exact .filled hclean hpending hg he hdraw

namespace Ticked

variable {d' : Display σ ρ ι} {o : Outcome} {p : Position} {rest : List Position}

theorem sizes (h : Ticked scene r c d o d') :
    d'.previews.slots.map List.length = d.previews.slots.map List.length := by
  cases h with
  | rendered | idle | deferred => rfl
  | filled => exact Previews.sizes_set _ _ _

theorem counted (h : Ticked scene r c d o d') :
    d'.stats.ticks = d.stats.ticks + 1 ∧
      d'.stats.renders + d'.stats.fills + d'.stats.deferrals + [o].count .idle =
        d.stats.renders + d.stats.fills + d.stats.deferrals + 1 := by
  cases h with
  | idle => exact ⟨rfl, rfl⟩
  | rendered | filled =>
    refine ⟨rfl, ?_⟩
    simp
    omega
  | deferred => exact ⟨rfl, rfl⟩

theorem rendered_iff (h : Ticked scene r c d o d') :
    o = .rendered ↔ scene.isDirty d.scene = true := by
  cases h with
  | rendered hdirty => exact iff_of_true rfl hdirty
  | idle hclean | filled hclean | deferred hclean => simp [hclean]

theorem unchanged (h : Ticked scene r c d o d') (ho : o = .rendered) :
    d'.previews = d.previews ∧ d'.rasterizer = d.rasterizer := by
  cases h with
  | rendered => exact ⟨rfl, rfl⟩
  | idle | filled | deferred => cases ho

theorem drawn_pending (h : Ticked scene r c d o d') (ho : o = .filled p ∨ o = .deferred p) :
    ∃ rest, d.previews.pending = p :: rest := by
  cases h with
  | rendered | idle => simp at ho
  | filled _ hpending | deferred _ hpending =>
    obtain rfl : _ = p := by simpa using ho
    exact ⟨_, hpending⟩

theorem idle_pending (h : Ticked scene r c d o d') (ho : o = .idle) :
    d.previews.pending = [] := by
  cases h with
  | rendered | filled | deferred => cases ho
  | idle _ hpending => exact hpending

theorem drawn (h : Ticked scene r c d o d') (hclean : scene.isDirty d.scene = false)
    (hpending : d.previews.pending = p :: rest) :
    ∃ g e, c.groupAt? p.group = some g ∧ c.entryAt? p = some e ∧
      let drawn := r.draw g.strip e.current d.rasterizer
      d'.rasterizer = drawn.2 ∧ o = if drawn.1.isSome then .filled p else .deferred p := by
  cases h with
  | rendered hdirty => exact absurd hdirty (Bool.eq_false_iff.1 hclean)
  | idle _ hnil => exact absurd (hnil.symm.trans hpending) (List.cons_ne_nil _ _).symm
  | filled _ hp hg he hdraw | deferred _ hp hg he hdraw =>
    cases hp.symm.trans hpending
    refine ⟨_, _, hg, he, ?_⟩
    rw [hdraw]
    exact ⟨rfl, rfl⟩

theorem eq_idle (h : Ticked scene r c d o d') (hclean : scene.isDirty d.scene = false)
    (hpending : d.previews.pending = []) : o = .idle := by
  cases h with
  | rendered hdirty => exact absurd hdirty (Bool.eq_false_iff.1 hclean)
  | idle => rfl
  | filled _ hp | deferred _ hp => exact absurd (hp.symm.trans hpending) (List.cons_ne_nil _ _)

end Ticked

end Display

namespace Trainer

variable {t : Trainer σ ρ ι}

/-! ### Shapes -/

/-- One slot for each entry of the live catalog. -/
def Shaped (t : Trainer σ ρ ι) : Prop :=
  t.display.previews.slots.map List.length = t.session.player.catalog.groups.map Group.size

theorem shaped_start (config : Config) (store : Store) (catalog : Catalog) (s₀ : σ) (r₀ : ρ) :
    (start config store catalog s₀ r₀ : Trainer σ ρ ι × List Call).1.Shaped := by
  simp [Shaped, start, Display.ofPreviews, Previews.ofCatalog, Function.comp_def]

theorem tick_ticked (h : t.Shaped) (scene : Scene σ) (r : Rasterizer ρ ι) :
    Display.Ticked scene r t.session.player.catalog t.display (t.tick scene r).1
      (t.tick scene r).2.display :=
  Display.tick_ticked h

theorem selected_of_has (h : t.Shaped)
    (hhas : t.display.previews.has t.session.player.position = true) :
    t.session.player.selected?.isSome = true := by
  obtain ⟨picture, hpicture⟩ := Option.isSome_iff_exists.1 hhas
  have hslot := Previews.isSome_slotAt? h t.session.player.position
  rw [Option.join_eq_some_iff.1 hpicture] at hslot
  exact hslot.symm

theorem shaped_perform (h : t.Shaped) (refusal : Option StoreError) (c : Player.Command) :
    (t.perform refusal c).1.Shaped := by
  have hpreviews : (t.perform refusal c).1.display.previews.slots.map List.length =
      t.display.previews.slots.map List.length := by
    rw [previews_perform]
    split
    · exact Previews.sizes_set _ _ none
    · rfl
  have hcatalog : (t.perform refusal c).1.session.player.catalog.groups.map Group.size =
      t.session.player.catalog.groups.map Group.size := by
    show (t.session.perform refusal c).1.player.catalog.groups.map Group.size = _
    rw [Session.player_perform, (t.session.player.perform_saves c).catalog]
    cases (t.session.player.save? c).bind Save.content? with
    | none => rfl
    | some text => exact Catalog.sizes_set _ _ text
  exact hpreviews.trans (h.trans hcatalog.symm)

theorem shaped_take (h : t.Shaped) (scene : Scene σ) (soil : σ → σ) (r : Rasterizer ρ ι)
    (event : Event) : (t.take scene soil r event).Shaped := by
  cases event with
  | sceneChange => exact h
  | command refusal c => exact shaped_perform h refusal c
  | tick => exact (tick_ticked h scene r).sizes.trans h

theorem shaped_takeAll (h : t.Shaped) (scene : Scene σ) (soil : σ → σ) (r : Rasterizer ρ ι)
    (events : List Event) : (t.takeAll scene soil r events).Shaped := by
  induction events generalizing t with
  | nil => exact h
  | cons event events ih => exact ih (shaped_take h scene soil r event)

/-! ### Outcomes -/

/-- What the ticks among some events did, in order. -/
def outcomes (scene : Scene σ) (soil : σ → σ) (r : Rasterizer ρ ι) :
    List Event → Trainer σ ρ ι → List Outcome
  | [], _ => []
  | .tick :: events, t =>
    (t.tick scene r).1 :: outcomes scene soil r events (t.take scene soil r .tick)
  | event :: events, t => outcomes scene soil r events (t.take scene soil r event)

variable {scene : Scene σ} {soil : σ → σ} {r : Rasterizer ρ ι}

theorem outcomes_cons (event : Event) (events : List Event) (t : Trainer σ ρ ι) :
    outcomes scene soil r (event :: events) t =
      outcomes scene soil r [event] t ++
        outcomes scene soil r events (t.take scene soil r event) := by
  cases event <;> rfl

theorem length_outcomes (events : List Event) (t : Trainer σ ρ ι) :
    (outcomes scene soil r events t).length = events.count .tick := by
  induction events generalizing t with
  | nil => rfl
  | cons event events ih =>
    have hrest := ih (t.take scene soil r event)
    cases event with
    | tick => simpa [outcomes] using hrest
    | sceneChange | command => simpa [outcomes] using hrest

end Trainer

end CubeTrainer
