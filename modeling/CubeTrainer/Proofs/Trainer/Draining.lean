import CubeTrainer.Proofs.Trainer.Ticks

/-!
# Draining

While nothing is edited, the pending previews are drawn from the first to the last. `Drains` is what
carries this over a run: what the ticks have filled, followed by what is pending after them, is what
was pending before them. From it follow the order of the fills, the place of each deferral, and how
many ticks it takes until nothing is pending.
-/

namespace CubeTrainer

variable {σ ρ ι : Type}

namespace Outcome

/-- The slot that the tick has filled. -/
def filled? : Outcome → Option Position
  | .filled p => some p
  | _ => none

def isDeferred : Outcome → Bool
  | .deferred _ => true
  | _ => false

theorem length_eq (os : List Outcome) :
    os.length = os.count .rendered + (os.filterMap filled?).length + os.countP isDeferred +
      os.count .idle := by
  induction os with
  | nil => rfl
  | cons o os ih =>
    cases o <;> simp [List.filterMap_cons, List.countP_cons, filled?, isDeferred, ih] <;> omega

end Outcome

/-! ### What is pending -/

/-- Ticks with the outcomes `os` leave `after` of what was pending before them. -/
structure Drains (before : List Position) (os : List Outcome) (after : List Position) : Prop where
  filled : os.filterMap Outcome.filled? ++ after = before
  idle : .idle ∈ os → after = []

namespace Drains

variable {before mid after : List Position} {o : Outcome} {os : List Outcome}

theorem nil (before : List Position) : Drains before [] before :=
  ⟨rfl, fun h => absurd h List.not_mem_nil⟩

theorem cons (h : Drains before [o] mid) (hrest : Drains mid os after) :
    Drains before (o :: os) after where
  filled := by
    rw [← h.filled, ← hrest.filled, ← List.append_assoc, ← List.filterMap_append]
    rfl
  idle hmem := by
    rcases List.mem_cons.1 hmem with rfl | hin
    · have hmid : mid = [] := h.idle List.mem_cons_self
      exact (List.append_eq_nil_iff.1 (hrest.filled.trans hmid)).2
    · exact hrest.idle hin

theorem eq_nil (h : Drains before os after)
    (hlength : os.count .rendered + os.countP Outcome.isDeferred + before.length ≤ os.length) :
    after = [] := by
  by_cases hidle : .idle ∈ os
  · exact h.idle hidle
  · have hnone : os.count .idle = 0 := List.count_eq_zero.2 hidle
    have hall := Outcome.length_eq os
    have hsplit := congrArg List.length h.filled
    rw [List.length_append] at hsplit
    exact List.eq_nil_of_length_eq_zero (by omega)

theorem head?_eq (h : Drains before os after) :
    after.head? = before[(os.filterMap Outcome.filled?).length]? := by
  rw [← h.filled, List.getElem?_append_right (Nat.le_refl _), Nat.sub_self, List.head?_eq_getElem?]

end Drains

theorem Display.Ticked.drains {d d' : Display σ ρ ι} {scene : Scene σ} {r : Rasterizer ρ ι}
    {c : Catalog} {o : Outcome} (h : Ticked scene r c d o d') :
    Drains d.previews.pending [o] d'.previews.pending := by
  cases h with
  | rendered => exact ⟨rfl, by simp⟩
  | idle _ hpending => exact ⟨rfl, fun _ => hpending⟩
  | filled _ hpending =>
    refine ⟨?_, by simp⟩
    rw [hpending, Previews.pending_set hpending]
    rfl
  | deferred => exact ⟨rfl, by simp⟩

/-! ### Runs -/

namespace Trainer

variable {t : Trainer σ ρ ι}

theorem drains_takeAll (h : t.Shaped) (scene : Scene σ) (soil : σ → σ) (r : Rasterizer ρ ι)
    {events : List Event} (hedits : ∀ event ∈ events, event.edits = false) :
    Drains t.display.previews.pending (outcomes scene soil r events t)
      (t.takeAll scene soil r events).display.previews.pending := by
  induction events generalizing t with
  | nil => exact .nil _
  | cons event events ih =>
    obtain ⟨hevent, hevents⟩ := List.forall_mem_cons.1 hedits
    have hrest := ih (shaped_take h scene soil r event) hevents
    by_cases htick : event = .tick
    · subst htick
      exact (tick_ticked h scene r).drains.cons hrest
    · rw [previews_take_of_other htick hevent] at hrest
      cases event with
      | tick => exact absurd rfl htick
      | sceneChange | command => exact hrest

/-- From any trainer that is reached, and while nothing is edited: the pending previews are filled
in ascending order, none left out and none twice. The next tick renders if and only if the scene has
changed, and then touches neither the previews nor the rasterizer; else it has the first preview
that is left drawn, in one call, or is idle if none is left. Once there were as many ticks as
previews were pending, besides those that rendered or were deferred, all are filled, and from then
on a tick that finds the scene unchanged is idle. -/
theorem run_drained (scene : Scene σ) (soil : σ → σ) (r : Rasterizer ρ ι) (config : Config)
    (store : Store) (catalog : Catalog) (s₀ : σ) (r₀ : ρ) (past : List Event) {events : List Event}
    (hedits : ∀ event ∈ events, event.edits = false) :
    let t := takeAll scene soil r (start config store catalog s₀ r₀).1 past
    let now := t.takeAll scene soil r events
    let next := now.tick scene r
    let os := outcomes scene soil r events t
    let pending := t.display.previews.pending
    let filled := os.filterMap Outcome.filled?
    (pending.Pairwise Position.Before ∧
        ∀ p, p ∈ pending ↔ t.display.previews.slotAt? p = some none) ∧
      filled ++ now.display.previews.pending = pending ∧
      (next.1 = .rendered ↔ scene.isDirty now.display.scene = true) ∧
      (next.1 = .rendered → next.2.display.previews = now.display.previews ∧
        next.2.display.rasterizer = now.display.rasterizer) ∧
      (∀ p, next.1 = .deferred p → pending[filled.length]? = some p) ∧
      (next.1 = .idle → filled = pending) ∧
      (scene.isDirty now.display.scene = false → filled ≠ pending →
        ∃ p g e, pending[filled.length]? = some p ∧
          now.session.player.catalog.groupAt? p.group = some g ∧
          now.session.player.catalog.entryAt? p = some e ∧
          let drawn := r.draw g.strip e.current now.display.rasterizer
          next.2.display.rasterizer = drawn.2 ∧
            next.1 = if drawn.1.isSome then .filled p else .deferred p) ∧
      (os.count .rendered + os.countP Outcome.isDeferred + pending.length ≤ os.length →
        now.display.previews.isComplete = true) ∧
      (now.display.previews.isComplete = true → ∀ more : List Event,
        (∀ event ∈ more, event.edits = false) →
        let later := now.takeAll scene soil r more
        later.display.previews.isComplete = true ∧
          (scene.isDirty later.display.scene = false → (later.tick scene r).1 = .idle)) := by
  intro t now next os pending filled
  have ht : t.Shaped := shaped_takeAll (shaped_start config store catalog s₀ r₀) scene soil r past
  have hnow : now.Shaped := shaped_takeAll ht scene soil r events
  have hdrains : Drains pending os now.display.previews.pending :=
    drains_takeAll ht scene soil r hedits
  have hnext : Display.Ticked scene r _ now.display next.1 next.2.display :=
    tick_ticked hnow scene r
  have hfirst {p : Position} {rest : List Position}
      (h : now.display.previews.pending = p :: rest) : pending[filled.length]? = some p := by
    rw [← hdrains.head?_eq, h, List.head?_cons]
  refine ⟨⟨Previews.pairwise_pending _, fun p => Previews.mem_pending⟩, hdrains.filled,
    hnext.rendered_iff, hnext.unchanged, fun p hp => ?_, fun hidle => ?_, fun hclean hleft => ?_,
    fun hlength => Previews.isComplete_iff.2 (hdrains.eq_nil hlength),
    fun hcomplete more hmore => ?_⟩
  · obtain ⟨rest, hpending⟩ := hnext.drawn_pending (.inr hp)
    exact hfirst hpending
  · rw [← hdrains.filled, hnext.idle_pending hidle, List.append_nil]
  · cases hpending : now.display.previews.pending with
    | nil => exact absurd (by rw [← hdrains.filled, hpending, List.append_nil]) hleft
    | cons p rest =>
      obtain ⟨g, e, hg, he, hdrawn⟩ := hnext.drawn hclean hpending
      exact ⟨p, g, e, hfirst hpending, hg, he, hdrawn⟩
  · -- What is complete stays so: only an edit could make a preview pending again.
    have hall := drains_takeAll hnow scene soil r hmore
    rw [Previews.isComplete_iff] at hcomplete
    rw [hcomplete] at hall
    have hlater := (List.append_eq_nil_iff.1 hall.filled).2
    have hshaped := shaped_takeAll hnow scene soil r more
    exact ⟨Previews.isComplete_iff.2 hlater,
      fun hclean => (tick_ticked hshaped scene r).eq_idle hclean hlater⟩

theorem run_drained_deferred :
    let past : List Event := [.tick, .tick, .tick, .command none (.edit "R U2'")]
    let events : List Event := [.sceneChange, .tick, .tick, .tick, .command none (.select ⟨0, 1⟩),
      .tick, .tick]
    (∀ event ∈ events, event.edits = false) ∧
      let t := takeAll sampleScene (fun _ => true) sampleRasterizer
        (start .standard .empty samplePair true false).1 past
      let now := t.takeAll sampleScene (fun _ => true) sampleRasterizer events
      outcomes sampleScene (fun _ => true) sampleRasterizer events t =
          [.rendered, .deferred ⟨0, 0⟩, .filled ⟨0, 0⟩, .deferred ⟨0, 1⟩, .filled ⟨0, 1⟩] ∧
        now.display.previews.isComplete = true := by
  intro past events
  have hedits : ∀ event ∈ events, event.edits = false := by decide
  refine ⟨hedits, by decide +kernel, ?_⟩
  obtain ⟨-, -, -, -, -, -, -, hcomplete, -⟩ := run_drained sampleScene (fun _ => true)
    sampleRasterizer .standard .empty samplePair true false past hedits
  exact hcomplete (by decide +kernel)

end Trainer

end CubeTrainer
