import CubeTrainer.Proofs.Player.Saves
import CubeTrainer.Proofs.Player.Standing
import CubeTrainer.Trainer

/-!
# No stale previews

The previews and the catalog of a trainer have different owners. `Previews.Fresh` says what keeps
them together: a slot for each entry, and in every filled one the picture of the text in use. A
slot that is filled shows the text of that time, and a text that is edited has its slot emptied in
the same step, so that every event keeps the previews fresh (`fresh_take`).
-/

namespace CubeTrainer

variable {σ ρ ι : Type} {image : Strip → String → ι} {r : Rasterizer ρ ι}

/-- Whenever there is a picture, it is the one that `image` tells. -/
def Rasterizer.Draws (image : Strip → String → ι) (r : Rasterizer ρ ι) : Prop :=
  ∀ strip text s picture, (r.draw strip text s).1 = some picture → picture = image strip text

namespace Catalog

variable {c : Catalog} {p q : Position} {picture : ι}

/-- `picture` is that of the text in use at `p`. -/
def Shows (image : Strip → String → ι) (c : Catalog) (p : Position) (picture : ι) : Prop :=
  ∃ g e, c.groupAt? p.group = some g ∧ c.entryAt? p = some e ∧ picture = image g.strip e.current

theorem Shows.set (h : c.Shows image q picture) (hne : q ≠ p) (text : String) :
    (c.set p text).Shows image q picture := by
  obtain ⟨g, e, hg, he, hpicture⟩ := h
  have hgroup : (c.set p text).groupAt? q.group = (some g).map _ :=
    hg ▸ groupAt?_mapCurrent _ c q.group
  have hentry : (c.set p text).entryAt? q = some e := by
    rw [entryAt?_set, he, Option.map_some, if_neg hne]
  exact ⟨_, e, hgroup, hentry, hpicture⟩

theorem sizes_set (c : Catalog) (p : Position) (text : String) :
    (c.set p text).groups.map Group.size = c.groups.map Group.size := by
  refine List.ext_getElem? fun i => ?_
  have hgroup := groupAt?_mapCurrent (fun q e => if q = p then text else e.current) c i
  rw [List.getElem?_map, List.getElem?_map]
  show ((c.set p text).groupAt? i).map _ = (c.groupAt? i).map _
  rw [set, hgroup]
  cases c.groupAt? i with
  | none => rfl
  | some g => simp [Group.mapEntries, Group.size]

end Catalog

/-! ### Previews -/

namespace Previews

variable {c : Catalog} {v : Previews ι} {p q : Position}

/-- One slot for each entry, and no picture but that of the text in use. -/
structure Fresh (image : Strip → String → ι) (c : Catalog) (v : Previews ι) : Prop where
  sizes : v.slots.map List.length = c.groups.map Group.size
  shows : ∀ {q picture}, v.get? q = some picture → c.Shows image q picture

theorem isSome_slotAt? (h : v.slots.map List.length = c.groups.map Group.size) (q : Position) :
    (v.slotAt? q).isSome = c.contains q := by
  have hsize := congrArg (·[q.group]?) h
  simp only [List.getElem?_map] at hsize
  unfold slotAt? Catalog.contains Catalog.entryAt? Catalog.groupAt?
  cases hv : v.slots[q.group]? with
  | none =>
    rw [hv, Option.map_none, eq_comm, Option.map_eq_none_iff] at hsize
    rw [hsize]
    rfl
  | some slots =>
    rw [hv, Option.map_some, eq_comm, Option.map_eq_some_iff] at hsize
    obtain ⟨g, hg, hlength⟩ := hsize
    have hlt : q.index < slots.length ↔ q.index < g.entries.length := by
      rw [← hlength]
      rfl
    rw [hg]
    show (slots[q.index]?).isSome = (g.entries[q.index]?).isSome
    rw [Bool.eq_iff_iff, Option.isSome_iff_ne_none, Option.isSome_iff_ne_none]
    rw [ne_eq, ne_eq, List.getElem?_eq_none_iff, List.getElem?_eq_none_iff]
    omega

theorem get?_set {slot : Option ι} {picture : ι} (h : (v.set p slot).get? q = some picture) :
    q = p ∧ slot = some picture ∨ q ≠ p ∧ v.get? q = some picture := by
  rw [get?, slotAt?_set] at h
  by_cases hq : q = p
  · rw [if_pos hq] at h
    left
    cases hslot : v.slotAt? p with
    | none =>
      rw [hslot] at h
      exact absurd h (by simp)
    | some old =>
      rw [hslot] at h
      exact ⟨hq, h⟩
  · rw [if_neg hq] at h
    exact .inr ⟨hq, h⟩

theorem fresh_ofCatalog (image : Strip → String → ι) (c : Catalog) :
    (ofCatalog c).Fresh image c where
  sizes := by simp [ofCatalog, Function.comp_def]
  shows := by
    intro q picture h
    have hslot : (ofCatalog c).slotAt? q = some (some picture) := Option.join_eq_some_iff.1 h
    obtain ⟨slots, hslots, hpicture⟩ := Option.bind_eq_some_iff.1 hslot
    rw [ofCatalog, List.getElem?_map] at hslots
    obtain ⟨g, -, rfl⟩ := Option.map_eq_some_iff.1 hslots
    cases List.eq_of_mem_replicate (List.mem_of_getElem? hpicture)

theorem Fresh.fill (h : v.Fresh image c) (hr : r.Draws image) (p : Position) (s : ρ) :
    (v.fill c r p s).2.1.Fresh image c := by
  unfold Previews.fill
  split
  · rename_i g e old hg he hslot
    split
    · rename_i picture s' hdraw
      have hpicture : picture = image g.strip e.current :=
        hr g.strip e.current s picture (by rw [hdraw])
      refine ⟨(sizes_set v p _).trans h.sizes, fun hget => ?_⟩
      rcases get?_set hget with ⟨rfl, heq⟩ | ⟨-, hold⟩
      · injection heq with heq
        exact ⟨g, e, hg, he, heq ▸ hpicture⟩
      · exact h.shows hold
    · exact h
  · exact h

theorem Fresh.invalidate (h : v.Fresh image c) (p : Position) (text : String) :
    (v.invalidate p).Fresh image (c.set p text) where
  sizes := by
    rw [Catalog.sizes_set, ← h.sizes]
    exact sizes_set v p none
  shows := by
    intro q picture hget
    rcases get?_set hget with ⟨-, hnone⟩ | ⟨hne, hold⟩
    · exact absurd hnone (by simp)
    · exact (h.shows hold).set hne text

end Previews

theorem Display.previews_tick (d : Display σ ρ ι) (scene : Scene σ) (r : Rasterizer ρ ι)
    (c : Catalog) :
    (d.tick scene r c).2.previews = d.previews ∨
      ∃ p, (d.tick scene r c).2.previews = (d.previews.fill c r p d.rasterizer).2.1 := by
  unfold tick
  split
  · exact .inl rfl
  · split
    · exact .inl rfl
    · rename_i p _
      refine .inr ⟨p, ?_⟩
      have hfill : (d.previews.fill c r p d.rasterizer).2.1 = (d.fill c r p).2.previews := rfl
      rw [hfill]
      generalize d.fill c r p = filled
      obtain ⟨done, d'⟩ := filled
      cases done <;> rfl

/-! ### Trainers -/

namespace Trainer

variable {t : Trainer σ ρ ι} {scene : Scene σ} {soil : σ → σ}

/-- The previews are those of the live catalog. -/
def Fresh (image : Strip → String → ι) (t : Trainer σ ρ ι) : Prop :=
  t.display.previews.Fresh image t.session.player.catalog

def Event.edits : Event → Bool
  | .command _ c => c.edits
  | _ => false

theorem fresh_start (image : Strip → String → ι) (config : Config) (store : Store)
    (catalog : Catalog) (s₀ : σ) (r₀ : ρ) :
    Fresh image (start config store catalog s₀ r₀).1 :=
  Previews.fresh_ofCatalog image _

theorem display_of_edited (t : Trainer σ ρ ι) (refusal : Option StoreError) (c : Player.Command) :
    (t.perform refusal c).1.display =
      match (t.session.player.perform c).edited with
      | some p => { t.display with previews := t.display.previews.invalidate p }
      | none => t.display := by
  rw [← Session.step_perform t.session refusal c]
  rfl

theorem fresh_perform (h : t.Fresh image) (refusal : Option StoreError) (c : Player.Command) :
    (t.perform refusal c).1.Fresh image := by
  have hstep := t.session.player.perform_saves c
  have hplayer : (t.perform refusal c).1.session.player = (t.session.player.perform c).player :=
    Session.player_perform t.session refusal c
  rw [Fresh, display_of_edited, hplayer, hstep.catalog, hstep.edited]
  cases (t.session.player.save? c).bind Save.content? with
  | none => exact h
  | some text => exact Previews.Fresh.invalidate h _ text

theorem fresh_take (hr : r.Draws image) (h : t.Fresh image) (event : Event) :
    (t.take scene soil r event).Fresh image := by
  cases event with
  | tick =>
    show (t.display.tick scene r t.session.player.catalog).2.previews.Fresh image _
    rcases t.display.previews_tick scene r t.session.player.catalog with hsame | ⟨p, hfill⟩
    · rw [hsame]
      exact h
    · rw [hfill]
      exact Previews.Fresh.fill h hr p t.display.rasterizer
  | sceneChange => exact h
  | command refusal c => exact fresh_perform h refusal c

theorem fresh_takeAll (hr : r.Draws image) (h : t.Fresh image) (events : List Event) :
    (t.takeAll scene soil r events).Fresh image := by
  induction events generalizing t with
  | nil => exact h
  | cons event events ih => exact ih (fresh_take hr h event)

theorem display_perform (t : Trainer σ ρ ι) (refusal : Option StoreError) (c : Player.Command) :
    (t.perform refusal c).1.display =
      if c.edits = true ∧ t.session.player.selected?.isSome = true then
        { t.display with
          previews := t.display.previews.invalidate t.session.player.position }
      else t.display := by
  rw [display_of_edited, t.session.player.edited_perform]
  cases c.edits with
  | false => rfl
  | true => cases t.session.player.selected? <;> rfl

theorem previews_perform (t : Trainer σ ρ ι) (refusal : Option StoreError) (c : Player.Command) :
    (t.perform refusal c).1.display.previews =
      if c.edits = true ∧ t.session.player.selected?.isSome = true then
        t.display.previews.invalidate t.session.player.position
      else t.display.previews := by
  rw [display_perform]
  split <;> rfl

theorem slotAt?_edit (h : t.Fresh image) (refusal : Option StoreError) {c : Player.Command}
    (hc : c.edits = true) (q : Position) :
    (t.perform refusal c).1.display.previews.slotAt? q =
      if q = t.session.player.position then (t.display.previews.slotAt? q).map fun _ => none
      else t.display.previews.slotAt? q := by
  have hslot := Previews.isSome_slotAt? h.sizes t.session.player.position
  rw [previews_perform]
  by_cases hs : t.session.player.selected?.isSome = true
  · rw [if_pos ⟨hc, hs⟩, Previews.invalidate, Previews.slotAt?_set]
    split
    · rename_i hq
      rw [hq]
    · rfl
  · rw [if_neg fun hboth => hs hboth.2]
    split
    · rename_i hq
      have hnone : t.display.previews.slotAt? q = none := by
        rw [← Option.not_isSome_iff_eq_none, hq, hslot]
        exact hs
      rw [hnone]
      rfl
    · rfl

theorem previews_take_of_other {event : Event} (hne : event ≠ .tick) (h : event.edits = false) :
    (t.take scene soil r event).display.previews = t.display.previews := by
  cases event with
  | tick => exact absurd rfl hne
  | sceneChange => rfl
  | command refusal c =>
    have hc : c.edits = false := h
    show (t.perform refusal c).1.display.previews = _
    rw [previews_perform, if_neg fun hboth => Bool.false_ne_true (hc.symm.trans hboth.1)]

/-- After all events, whatever is drawn late and whatever writes are refused, the previews are those
of the live catalog. The next edit empties the slot of the selected entry and no other, and what is
neither an edit nor a tick touches none. -/
theorem run_fresh (hr : r.Draws image) (scene : Scene σ) (soil : σ → σ) (config : Config)
    (store : Store) (catalog : Catalog) (s₀ : σ) (r₀ : ρ) (events : List Event) :
    let t := takeAll scene soil r (start config store catalog s₀ r₀).1 events
    t.display.previews.Fresh image t.session.player.catalog ∧
      (∀ refusal c, c.edits = true → ∀ q,
        (t.perform refusal c).1.display.previews.slotAt? q =
          if q = t.session.player.position then (t.display.previews.slotAt? q).map fun _ => none
          else t.display.previews.slotAt? q) ∧
      ∀ event, event ≠ .tick → event.edits = false →
        (t.take scene soil r event).display.previews = t.display.previews := by
  intro t
  have hfresh : t.Fresh image :=
    fresh_takeAll hr (fresh_start image config store catalog s₀ r₀) events
  exact ⟨hfresh, fun refusal c hc => slotAt?_edit hfresh refusal hc,
    fun event hne h => previews_take_of_other hne h⟩

/-- Draws a picture at every other call. -/
def sampleRasterizer : Rasterizer Bool (Strip × String) where
  draw strip text ready := (if ready then some (strip, text) else none, !ready)

def sampleScene : Scene Bool := ⟨id, fun _ => false⟩

theorem run_fresh_refused_edit :
    sampleRasterizer.Draws Prod.mk ∧
      let t := takeAll sampleScene (fun _ => true) sampleRasterizer
        (start .standard .empty samplePair true false).1
        [.tick, .tick, .tick, .sceneChange, .tick, .tick, .tick,
          .command (some .unavailable) (.edit "R U2'"), .command none (.select ⟨0, 1⟩)]
      t.display.previews.Fresh Prod.mk t.session.player.catalog ∧
        t.display.previews = ⟨[[none, some (SortedMap.empty.insert "D" [0, 1], "(R2 U)2")]]⟩ := by
  have hr : sampleRasterizer.Draws Prod.mk := by
    intro strip text ready picture h
    cases ready with
    | false => exact absurd h (by simp [sampleRasterizer])
    | true => exact (Option.some.inj h).symm
  refine ⟨hr, (run_fresh hr sampleScene (fun _ => true) .standard .empty samplePair true false
    [.tick, .tick, .tick, .sceneChange, .tick, .tick, .tick,
      .command (some .unavailable) (.edit "R U2'"), .command none (.select ⟨0, 1⟩)]).1, ?_⟩
  decide +kernel

end Trainer

end CubeTrainer
