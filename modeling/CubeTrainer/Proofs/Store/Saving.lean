import CubeTrainer.Proofs.Store.Records

/-!
# Saves that a store may refuse

A store is asked to keep one thing after another and may refuse any of them. What it holds then
comes from the saves that it accepted alone, in their order (`attemptAll_eq_writeAll`). So the
position and the texts of all names are kept apart, a refused save leaves no trace, and every other
key holds what it held (`attemptAll_records`).
-/

namespace CubeTrainer

/-- Something to be kept, and whether the store refuses it. -/
structure Attempt where
  save : Save
  refusal : Option StoreError
deriving DecidableEq

/-- What is kept of some attempts, in order. -/
def Attempt.accepted (as : List Attempt) : List Save :=
  as.filterMap fun a => if a.refusal = none then some a.save else none

namespace Store

variable {c : Config} {s : Store}

/-- The store after an attempt: with the save, or as it was. -/
def attempt (c : Config) (s : Store) (a : Attempt) : Store :=
  match s.write a.refusal (a.save.write c) with
  | .ok s => s
  | .error _ => s

def attemptAll (c : Config) (s : Store) (as : List Attempt) : Store :=
  as.foldl (attempt c) s

/-! ### Single attempts -/

theorem attempt_accepted (c : Config) (s : Store) (save : Save) :
    s.attempt c ⟨save, none⟩ = s.writeAll [save.write c] := rfl

theorem attempt_of_error {a : Attempt} {e : StoreError}
    (h : s.write a.refusal (a.save.write c) = .error e) : s.attempt c a = s := by
  rw [attempt, h]

/-! ### All attempts -/

theorem attemptAll_concat (c : Config) (s : Store) (as : List Attempt) (a : Attempt) :
    s.attemptAll c (as ++ [a]) = (s.attemptAll c as).attempt c a := by
  simp [attemptAll]

theorem attemptAll_eq_writeAll (c : Config) (s : Store) (as : List Attempt) :
    s.attemptAll c as = s.writeAll ((Attempt.accepted as).map (Save.write c)) := by
  induction as generalizing s with
  | nil => rfl
  | cons a as ih =>
    obtain ⟨save, refusal⟩ := a
    cases refusal with
    | none =>
      have hkept : Attempt.accepted (⟨save, none⟩ :: as) = save :: Attempt.accepted as := by
        simp [Attempt.accepted]
      show (s.attempt c ⟨save, none⟩).attemptAll c as = _
      rw [hkept, List.map_cons, ← List.singleton_append, writeAll_append, ← attempt_accepted]
      exact ih _
    | some e =>
      have hkept : Attempt.accepted (⟨save, some e⟩ :: as) = Attempt.accepted as := by
        simp [Attempt.accepted]
      show (s.attempt c ⟨save, some e⟩).attemptAll c as = _
      rw [hkept, attempt_of_error (e := e) rfl]
      exact ih s

theorem get?_writeAll_of_ne {key : String} {ws : List Write} (h : ∀ w ∈ ws, w.key ≠ key)
    (s : Store) : (s.writeAll ws).get? key = s.get? key := by
  induction ws generalizing s with
  | nil => rfl
  | cons w ws ih =>
    have hw : key ≠ w.key := Ne.symm (h w List.mem_cons_self)
    have hfirst : (s.insert w.key w.value).get? key = s.get? key := by
      rw [SortedMap.get?_insert, if_neg hw]
    rw [← hfirst]
    exact ih (fun v hv => h v (List.mem_cons_of_mem _ hv)) _

end Store

/-- Whatever saves a store accepts and refuses: it gives back the position that it accepted last
and, for each name, the text that it accepted last unless that is empty, or else what it gave at
first. A key for which it accepted nothing holds what it held, and a save that fails leaves the
whole store as it was. -/
theorem attemptAll_records {c : Config} (hc : c.Separate) (s : Store) {as : List Attempt}
    (hfits : ∀ a ∈ as, ∀ p, a.save = .position p → p.Fits) :
    let kept := Attempt.accepted as
    let t := s.attemptAll c as
    t.position c = (Save.lastPosition? kept).getD (s.position c) ∧
      (∀ name, t.override? c name = match Save.lastText? name kept with
        | some content => if content.isEmpty then none else some content
        | none => s.override? c name) ∧
      (∀ key, (∀ save ∈ kept, (save.write c).key ≠ key) → t.get? key = s.get? key) ∧
      ∀ before a e, (s.attemptAll c before).write a.refusal (a.save.write c) = .error e →
        s.attemptAll c (before ++ [a]) = s.attemptAll c before := by
  intro kept t
  have ht : t = s.writeAll (kept.map (Save.write c)) := Store.attemptAll_eq_writeAll c s as
  have hkept : ∀ p, Save.position p ∈ kept → p.Fits := by
    intro p hp
    obtain ⟨a, ha, hsave⟩ := List.mem_filterMap.1 hp
    split at hsave
    · injection hsave with hsave
      exact hfits a ha p hsave
    · cases hsave
  refine ⟨?_, ?_, ?_, ?_⟩
  · rw [ht]
    exact Store.position_writeAll hc s hkept
  · intro name
    rw [ht]
    exact Store.override?_writeAll hc s kept name
  · intro key hkey
    rw [ht]
    refine Store.get?_writeAll_of_ne ?_ s
    intro w hw
    obtain ⟨save, hsave, rfl⟩ := List.mem_map.1 hw
    exact hkey save hsave
  · intro before a e hfail
    rw [Store.attemptAll_concat, Store.attempt_of_error hfail]

/-- The largest position; texts for the empty name and for a name that is the key of the position;
and saves that fail. -/
def sampleAttempts : List Attempt :=
  [⟨.position ⟨18446744073709551615, 18446744073709551615⟩, none⟩, ⟨.text "" "R U", none⟩,
    ⟨.text "algs.index" "F", none⟩, ⟨.position ⟨0, 3⟩, some .unavailable⟩, ⟨.text "" "", none⟩,
    ⟨.text "algs.index" "B", some (.backend "quota")⟩]

theorem attemptAll_records_refused :
    Config.standard.Separate ∧
      (∀ a ∈ sampleAttempts, ∀ p, a.save = .position p → p.Fits) ∧
      let s : Store := SortedMap.empty.insert "algs.exp." "D2"
      let t := s.attemptAll .standard sampleAttempts
      t.position .standard = ⟨18446744073709551615, 18446744073709551615⟩ ∧
        t.override? .standard "" = none ∧ t.override? .standard "algs.index" = some "F" := by
  have hc : Config.standard.Separate := by decide
  have hfits : ∀ a ∈ sampleAttempts, ∀ p, a.save = .position p → p.Fits := by
    intro a ha p hp
    simp only [sampleAttempts, List.mem_cons, List.not_mem_nil, or_false] at ha
    rcases ha with rfl | rfl | rfl | rfl | rfl | rfl <;> cases hp <;> decide
  obtain ⟨hposition, htext, -, -⟩ :=
    attemptAll_records hc (SortedMap.empty.insert "algs.exp." "D2") hfits
  exact ⟨hc, hfits, hposition, htext "", htext "algs.index"⟩

end CubeTrainer
