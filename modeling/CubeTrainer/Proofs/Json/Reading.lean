import CubeTrainer.Json.Reader
import CubeTrainer.Json.Writer
import Mathlib.Tactic.IntervalCases

/-!
# Reading what was written

`Json.Reads cs d` says that the machine, wherever it waits for a value, takes the characters `cs`
for the datum `d`. Numbers, strings, lists and records as `Json.Writer` writes them are read in this
way, the last two if their items and the values of their fields are (`reads_number`, `reads_text`,
`reads_list`, `reads_record`), and a text that is read so has this datum (`read_of_reads`).
-/

namespace CubeTrainer.Json

namespace Machine

variable {frames : List Frame}

theorem run_cons (m : Machine) (c : Char) (cs : List Char) :
    m.run (c :: cs) = (m.step c).bind (·.run cs) := by
  simp [run, Option.bind_eq_bind]

/-- The machine has read `d` and goes on accordingly at the end of an item, or of the text. -/
structure Settled (m : Machine) (d : Datum) : Prop where
  step : ∀ c, c = ',' ∨ c = ']' ∨ c = '\x7d' → m.step c = afterValue d m.frames c
  finish : m.frames = [] → m.finish? = some d

theorem settled_done (d : Datum) : Settled ⟨.done d, frames⟩ d where
  step _ _ := rfl
  finish h := by
    cases (show frames = [] from h)
    rfl

end Machine

def Reads (cs : List Char) (d : Datum) : Prop :=
  ∀ frames, ∃ mode, Machine.run ⟨.value, frames⟩ cs = some ⟨mode, frames⟩ ∧
    Machine.Settled ⟨mode, frames⟩ d

theorem read_of_reads {s : String} {d : Datum} (h : Reads s.toList d) : read s = some d := by
  obtain ⟨mode, hrun, hsettled⟩ := h []
  rw [read, Machine.start, hrun, Option.bind_some]
  exact hsettled.finish rfl

/-! ### Numbers -/

namespace Machine

variable {frames : List Frame}

theorem digitChar_facts : ∀ d < 10, (Nat.digitChar d).isDigit = true ∧
    Text.decimalValue (Nat.digitChar d) = d := by
  decide

theorem step_whole {d : Nat} (hd : d < 10) (n : Nat) :
    step ⟨.number (.whole false n), frames⟩ (Nat.digitChar d) =
      some ⟨.number (.whole false (n * 10 + d)), frames⟩ := by
  obtain ⟨hdigit, hvalue⟩ := digitChar_facts d hd
  simp [step, Number.step, hdigit, hvalue]

theorem step_first_digit {d : Nat} (hpos : 0 < d) (hd : d < 10) :
    step ⟨.value, frames⟩ (Nat.digitChar d) = some ⟨.number (.whole false d), frames⟩ := by
  interval_cases d <;> rfl

theorem run_toDigits {n : Nat} (h : 0 < n) :
    run ⟨.value, frames⟩ (Nat.toDigits 10 n) = some ⟨.number (.whole false n), frames⟩ := by
  induction n using Nat.strongRecOn with
  | ind n ih =>
    by_cases hlt : n < 10
    · rw [Nat.toDigits_of_lt_base hlt, run_cons, step_first_digit h hlt]
      rfl
    · have hrest := ih (n / 10) (by omega) (by omega)
      have hlast : n % 10 < 10 := Nat.mod_lt n (by decide)
      have hsum : n / 10 * 10 + n % 10 = n := by omega
      rw [Nat.toDigits_of_base_le (by decide) (by omega), run_append, hrest, Option.bind_some,
        run_cons, step_whole hlast, hsum]
      rfl

theorem settled_whole (n : Nat) : Settled ⟨.number (.whole false n), frames⟩ (.natural n) where
  step c hc := by
    rcases hc with rfl | rfl | rfl <;> rfl
  finish h := by
    cases (show frames = [] from h)
    rfl

theorem settled_zero : Settled ⟨.number (.zero false), frames⟩ (.natural 0) where
  step c hc := by
    rcases hc with rfl | rfl | rfl <;> rfl
  finish h := by
    cases (show frames = [] from h)
    rfl

end Machine

theorem reads_number (n : Nat) : Reads (toString n).toList (.natural n) := by
  intro frames
  have hdigits : (toString n).toList = Nat.toDigits 10 n := Nat.toList_repr
  rw [hdigits]
  rcases Nat.eq_zero_or_pos n with rfl | hpos
  · exact ⟨_, rfl, Machine.settled_zero⟩
  · exact ⟨_, Machine.run_toDigits hpos, Machine.settled_whole n⟩

/-! ### Strings -/

namespace Text

/-- The string after some more characters, none of which ends it. -/
def run (t : Text) (cs : List Char) : Option Text :=
  cs.foldlM (fun t c => if t.isClosedBy c then none else t.step c) t

theorem run_cons (t : Text) (c : Char) (cs : List Char) :
    t.run (c :: cs) = (if t.isClosedBy c then none else t.step c).bind (·.run cs) := by
  simp [run, Option.bind_eq_bind]

theorem run_append (t : Text) (cs ds : List Char) :
    t.run (cs ++ ds) = (t.run cs).bind (·.run ds) := by
  simp [run, List.foldlM_append, Option.bind_eq_bind]

theorem hexValue?_hexDigit (n : Nat) : Text.hexValue? (hexDigit n) = some (n % 16) := by
  have hall : ∀ d < 16, Text.hexValue? (Nat.digitChar d) = some d := by decide
  exact hall _ (Nat.mod_lt n (by decide))

theorem run_hexDigit {t : Text} {digits value : Nat} (h : t.escape = .unit digits value) (n : Nat)
    (cs : List Char) :
    t.run (hexDigit n :: cs) =
      (if digits ≤ 1 then t.pushUnit (value * 16 + n % 16)
        else { t with escape := .unit (digits - 1) (value * 16 + n % 16) }).run cs := by
  simp only [run_cons, isClosedBy, step, h, hexValue?_hexDigit, Bool.false_eq_true, if_false]
  split <;> rfl

theorem pushUnit_control (cs : List Char) (escape : Escape) {c : Char} (h : c.toNat < 0x20) :
    Text.pushUnit ⟨some cs, none, escape⟩ c.toNat = ⟨some (c :: cs), none, .outside⟩ := by
  have hhigh : ¬ (0xD800 ≤ c.toNat ∧ c.toNat < 0xDC00) := by omega
  have hlow : ¬ (0xDC00 ≤ c.toNat ∧ c.toNat < 0xE000) := by omega
  simp only [Text.pushUnit, if_neg hhigh, if_neg hlow, Option.map_some, Char.ofNat_toNat]

theorem run_escape (cs : List Char) (c : Char) :
    run ⟨some cs, none, .outside⟩ (Json.escape c) = some ⟨some (c :: cs), none, .outside⟩ := by
  unfold Json.escape
  split
  case h_8 hquote hslash _ _ _ _ _ =>
    split
    · rename_i hcontrol
      have hunit : run ⟨some cs, none, .outside⟩ ['\\', 'u', '0', '0'] =
          some ⟨some cs, none, .unit 2 0⟩ := rfl
      have hvalue : (0 * 16 + c.toNat / 16 % 16) * 16 + c.toNat % 16 = c.toNat := by omega
      have hsplit : ['\\', 'u', '0', '0', hexDigit (c.toNat / 16), hexDigit c.toNat] =
          ['\\', 'u', '0', '0'] ++ [hexDigit (c.toNat / 16), hexDigit c.toNat] := rfl
      rw [hsplit, run_append, hunit, Option.bind_some, run_hexDigit rfl, if_neg (by decide),
        run_hexDigit rfl, if_pos (Nat.le_refl _), hvalue, pushUnit_control _ _ hcontrol]
      rfl
    · rename_i hplain
      have hc : ¬ c = '"' ∧ ¬ c = '\\' := ⟨hquote, hslash⟩
      simp [run, isClosedBy, step, push, hc, hplain]
  all_goals rfl

theorem run_flatMap_escape (cs ds : List Char) :
    run ⟨some cs, none, .outside⟩ (ds.flatMap Json.escape) =
      some ⟨some (ds.reverse ++ cs), none, .outside⟩ := by
  induction ds generalizing cs with
  | nil => rfl
  | cons d ds ih =>
    rw [List.flatMap_cons, run_append, run_escape, Option.bind_some, ih, List.reverse_cons,
      List.append_assoc, List.singleton_append]

theorem exists_run_quoted (s : String) : ∃ t, start.run (s.toList.flatMap Json.escape) = some t ∧
    t.isClosedBy '"' = true ∧ t.finish = some s := by
  refine ⟨_, run_flatMap_escape [] s.toList, rfl, ?_⟩
  simp [finish]

end Text

namespace Machine

variable {frames : List Frame}

/-- Where the machine passes characters on to a string, they are those of the string. -/
theorem run_place {place : Text → Mode}
    (hplace : ∀ t c, t.isClosedBy c = false →
      step ⟨place t, frames⟩ c = (t.step c).map fun t => ⟨place t, frames⟩)
    {t t' : Text} {cs : List Char} (h : t.run cs = some t') :
    run ⟨place t, frames⟩ cs = some ⟨place t', frames⟩ := by
  induction cs generalizing t with
  | nil =>
    obtain rfl : t = t' := Option.some.inj h
    rfl
  | cons c cs ih =>
    rw [Text.run_cons] at h
    obtain ⟨next, hnext, hrest⟩ := Option.bind_eq_some_iff.1 h
    cases hclosed : t.isClosedBy c with
    | true =>
      rw [hclosed] at hnext
      exact absurd hnext (by simp)
    | false =>
      rw [hclosed, if_neg Bool.false_ne_true] at hnext
      rw [run_cons, hplace t c hclosed, hnext]
      exact ih hrest

theorem run_keyText {t t' : Text} {cs : List Char} (h : t.run cs = some t') :
    run ⟨.keyText t, frames⟩ cs = some ⟨.keyText t', frames⟩ :=
  run_place (fun t c hc => by simp [step, hc]) h

theorem run_text {t t' : Text} {cs : List Char} (h : t.run cs = some t') :
    run ⟨.text t, frames⟩ cs = some ⟨.text t', frames⟩ :=
  run_place (fun t c hc => by simp [step, hc]) h

theorem run_key (fields : List (Option String × Datum)) (key : String) :
    run ⟨.key, .record fields :: frames⟩ (quote key ++ ":").toList =
      some ⟨.value, .field fields (some key) :: frames⟩ := by
  obtain ⟨t, hrun, hclosed, hfinish⟩ := Text.exists_run_quoted key
  have hchars : (quote key ++ ":").toList = '"' :: (key.toList.flatMap escape ++ ['"', ':']) := by
    simp [quote]
  have hopen : step ⟨.key, .record fields :: frames⟩ '"' =
      some ⟨.keyText Text.start, .record fields :: frames⟩ := rfl
  rw [hchars, run_cons, hopen, Option.bind_some, run_append, run_keyText hrun, Option.bind_some,
    run_cons]
  simp only [step, hclosed, if_true, hfinish]
  rfl

end Machine

theorem reads_text (s : String) : Reads (quote s).toList (.text (some s)) := by
  intro frames
  obtain ⟨t, hrun, hclosed, hfinish⟩ := Text.exists_run_quoted s
  refine ⟨.done (.text (some s)), ?_, Machine.settled_done _⟩
  have hchars : (quote s).toList = '"' :: (s.toList.flatMap escape ++ ['"']) := by
    simp [quote]
  have hopen : Machine.step ⟨.value, frames⟩ '"' = some ⟨.text Text.start, frames⟩ := rfl
  rw [hchars, Machine.run_cons, hopen, Option.bind_some, Machine.run_append,
    Machine.run_text hrun, Option.bind_some, Machine.run_cons]
  simp only [Machine.step, hclosed, if_true, hfinish]
  rfl

/-! ### Lists and records -/

section

variable {α β : Type}

/-- Items with commas between them and `close` behind them, each of which takes the machine from
`wait` to where it expects either. -/
theorem Machine.run_separated (wait done : List β → Machine) (value : α → β)
    {item : α → List Char} {close : Char} (items : List β) (x : α) (xs : List α)
    (h : ∀ y ∈ x :: xs, ∀ items, ∃ m, (wait items).run (item y) = some m ∧
      m.step ',' = some (wait (value y :: items)) ∧
      m.step close = some (done (value y :: items).reverse)) :
    (wait items).run ([','].intercalate ((x :: xs).map item) ++ [close]) =
      some (done (items.reverse ++ (x :: xs).map value)) := by
  obtain ⟨m, hrun, hcomma, hclose⟩ := h x List.mem_cons_self items
  induction xs generalizing x items m with
  | nil =>
    rw [List.map_singleton, List.intercalate_singleton, run_append, hrun, Option.bind_some,
      run_cons, hclose, List.reverse_cons]
    rfl
  | cons y xs ih =>
    have hrest (z : α) (hz : z ∈ y :: xs) := h z (List.mem_cons_of_mem _ hz)
    obtain ⟨m', hrun', hcomma', hclose'⟩ := hrest y List.mem_cons_self (value x :: items)
    rw [List.map_cons, List.map_cons, List.intercalate_cons_cons, List.append_assoc,
      List.append_assoc, run_append, hrun, Option.bind_some, List.singleton_append, run_cons,
      hcomma, Option.bind_some]
    refine (ih (value x :: items) y hrest m' hrun' hcomma' hclose').trans ?_
    rw [List.reverse_cons, List.append_assoc, List.map_cons (l := y :: xs)]
    rfl

theorem reads_list (text : α → String) (datum : α → Datum) (xs : List α)
    (h : ∀ x ∈ xs, Reads (text x).toList (datum x)) :
    Reads (list (xs.map text)).toList (.list (xs.map datum)) := by
  intro frames
  refine ⟨.done _, ?_, Machine.settled_done _⟩
  have hchars : (list (xs.map text)).toList =
      '[' :: ([','].intercalate (xs.map fun x => (text x).toList) ++ [']']) := by
    simp [list, String.toList_intercalate, Function.comp_def]
  have hopen : Machine.step ⟨.value, frames⟩ '[' = some ⟨.value, .list [] :: frames⟩ := rfl
  rw [hchars, Machine.run_cons, hopen, Option.bind_some]
  cases xs with
  | nil => rfl
  | cons x xs =>
    let wait (items : List Datum) : Machine := ⟨.value, .list items :: frames⟩
    let done (items : List Datum) : Machine := ⟨.done (.list items), frames⟩
    refine Machine.run_separated wait done datum [] x xs fun y hy items => ?_
    obtain ⟨mode, hrun, hsettled⟩ := h y hy (.list items :: frames)
    exact ⟨_, hrun, hsettled.step ',' (.inl rfl), hsettled.step ']' (.inr (.inl rfl))⟩

theorem reads_record (key text : α → String) (datum : α → Datum) (xs : List α)
    (h : ∀ x ∈ xs, Reads (text x).toList (datum x)) :
    Reads (record (xs.map fun x => (key x, text x))).toList
      (.record (xs.map fun x => (some (key x), datum x))) := by
  intro frames
  refine ⟨.done _, ?_, Machine.settled_done _⟩
  have hchars : (record (xs.map fun x => (key x, text x))).toList =
      '\x7b' :: ([','].intercalate (xs.map fun x => (quote (key x) ++ ":" ++ text x).toList) ++
        ['\x7d']) := by
    simp [record, String.toList_intercalate, Function.comp_def]
  have hopen : Machine.step ⟨.value, frames⟩ '\x7b' = some ⟨.key, .record [] :: frames⟩ := rfl
  rw [hchars, Machine.run_cons, hopen, Option.bind_some]
  cases xs with
  | nil => rfl
  | cons x xs =>
    let wait (fields : List (Option String × Datum)) : Machine := ⟨.key, .record fields :: frames⟩
    let done (fields : List (Option String × Datum)) : Machine := ⟨.done (.record fields), frames⟩
    refine Machine.run_separated wait done (fun y => (some (key y), datum y)) [] x xs
      fun y hy fields => ?_
    obtain ⟨mode, hrun, hsettled⟩ := h y hy (.field fields (some (key y)) :: frames)
    refine ⟨⟨mode, _⟩, ?_, hsettled.step ',' (.inl rfl), hsettled.step '\x7d' (.inr (.inr rfl))⟩
    rw [String.toList_append, Machine.run_append, Machine.run_key, Option.bind_some, hrun]

end

end CubeTrainer.Json
