import CubeTrainer.Proofs.Json.Reading
import CubeTrainer.Store

/-!
# Records in a store

A store keeps one position and one text for each name, under keys of their own. `Save` is something
to be kept, and after any saves a store gives back the position saved last and, for each name, the
text saved last (`position_writeAll`, `override?_writeAll`). This takes a key for the position that
no name can lead to (`Config.Separate`), and positions whose numbers have 64 bits.
-/

namespace CubeTrainer

/-! ### Positions -/

/-- Both numbers have 64 bits. -/
def Position.Fits (p : Position) : Prop :=
  p.group < UInt64.size ∧ p.index < UInt64.size

instance (p : Position) : Decidable p.Fits :=
  inferInstanceAs (Decidable (_ ∧ _))

theorem Position.ofJson_json {p : Position} (h : p.Fits) : Position.ofJson p.json = .ok p := by
  have hread := Json.read_of_reads (Json.reads_record Prod.fst
    (fun f : String × Nat => toString f.2) (fun f => .natural f.2)
    [("group", p.group), ("index", p.index)] fun f _ => Json.reads_number f.2)
  have hjson : p.json = Json.record ([("group", p.group), ("index", p.index)].map
      fun f => (f.1, toString f.2)) := rfl
  rw [ofJson, Format.readAs, Format.read, hjson, hread]
  simp [read, Datum.readFields, Datum.readKeys, Datum.required, Datum.readBelow, List.lookup_cons,
    h.1, h.2, pure, bind, Except.pure, Except.bind, Except.mapError]

/-! ### Keys -/

/-- The key of the position does not begin like the keys of edited texts. -/
def Config.Separate (c : Config) : Prop :=
  ¬ c.overridePrefix.toList <+: c.positionKey.toList

instance (c : Config) : Decidable c.Separate :=
  inferInstanceAs (Decidable (¬ _))

namespace Config

variable {c : Config}

theorem toList_overrideKey (c : Config) (name : String) :
    (c.overrideKey name).toList = c.overridePrefix.toList ++ name.toList :=
  String.toList_append

theorem overrideKey_inj {name name' : String} :
    c.overrideKey name = c.overrideKey name' ↔ name = name' := by
  rw [← String.toList_inj, toList_overrideKey, toList_overrideKey, List.append_cancel_left_eq,
    String.toList_inj]

theorem Separate.overrideKey_ne (h : c.Separate) (name : String) :
    c.overrideKey name ≠ c.positionKey := by
  intro hkey
  refine h ⟨name.toList, ?_⟩
  rw [← hkey, toList_overrideKey]

end Config

/-! ### Saves -/

/-- Something to be kept in a store: a position, or an edited text for the entries called `name`. -/
inductive Save where
  | position (p : Position)
  | text (name content : String)
deriving DecidableEq

namespace Save

def write (c : Config) : Save → Write
  | .position p => c.positionWrite p
  | .text name content => c.overrideWrite name content

def position? : Save → Option Position
  | .position p => some p
  | .text _ _ => none

def textFor? (name : String) : Save → Option String
  | .position _ => none
  | .text n content => if n = name then some content else none

def lastPosition? (saves : List Save) : Option Position :=
  (saves.filterMap position?).getLast?

def lastText? (name : String) (saves : List Save) : Option String :=
  (saves.filterMap (textFor? name)).getLast?

theorem position?_eq_some {save : Save} {p : Position} :
    save.position? = some p ↔ save = .position p := by
  cases save <;> simp [position?]

theorem textFor?_eq_some {save : Save} {name content : String} :
    save.textFor? name = some content ↔ save = .text name content := by
  cases save <;> simp [textFor?]

theorem getLast?_toList_append {α : Type} (f : Save → Option α) (save : Option Save)
    (saves : List Save) :
    ((save.toList ++ saves).filterMap f).getLast? =
      (saves.filterMap f).getLast?.or (save.bind f) := by
  have hfirst : (save.toList.filterMap f).getLast? = save.bind f := by
    cases save with
    | none => rfl
    | some save => cases h : f save <;> simp [h]
  rw [List.filterMap_append, List.getLast?_append, hfirst]

theorem lastPosition?_toList_append (save : Option Save) (saves : List Save) :
    lastPosition? (save.toList ++ saves) = (lastPosition? saves).or (save.bind position?) :=
  getLast?_toList_append position? save saves

theorem lastText?_toList_append (name : String) (save : Option Save) (saves : List Save) :
    lastText? name (save.toList ++ saves) =
      (lastText? name saves).or (save.bind (textFor? name)) :=
  getLast?_toList_append (textFor? name) save saves

theorem mem_of_lastPosition? {p : Position} {saves : List Save}
    (h : lastPosition? saves = some p) : .position p ∈ saves := by
  obtain ⟨save, hmem, hsave⟩ := List.mem_filterMap.1 (List.mem_of_getLast? h)
  exact position?_eq_some.1 hsave ▸ hmem

theorem mem_of_lastText? {name content : String} {saves : List Save}
    (h : lastText? name saves = some content) : .text name content ∈ saves := by
  obtain ⟨save, hmem, hsave⟩ := List.mem_filterMap.1 (List.mem_of_getLast? h)
  exact textFor?_eq_some.1 hsave ▸ hmem

end Save

/-! ### Stores after saves -/

namespace Store

variable {c : Config}

/-- The store after writes none of which is refused. -/
def writeAll (s : Store) (ws : List Write) : Store :=
  ws.foldl (fun s w => s.insert w.key w.value) s

theorem writeAll_append (s : Store) (ws ws' : List Write) :
    s.writeAll (ws ++ ws') = (s.writeAll ws).writeAll ws' :=
  List.foldl_append

theorem position_insert (hc : c.Separate) (s : Store) {save : Save}
    (h : ∀ p, save = .position p → p.Fits) :
    position (s.insert (save.write c).key (save.write c).value) c =
      save.position?.getD (s.position c) := by
  rw [position, SortedMap.get?_insert]
  cases save with
  | position p =>
    have hkey : ((Save.position p).write c).key = c.positionKey := rfl
    have hvalue : ((Save.position p).write c).value = p.json := rfl
    rw [hkey, hvalue, if_pos rfl]
    simp only [Position.ofJson_json (h p rfl)]
    rfl
  | text name content =>
    have hkey : ((Save.text name content).write c).key = c.overrideKey name := rfl
    rw [hkey, if_neg (Ne.symm (hc.overrideKey_ne name))]
    rfl

theorem position_writeAll (hc : c.Separate) (s : Store) {saves : List Save}
    (h : ∀ p, .position p ∈ saves → p.Fits) :
    (s.writeAll (saves.map (Save.write c))).position c =
      (Save.lastPosition? saves).getD (s.position c) := by
  induction saves generalizing s with
  | nil => rfl
  | cons save saves ih =>
    have hrest := ih (s.insert (save.write c).key (save.write c).value)
      fun p hp => h p (List.mem_cons_of_mem _ hp)
    have hlast : Save.lastPosition? (save :: saves) = _ :=
      Save.lastPosition?_toList_append (some save) saves
    rw [position_insert hc s fun p hp => h p (hp ▸ List.mem_cons_self)] at hrest
    rw [hlast]
    refine hrest.trans ?_
    cases Save.lastPosition? saves <;> rfl

theorem get?_overrideKey_insert (hc : c.Separate) (s : Store) (save : Save) (name : String) :
    (s.insert (save.write c).key (save.write c).value).get? (c.overrideKey name) =
      (save.textFor? name).or (s.get? (c.overrideKey name)) := by
  rw [SortedMap.get?_insert]
  cases save with
  | position p => exact if_neg (hc.overrideKey_ne name)
  | text n content =>
    have hkey : ((Save.text n content).write c).key = c.overrideKey n := rfl
    simp only [hkey, Config.overrideKey_inj, Save.textFor?, eq_comm (a := name)]
    split <;> rfl

theorem get?_overrideKey_writeAll (hc : c.Separate) (s : Store) (saves : List Save)
    (name : String) :
    (s.writeAll (saves.map (Save.write c))).get? (c.overrideKey name) =
      (Save.lastText? name saves).or (s.get? (c.overrideKey name)) := by
  induction saves generalizing s with
  | nil => rfl
  | cons save saves ih =>
    have hrest := ih (s.insert (save.write c).key (save.write c).value)
    have hlast : Save.lastText? name (save :: saves) = _ :=
      Save.lastText?_toList_append name (some save) saves
    rw [get?_overrideKey_insert hc, ← Option.or_assoc] at hrest
    rw [hlast]
    exact hrest

theorem override?_insert (s : Store) (name text name' : String) :
    override? (s.insert (c.overrideKey name) text) c name' =
      if name' = name then (if text.isEmpty then none else some text) else s.override? c name' := by
  rw [override?, SortedMap.get?_insert, override?]
  simp only [Config.overrideKey_inj]
  split
  · cases hempty : text.isEmpty <;> simp [Option.filter, hempty]
  · rfl

theorem override?_writeAll (hc : c.Separate) (s : Store) (saves : List Save) (name : String) :
    (s.writeAll (saves.map (Save.write c))).override? c name =
      match Save.lastText? name saves with
      | some content => if content.isEmpty then none else some content
      | none => s.override? c name := by
  rw [override?, get?_overrideKey_writeAll hc]
  cases Save.lastText? name saves with
  | none => rfl
  | some content => cases hempty : content.isEmpty <;> simp [Option.filter, hempty]

end Store

end CubeTrainer
