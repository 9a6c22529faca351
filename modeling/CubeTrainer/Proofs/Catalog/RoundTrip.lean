import CubeTrainer.Catalog.Text
import CubeTrainer.Proofs.Catalog.Entries
import CubeTrainer.Proofs.Json.Reading

/-!
# Catalogs written and read again

A catalog that is written as JSON and read again has its authored texts in use, and is the same
otherwise (`ofText_json`). In between stands what the text says, as a datum: of each part of a
catalog it is shown that the part is written as a text that says so, and that it is read from there.
-/

namespace CubeTrainer

/-! ### Lists of data -/

theorem mapM_map_ok {α β γ ε : Type} {f : β → Except ε γ} {g : α → β} {h : α → γ}
    (hf : ∀ a, f (g a) = .ok (h a)) (as : List α) : (as.map g).mapM f = .ok (as.map h) := by
  induction as with
  | nil => rfl
  | cons a as ih =>
    rw [List.map_cons, List.mapM_cons, hf, ih]
    rfl

namespace Datum

theorem readList_map {α β : Type} {read : Datum → Except ShapeError β} {datum : α → Datum}
    {value : α → β} (h : ∀ a, read (datum a) = .ok (value a)) (as : List α) :
    readList read (.list (as.map datum)) = .ok (as.map value) :=
  mapM_map_ok h as

theorem readKeys_map (fields : List (String × Datum)) :
    readKeys (fields.map fun f => (some f.1, f.2)) = .ok fields := by
  unfold readKeys
  induction fields with
  | nil => rfl
  | cons f fields ih =>
    rw [List.map_cons, List.mapM_cons, ih]
    rfl

end Datum

/-! ### Parts of catalogs -/

def Strip.datum (s : Strip) : Datum :=
  .record (s.entries.map fun e => (some e.1, .list (e.2.map fun n => .natural n.toNat)))

def Entry.datum (e : Entry) : Datum :=
  .record [(some "name", .text (some e.name)), (some "default", .text (some e.authored))]

def Group.datum (g : Group) : Datum :=
  .record [(some "name", .text (some g.name)), (some "strip", Strip.datum g.strip),
    (some "algs", .list (g.entries.map Entry.datum))]

theorem Strip.reads_json (s : Strip) : Json.Reads (Strip.json s).toList (Strip.datum s) :=
  Json.reads_record Prod.fst _ _ s.entries fun e _ =>
    Json.reads_list _ _ e.2 fun n _ => Json.reads_number n.toNat

theorem Entry.reads_json (e : Entry) : Json.Reads e.json.toList e.datum := by
  refine Json.reads_record Prod.fst (fun f : String × String => Json.quote f.2)
    (fun f => .text (some f.2)) [("name", e.name), ("default", e.authored)] fun f _ => ?_
  exact Json.reads_text f.2

theorem Group.reads_json (g : Group) : Json.Reads g.json.toList g.datum := by
  refine Json.reads_record (fun f : String × String × Datum => f.1) (·.2.1) (·.2.2)
    [("name", Json.quote g.name, .text (some g.name)),
      ("strip", Strip.json g.strip, Strip.datum g.strip),
      ("algs", Json.list (g.entries.map Entry.json), .list (g.entries.map Entry.datum))]
    fun f hf => ?_
  simp only [List.mem_cons, List.not_mem_nil, or_false] at hf
  rcases hf with rfl | rfl | rfl
  · exact Json.reads_text g.name
  · exact Strip.reads_json g.strip
  · exact Json.reads_list _ _ g.entries fun e _ => Entry.reads_json e

theorem readSticker_natural (n : UInt32) : readSticker (.natural n.toNat) = .ok n := by
  rw [readSticker, Datum.readBelow, if_pos n.toNat_lt_size]
  simp [Except.map]

theorem Strip.read_datum (s : Strip) : Strip.read (Strip.datum s) = .ok s := by
  let faces : List (String × Datum) :=
    s.entries.map fun e => (e.1, .list (e.2.map fun n => .natural n.toNat))
  have hdatum : Strip.datum s = .record (faces.map fun f => (some f.1, f.2)) := by
    simp [Strip.datum, faces, Function.comp_def]
  have hstickers (stickers : List UInt32) :
      Datum.readList readSticker (.list (stickers.map fun n => .natural n.toNat)) = .ok stickers :=
    (Datum.readList_map readSticker_natural stickers).trans (by rw [List.map_id'])
  have hfaces : faces.mapM (fun f => (Datum.readList readSticker f.2).map (f.1, ·)) =
      .ok (s.entries.map id) := mapM_map_ok (fun e => by rw [hstickers]; rfl) s.entries
  have hread : Strip.read (.record (faces.map fun f => (some f.1, f.2))) =
      (faces.mapM fun f => (Datum.readList readSticker f.2).map (f.1, ·)).map SortedMap.ofList := by
    rw [Strip.read, Datum.readKeys_map]
    rfl
  rw [hdatum, hread, hfaces, List.map_id]
  exact congrArg Except.ok (SortedMap.ofList_entries s)

theorem Entry.read_datum (e : Entry) :
    Entry.read .json e.datum = .ok { e with current := "" } := by
  simp [Entry.read, Entry.datum, Datum.readFields, Datum.readKeys, Datum.required, Datum.optional,
    Datum.readText, List.lookup_cons, pure, bind, Except.pure, Except.bind]

theorem Group.read_datum (g : Group) :
    Group.read .json g.datum =
      .ok { g with entries := g.entries.map fun e => { e with current := "" } } := by
  have hentries := Datum.readList_map Entry.read_datum g.entries
  simp [Group.read, Group.datum, Datum.readFields, Datum.readKeys, Datum.required, Datum.optional,
    Datum.readText, List.lookup_cons, pure, bind, Except.pure, Except.bind, Strip.read_datum,
    hentries]

/-! ### Whole catalogs -/

namespace Catalog

theorem groups_pristine (c : Catalog) : c.pristine.groups = c.groups.map fun g =>
    { g with entries := g.entries.map fun e => { e with current := e.authored } } :=
  groups_mapCurrent Entry.authored c

theorem read_json (c : Catalog) : Json.read c.json = some (.list (c.groups.map Group.datum)) :=
  Json.read_of_reads (Json.reads_list _ _ c.groups fun g _ => Group.reads_json g)

theorem ofGroups_read (c : Catalog) :
    ofGroups (c.groups.map fun g =>
      { g with entries := g.entries.map fun e => { e with current := "" } }) = .ok c.pristine := by
  have hnames : ∀ g ∈ (c.groups.map fun g =>
      { g with entries := g.entries.map fun e => { e with current := "" } } : List Group),
      g.names.Nodup := by
    intro g hg
    obtain ⟨g₀, hg₀, rfl⟩ := List.mem_map.1 hg
    simpa [Group.names, Function.comp_def] using c.nodup_names g₀ hg₀
  obtain ⟨c', hc', hgroups⟩ := exists_ofGroups hnames
  have hsame : c'.groups = c.pristine.groups := by
    rw [hgroups, groups_pristine, List.map_map]
    refine List.map_congr_left fun g _ => ?_
    simp [Group.mapEntries, mapIdx_const, Function.comp_def, Entry.fillIn]
  obtain ⟨groups, _⟩ := c'
  obtain rfl : groups = c.pristine.groups := hsame
  exact hc'

theorem json_pristine (c : Catalog) : c.pristine.json = c.json := by
  have hgroup (g : Group) : Group.json
      { g with entries := g.entries.map fun e => { e with current := e.authored } } = g.json := by
    simp only [Group.json, List.map_map]
    rfl
  rw [json, groups_pristine, List.map_map, json]
  exact congrArg Json.list (List.map_congr_left fun g _ => hgroup g)

end Catalog

/-- What is written of any catalog is read as this catalog with each authored text in use, and is
written of that again. -/
theorem ofText_json (c : Catalog) :
    Catalog.ofText .json c.json = .ok c.pristine ∧ c.pristine.json = c.json := by
  refine ⟨?_, c.json_pristine⟩
  have hgroups := Datum.readList_map Group.read_datum c.groups
  rw [Catalog.ofText, Format.readAs, Format.read, c.read_json]
  simp only [readGroups, hgroups, Except.mapError]
  exact c.ofGroups_read

/-- Quotes, backslashes and control characters in names and faces, and an edited text. -/
def sampleScript : Catalog where
  groups := [⟨"2-look \"OLL\"\n", SortedMap.empty.insert "\\\t" [0, 4294967295],
    [⟨"Ü\x01", "R U R'", "edited"⟩]⟩, ⟨"", .empty, []⟩]
  nodup_names := by decide

example : sampleScript.json =
    "[\x7b\"name\":\"2-look \\\"OLL\\\"\\n\",\"strip\":\x7b\"\\\\\\t\":[0,4294967295]\x7d," ++
    "\"algs\":[\x7b\"name\":\"Ü\\u0001\",\"default\":\"R U R'\"\x7d]\x7d," ++
    "\x7b\"name\":\"\",\"strip\":\x7b\x7d,\"algs\":[]\x7d]" := by
  decide +kernel

end CubeTrainer
