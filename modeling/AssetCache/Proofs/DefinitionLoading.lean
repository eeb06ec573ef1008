import Mathlib
import AssetCache.Item.Note
import AssetCache.Proofs.NotePass
import AssetCache.Proofs.RecordGrammar
import AssetCache.Proofs.TableSplitting

/-!
# Definitions load all or not at all

The records of a table are decoded one by one, each on its own, and the first that does not decode ends it
(`mapM_cases`), so a table loads as a whole or names the record at fault (`allOrNothing_decodeAll`). A record is never
at fault for another one: its own error wraps nothing (`root_of_run_read`). Main statement:
`definitions_allOrNothing`, for items, which are resolved when all of them are there, and for objects.
-/

namespace AssetCache

/-! ### Errors of records -/

theorem FollowsGrammar.root_of_run {Op α : Type} {Spells : Op → UInt8 → Bytes → Prop} {kind : OpCodeKind}
    {make : List Op → α} {p : ByteReader α} (h : FollowsGrammar Spells kind make p) {d : Bytes} {e : LoadError}
    (he : p.run d = .error e) : e.root = e := by
  obtain ⟨⟨ops, ending⟩, hparse, -⟩ := h.parse d
  have hanswer := h.answer hparse
  rw [he] at hanswer
  cases ending with
  | closed rest => cases hanswer
  | exhausted => cases hanswer
  | unknown code =>
    cases hanswer
    rfl
  | cutOff =>
    obtain ⟨needed, remaining, hanswer⟩ := hanswer
    cases hanswer
    rfl

theorem Item.root_of_run_read {id : UInt16} {record : Bytes} {e : LoadError} (h : (read id).run record = .error e) :
    e.root = e := (reads_ops.followsGrammar (ofOps id)).root_of_run h

theorem WorldObject.root_of_run_read {id : UInt16} {record : Bytes} {e : LoadError}
    (h : (read id).run record = .error e) : e.root = e := (reads_ops.followsGrammar (ofOps id)).root_of_run h

/-! ### Ids -/

theorem Item.id_foldl_apply (i : Item) (ops : List Op) : (ops.foldl apply i).id = i.id := by
  induction ops generalizing i with
  | nil => rfl
  | cons op ops ih =>
    rw [List.foldl_cons, ih]
    cases op <;> rfl

theorem Item.id_of_run_read {id : UInt16} {record left : Bytes} {i : Item}
    (h : (read id).run record = .ok (i, left)) : i.id = id := by
  rw [read, Reader.run_map] at h
  split at h
  · cases h
  · cases h
    exact id_foldl_apply _ _

theorem WorldObject.id_foldl_apply (d : Draft) (ops : List Op) :
    (ops.foldl Draft.apply d).object.id = d.object.id := by
  induction ops generalizing d with
  | nil => rfl
  | cons op ops ih =>
    rw [List.foldl_cons, ih]
    cases op <;> rfl

theorem WorldObject.id_of_run_read {id : UInt16} {record left : Bytes} {o : WorldObject}
    (h : (read id).run record = .ok (o, left)) : o.id = id := by
  rw [read, Reader.run_map] at h
  split at h
  · cases h
  · cases h
    exact id_foldl_apply _ _

theorem Item.id_resolveNotes (table : Array Item) (i : ℕ) :
    (resolveNotes table)[i]?.map Item.id = table[i]?.map Item.id := by
  cases h : sourcesAt? table i with
  | none => rw [getElem?_resolveNotes_of_none h]
  | some sources =>
    obtain ⟨note, template, linked, hnote, -, -, hresolved⟩ := getElem?_resolveNotes_of_some h
    rw [hresolved, hnote]
    rfl

namespace DefinitionTable

variable {α β : Type} {kind : DefinitionKind} {decode : UInt16 → ByteReader α} {finish : List α → β}
  {data index : Bytes} {records : List Bytes} {as : List α}

/-! ### Records one by one -/

/-- That a record decodes on its own, as the one at a place. -/
def Decodes (decode : UInt16 → ByteReader α) (place : ℕ) (record : Bytes) (a : α) : Prop :=
  ∃ left, (decode (UInt16.ofNat place)).run record = .ok (a, left)

/-- That there is one definition for each record, which is what the record decodes to on its own. -/
def Decoded (decode : UInt16 → ByteReader α) (records : List Bytes) (as : List α) : Prop :=
  as.length = records.length ∧
    ∀ (i : ℕ) record, records[i]? = some record → ∃ a, as[i]? = some a ∧ Decodes decode i record a

/-- That the record at a place is the first that does not decode on its own, and why. -/
structure FirstFailure (decode : UInt16 → ByteReader α) (records : List Bytes) (place : ℕ) (cause : LoadError) :
    Prop where
  fails : ∃ record, records[place]? = some record ∧ (decode (UInt16.ofNat place)).run record = .error cause
  before : ∀ (i : ℕ) record, i < place → records[i]? = some record → ∃ a, Decodes decode i record a

/-- What the record at a place comes to in a table of its kind. -/
def decodeRecord (kind : DefinitionKind) (decode : UInt16 → ByteReader α) (x : Bytes × ℕ) : Except LoadError α :=
  match (decode (UInt16.ofNat x.2)).run x.1 with
  | .ok (a, _) => .ok a
  | .error e => .error (.definition kind x.2 e)

theorem decodeRecord_eq_ok_iff {x : Bytes × ℕ} {a : α} :
    decodeRecord kind decode x = .ok a ↔ Decodes decode x.2 x.1 a := by
  unfold decodeRecord Decodes
  cases (decode (UInt16.ofNat x.2)).run x.1 with
  | error e => simp
  | ok out => simp [Prod.ext_iff]

theorem decodeRecord_eq_error_iff {x : Bytes × ℕ} {e : LoadError} : decodeRecord kind decode x = .error e ↔
    ∃ cause, (decode (UInt16.ofNat x.2)).run x.1 = .error cause ∧ e = .definition kind x.2 cause := by
  unfold decodeRecord
  cases (decode (UInt16.ofNat x.2)).run x.1 with
  | error e => simp [eq_comm]
  | ok out => simp

/-- What is done to all members of a list is done to each of them, or fails at the first for which it does. -/
theorem mapM_cases {γ ε : Type} (f : γ → Except ε α) (l : List γ) :
    (∃ as, l.mapM f = .ok as ∧ as.length = l.length ∧ ∀ (i : ℕ) x, l[i]? = some x → ∃ a, as[i]? = some a ∧ f x = .ok a) ∨
      ∃ (i : ℕ) (x : γ) (e : ε), l.mapM f = .error e ∧ l[i]? = some x ∧ f x = .error e ∧
        ∀ j y, j < i → l[j]? = some y → ∃ a, f y = .ok a := by
  induction l with
  | nil => exact .inl ⟨[], rfl, rfl, by simp⟩
  | cons x l ih =>
    rw [List.mapM_cons]
    cases hx : f x with
    | error e => exact .inr ⟨0, x, e, rfl, rfl, hx, by simp⟩
    | ok a =>
      rcases ih with ⟨as, hl, hlength, hall⟩ | ⟨i, y, e, hl, hy, hfails, hbefore⟩
      · refine .inl ⟨a :: as, by rw [hl]; rfl, by simp [hlength], fun i y hi => ?_⟩
        cases i with
        | zero =>
          obtain rfl : x = y := by simpa using hi
          exact ⟨a, rfl, hx⟩
        | succ i => exact hall i y hi
      · refine .inr ⟨i + 1, y, e, by rw [hl]; rfl, hy, hfails, fun j z hj hz => ?_⟩
        cases j with
        | zero =>
          obtain rfl : x = z := by simpa using hz
          exact ⟨a, hx⟩
        | succ j => exact hbefore j z (by omega) hz

/-! ### A table -/

theorem decodeAll_of_split_error {e : LoadError} (h : split data index = .error e) :
    decodeAll kind decode data index = .error e := by
  rw [decodeAll, h]
  rfl

/-- Each record is decoded, or the first that fails is named. -/
theorem decodeAll_of_split (kind : DefinitionKind) (decode : UInt16 → ByteReader α)
    (h : split data index = .ok records) :
    (∃ as, decodeAll kind decode data index = .ok as ∧ Decoded decode records as) ∨
      ∃ place cause, decodeAll kind decode data index = .error (.definition kind place cause) ∧
        FirstFailure decode records place cause := by
  have hdecode : decodeAll kind decode data index = records.zipIdx.mapM (decodeRecord kind decode) := by
    rw [decodeAll, h]
    rfl
  have hplace : ∀ (i : ℕ) record, records[i]? = some record → records.zipIdx[i]? = some (record, i) := by
    intro i record hi
    simp [List.getElem?_zipIdx, hi]
  rw [hdecode]
  rcases mapM_cases (decodeRecord kind decode) records.zipIdx with
    ⟨as, hall, hlength, hdecoded⟩ | ⟨place, x, e, hall, hx, hfails, hbefore⟩
  · refine .inl ⟨as, hall, by simpa using hlength, fun i record hi => ?_⟩
    obtain ⟨a, ha, hrecord⟩ := hdecoded i _ (hplace i record hi)
    exact ⟨a, ha, decodeRecord_eq_ok_iff.1 hrecord⟩
  · obtain ⟨record, hrecord, rfl⟩ : ∃ record, records[place]? = some record ∧ (record, place) = x := by
      simpa [List.getElem?_zipIdx] using hx
    obtain ⟨cause, hcause, rfl⟩ := decodeRecord_eq_error_iff.1 hfails
    refine .inr ⟨place, cause, hall, ⟨record, hrecord, hcause⟩, fun i record' hi hrecord' => ?_⟩
    obtain ⟨a, ha⟩ := hbefore i _ hi (hplace i record' hrecord')
    exact ⟨a, decodeRecord_eq_ok_iff.1 ha⟩

theorem Fault.root {e : LoadError} (h : Fault data index e) : e.root = e := by
  cases h <;> rfl

/-- That a table loads as a whole or not at all: `finish` makes the definitions of a table into what is loaded, and
a failure is that of the table itself or names the first record at fault. -/
structure AllOrNothing (kind : DefinitionKind) (decode : UInt16 → ByteReader α) (finish : List α → β)
    (data index : Bytes) (outcome : Except LoadError β) : Prop where
  loads_iff : (∃ b, outcome = .ok b) ↔ ∃ records, split data index = .ok records ∧
    ∀ (i : ℕ) record, records[i]? = some record → ∃ a, Decodes decode i record a
  loaded : ∀ records b, split data index = .ok records → outcome = .ok b →
    ∃ as, Decoded decode records as ∧ b = finish as
  unsplit : ∀ e, split data index = .error e → outcome = .error e ∧ e.root = e
  culprit : ∀ records e, split data index = .ok records → outcome = .error e →
    ∃ place cause, FirstFailure decode records place cause ∧ e = .definition kind place cause ∧ e.root = cause

theorem FirstFailure.not_decodes {place : ℕ} {cause : LoadError} (h : FirstFailure decode records place cause) :
    ¬ ∀ (i : ℕ) record, records[i]? = some record → ∃ a, Decodes decode i record a := by
  intro hall
  obtain ⟨record, hrecord, hfails⟩ := h.fails
  obtain ⟨a, left, hdecodes⟩ := hall place record hrecord
  rw [hfails] at hdecodes
  cases hdecodes

theorem allOrNothing_of_unsplit {e : LoadError} (h : split data index = .error e) :
    AllOrNothing kind decode finish data index (.error e) := by
  refine ⟨by simp [h], by simp [h], fun e' he' => ?_, by simp [h]⟩
  rw [h] at he'
  cases he'
  exact ⟨rfl, (split_eq_error_iff.1 h).root⟩

theorem allOrNothing_of_decoded (h : split data index = .ok records) (hdecoded : Decoded decode records as) :
    AllOrNothing kind decode finish data index (.ok (finish as)) := by
  refine ⟨⟨fun _ => ⟨records, h, fun i record hi => ?_⟩, fun _ => ⟨finish as, rfl⟩⟩, fun records' b h' hb => ?_,
    by simp [h], by simp⟩
  · obtain ⟨a, -, ha⟩ := hdecoded.2 i record hi
    exact ⟨a, ha⟩
  · rw [h] at h'
    cases h'
    cases hb
    exact ⟨as, hdecoded, rfl⟩

theorem allOrNothing_of_firstFailure {place : ℕ} {cause : LoadError} (h : split data index = .ok records)
    (hfirst : FirstFailure decode records place cause) (hroot : cause.root = cause) :
    AllOrNothing kind decode finish data index (.error (.definition kind place cause)) := by
  refine ⟨⟨by simp, ?_⟩, by simp, by simp [h], fun records' e h' he => ?_⟩
  · rintro ⟨records', h', hall⟩
    rw [h] at h'
    cases h'
    exact absurd hall hfirst.not_decodes
  · rw [h] at h'
    cases h'
    cases he
    exact ⟨place, cause, hfirst, rfl, hroot⟩

theorem allOrNothing_decodeAll (kind : DefinitionKind) (decode : UInt16 → ByteReader α)
    (hroot : ∀ id record e, (decode id).run record = .error e → e.root = e) (finish : List α → β)
    (data index : Bytes) : AllOrNothing kind decode finish data index
      ((decodeAll kind decode data index).map finish) := by
  cases h : split data index with
  | error e =>
    rw [decodeAll_of_split_error h]
    exact allOrNothing_of_unsplit h
  | ok records =>
    rcases decodeAll_of_split kind decode h with ⟨as, hall, hdecoded⟩ | ⟨place, cause, hall, hfirst⟩
    · rw [hall]
      exact allOrNothing_of_decoded h hdecoded
    · rw [hall]
      obtain ⟨record, -, hfails⟩ := hfirst.fails
      exact allOrNothing_of_firstFailure h hfirst (hroot _ _ _ hfails)

theorem length_lt_of_split (h : split data index = .ok records) : records.length < 65536 := by
  obtain ⟨count, sizes, left, -, hn, -, hslices⟩ := split_eq_ok_iff.1 h
  have hlength : records.length = sizes.length := by simpa using congrArg List.length hslices.sizes_eq
  have hcount := count.toNat_lt
  omega

/-- The definition at a place has it as its id, if decoding gives definitions the ids that it is asked for. -/
theorem id_of_decoded {id : α → UInt16} (h : split data index = .ok records)
    (hid : ∀ place record left a, (decode place).run record = .ok (a, left) → id a = place)
    (hdecoded : Decoded decode records as) {i : ℕ} {a : α} (ha : as[i]? = some a) : (id a).toNat = i := by
  obtain ⟨hlength, hall⟩ := hdecoded
  have hi : i < records.length := by
    obtain ⟨hi, -⟩ := List.getElem?_eq_some_iff.1 ha
    omega
  obtain ⟨a', ha', left, hrun⟩ := hall i records[i] (List.getElem?_eq_getElem hi)
  obtain rfl : a = a' := by simpa [ha] using ha'
  have hrange := length_lt_of_split h
  rw [hid _ _ _ _ hrun]
  exact UInt16.toNat_ofNat_of_lt' (by simp only [UInt16.size]; omega)

end DefinitionTable

open DefinitionTable

theorem Item.decodeAll_eq_map (data index : Bytes) : Item.decodeAll data index =
    (DefinitionTable.decodeAll .item Item.read data index).map fun items => resolveNotes items.toArray := by
  unfold Item.decodeAll
  cases DefinitionTable.decodeAll .item Item.read data index <;> rfl

theorem WorldObject.decodeAll_eq_map (data index : Bytes) : WorldObject.decodeAll data index =
    (DefinitionTable.decodeAll .object WorldObject.read data index).map fun objects => objects := by
  unfold WorldObject.decodeAll
  cases DefinitionTable.decodeAll .object WorldObject.read data index <;> rfl

/-- Items and objects load exactly if their table can be split and every record decodes on its own. Then the
definition at a place has it as its id, and objects are what the records say, items what one pass over all of their
notes makes of that. A table that cannot be split is at fault itself; else the first record that does not decode is
named, once, around its own error. -/
theorem definitions_allOrNothing (data index : Bytes) :
    AllOrNothing .item Item.read (fun items => Item.resolveNotes items.toArray) data index
      (Item.decodeAll data index) ∧
    AllOrNothing .object WorldObject.read (fun objects => objects) data index (WorldObject.decodeAll data index) ∧
    (∀ records items, split data index = .ok records → Item.decodeAll data index = .ok items →
      items.size = records.length ∧ ∀ (i : ℕ) item, items[i]? = some item → item.id.toNat = i) ∧
    ∀ records objects, split data index = .ok records → WorldObject.decodeAll data index = .ok objects →
      objects.length = records.length ∧ ∀ (i : ℕ) object, objects[i]? = some object → object.id.toNat = i := by
  have hitems := allOrNothing_decodeAll .item Item.read (fun _ _ _ => Item.root_of_run_read)
    (fun items => Item.resolveNotes items.toArray) data index
  have hobjects := allOrNothing_decodeAll .object WorldObject.read (fun _ _ _ => WorldObject.root_of_run_read)
    (fun objects => objects) data index
  rw [← Item.decodeAll_eq_map] at hitems
  rw [← WorldObject.decodeAll_eq_map] at hobjects
  refine ⟨hitems, hobjects, fun records items hsplit hload => ?items, fun records objects hsplit hload => ?objects⟩
  case items =>
    obtain ⟨as, hdecoded, rfl⟩ := hitems.loaded records items hsplit hload
    refine ⟨by simpa [Item.size_resolveNotes] using hdecoded.1, fun i item hi => ?_⟩
    have hid := Item.id_resolveNotes as.toArray i
    rw [hi, List.getElem?_toArray] at hid
    obtain ⟨a, ha, haid⟩ := Option.map_eq_some_iff.1 hid.symm
    rw [← haid]
    exact id_of_decoded hsplit (fun _ _ _ _ => Item.id_of_run_read) hdecoded ha
  case objects =>
    obtain ⟨as, hdecoded, rfl⟩ := hobjects.loaded records objects hsplit hload
    exact ⟨hdecoded.1, fun i object hi => id_of_decoded hsplit (fun _ _ _ _ => WorldObject.id_of_run_read) hdecoded hi⟩

/-- An item and its note, and records of which the second and the third are spoiled. -/
def noted : List Bytes := [[2, 0x41, 10, 0], [98, 0, 0, 97, 0, 0]]

def spoiled : List Bytes := [[0], [250, 0], [1, 0], []]

theorem definitions_allOrNothing_samples :
    (∃ items, Item.decodeAll (joinData noted) (joinIndex noted) = .ok items ∧ items.size = 2 ∧
      ∀ (i : ℕ) item, items[i]? = some item → item.id.toNat = i) ∧
    WorldObject.decodeAll (joinData spoiled) (joinIndex spoiled) =
      .error (.definition .object 1 (.unknownOpCode .object 250)) ∧
    FirstFailure WorldObject.read spoiled 1 (.unknownOpCode .object 250) ∧
    Item.decodeAll [0, 2, 250] [0, 2, 0, 1, 0, 5] = .error (.corrupted (.recordBeyondData 1 3 8 3)) := by
  have hnoted : split (joinData noted) (joinIndex noted) = .ok noted := split_join (by decide) (by decide)
  have hspoiled : split (joinData spoiled) (joinIndex spoiled) = .ok spoiled := split_join (by decide) (by decide)
  have hload : Item.decodeAll (joinData noted) (joinIndex noted) = .ok
      #[{ id := 0, name := some "A" },
        { id := 1, name := some "A", stackable := true, description := some Item.noteDescription,
          noteId := some 0, noteTemplateId := some 0 }] := by decide +kernel
  have hfail : WorldObject.decodeAll (joinData spoiled) (joinIndex spoiled) =
      .error (.definition .object 1 (.unknownOpCode .object 250)) := by decide +kernel
  obtain ⟨place, cause, hfirst, he, -⟩ := (definitions_allOrNothing _ _).2.1.culprit _ _ hspoiled hfail
  cases he
  have hleaves : split [0, 2, 250] [0, 2, 0, 1, 0, 5] = .error (.corrupted (.recordBeyondData 1 3 8 3)) := by rfl
  exact ⟨⟨_, hload, (definitions_allOrNothing _ _).2.2.1 _ _ hnoted hload⟩, hfail, hfirst,
    ((definitions_allOrNothing _ _).1.unsplit _ hleaves).1⟩

end AssetCache
