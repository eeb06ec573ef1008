import Mathlib
import AssetCache.Proofs.ArchivePacking
import AssetCache.Proofs.ManagerAnswers
import AssetCache.Proofs.SectorWrites

/-!
# Loading a cache that was written

`Stocks` says which writes lay down the asset files: each named file in an archive that `Carries` it, the map
files on their own. Main statement: `loadAll_written`, a manager that is new to the store loads what the files
decode to.
-/

namespace AssetCache

/-- The files that everything is decoded from, but for the map files. -/
structure AssetFiles where
  itemData : Bytes
  itemIndex : Bytes
  objectData : Bytes
  objectIndex : Bytes
  interfaces : Bytes
  regions : Bytes

/-- What the files hold, with map files from `fetch`, or the first failure. -/
def AssetFiles.decode (f : AssetFiles) (fetch : UInt16 → Except LoadError Bytes) :
    Except LoadError Assets := do
  let items ← Item.decodeAll f.itemData f.itemIndex
  let objects ← WorldObject.decodeAll f.objectData f.objectIndex
  let interfaces ← InterfaceTable.decode f.interfaces
  let regions ← Region.decodeAll f.regions
  let map ← (WorldMap.build regions objects.length fetch).2
  pure { items, objects, interfaces, map }

/-! ### Files under names -/

namespace Archive

/-- That a container holds contents under names, in any order and possibly with other files, none of which
has the hash of a name. -/
def Carries (raw : Bytes) (named : List (String × Bytes)) : Prop :=
  ∃ files others, Packs files raw ∧ files.length < 0x10000 ∧ (∀ f ∈ files, f.Fits) ∧
    (files.map fun f => (f.hash, f.content)).Perm (named.map (fun p => (nameHash p.1, p.2)) ++ others) ∧
    ∀ o ∈ others, ∀ p ∈ named, o.1 ≠ nameHash p.1

/-- Names of different hashes keep their contents apart. -/
theorem file_of_carries {raw : Bytes} {named : List (String × Bytes)} (h : Carries raw named)
    (hnodup : (named.map fun p => nameHash p.1).Nodup) :
    ∃ a, parse raw = .ok a ∧ ∀ p ∈ named, a.file p.1 = .ok p.2 := by
  obtain ⟨files, others, hpacks, hcount, hfit, hperm, hothers⟩ := h
  obtain ⟨a, hparse, hlookup⟩ := lookup_of_packs hpacks hcount hfit
  refine ⟨a, hparse, fun p hp => ?_⟩
  rw [file, hlookup]
  have hmem : (nameHash p.1, p.2) ∈ files.map fun f => (f.hash, f.content) :=
    hperm.mem_iff.2 (List.mem_append_left _ (List.mem_map.2 ⟨p, hp, rfl⟩))
  obtain ⟨f, hf, hfp⟩ := List.mem_map.1 hmem
  split
  · next g hg =>
    have hhash : g.hash = nameHash p.1 := by simpa using List.find?_some hg
    have hgmem : (g.hash, g.content) ∈ named.map (fun p => (nameHash p.1, p.2)) ++ others :=
      hperm.mem_iff.1 (List.mem_map.2 ⟨g, List.mem_of_find?_eq_some hg, rfl⟩)
    rcases List.mem_append.1 hgmem with hg' | hg'
    · obtain ⟨q, hq, hqg⟩ := List.mem_map.1 hg'
      obtain ⟨hqh, hqc⟩ := Prod.mk.inj hqg
      rw [← hqc, List.inj_on_of_nodup_map hnodup hq hp (hqh.trans hhash)]
    · exact absurd hhash (hothers _ hg' p hp)
  · next hnone =>
    exact absurd (congrArg Prod.fst hfp) (by simpa using List.find?_eq_none.1 hnone f hf)

/-- The plain container of files under names. -/
def ofNamed (named : List (String × Bytes)) : Bytes :=
  encodePlain (encodePayload (named.map fun p => .plain (nameHash p.1) p.2))

theorem carries_ofNamed {packed named : List (String × Bytes)} (hperm : packed.Perm named)
    (hcount : packed.length < 0x10000) (hfit : ∀ p ∈ packed, p.2.length < 0x1000000)
    (hlen : (encodePayload (packed.map fun p => .plain (nameHash p.1) p.2)).length < 0x1000000) :
    Carries (ofNamed packed) named := by
  refine ⟨_, [], .each _ hlen ?_, by rwa [List.length_map], ?_, ?_, fun _ h => nomatch h⟩
  · exact List.forall_mem_map.2 fun p _ => .inl rfl
  · exact List.forall_mem_map.2 fun p hp => ⟨hfit p hp, hfit p hp⟩
  · rw [List.map_map, List.append_nil]
    exact hperm.map fun p => (nameHash p.1, p.2)

end Archive

namespace Manager
open Archive SectorStore

/-- That writes stock a cache of `n` categories with the asset files and the map files `maps`. -/
structure Stocks (n : Nat) (ws : List Write) (f : AssetFiles) (maps : UInt16 → Option Bytes) : Prop where
  room : 5 ≤ n ∧ n ≤ 255
  fits : ∀ w ∈ ws, w.Fits n
  sectorCount : ((SectorStore.empty n).writeAll ws).sectorCount < 0x1000000
  config : ∃ raw ∈ lastWrite? ws archiveCategory configArchive,
    Carries raw [("obj.dat", f.itemData), ("obj.idx", f.itemIndex), ("loc.dat", f.objectData),
      ("loc.idx", f.objectIndex)]
  interfaces : ∃ raw ∈ lastWrite? ws archiveCategory interfaceArchive, Carries raw [("data", f.interfaces)]
  versions : ∃ raw ∈ lastWrite? ws archiveCategory versionArchive, Carries raw [("map_index", f.regions)]
  maps : ∀ id : UInt16, lastWrite? ws mapCategory id.toUInt32 = maps id

variable {n : Nat} {ws : List Write} {f : AssetFiles} {maps : UInt16 → Option Bytes}

/-- The map file with the given id, if there is one; `fault` says what is wrong with its index entry
otherwise. -/
def fetchOf (maps : UInt16 → Option Bytes) (fault : UInt16 → IndexFault) (id : UInt16) :
    Except LoadError Bytes :=
  match maps id with
  | some file => .ok file
  | none => .error (.corruptIndex mapCategory id.toUInt32 (fault id))

theorem Stocks.read_maps (h : Stocks n ws f maps) : ∃ fault, ∀ id : UInt16,
    ((SectorStore.empty n).writeAll ws).read mapCategory id.toUInt32 = fetchOf maps fault id := by
  have hstore := represents_writeAll h.fits
  have hcategory : mapCategory.toNat < n := h.room.1
  have hread : ∀ id : UInt16, ∃ fault, ((SectorStore.empty n).writeAll ws).read mapCategory id.toUInt32 =
      fetchOf maps (fun _ => fault) id := by
    intro id
    cases hid : maps id with
    | some file =>
      have hfile := hstore.read_of_some h.room.2 (wholeSectors_lt_iff.2 h.sectorCount) ((h.maps id).trans hid)
      exact ⟨.beyondFile 0 0, by rw [hfile, fetchOf, hid]⟩
    | none =>
      obtain ⟨fault, hfault⟩ := hstore.read_of_none hcategory ((h.maps id).trans hid)
      exact ⟨fault, by rw [hfault, fetchOf, hid]⟩
  choose fault hfault using hread
  exact ⟨fault, hfault⟩

/-- The archives of a stocked cache hold the files that they carry. -/
theorem Stocks.archive (h : Stocks n ws f maps) {id : UInt32} {named : List (String × Bytes)}
    (hraw : ∃ raw ∈ lastWrite? ws archiveCategory id, Carries raw named)
    (hnodup : (named.map fun p => nameHash p.1).Nodup) :
    ∃ a, Source.archive ((SectorStore.empty n).writeAll ws).read archiveCategory id = .ok a ∧
      ∀ p ∈ named, a.file p.1 = .ok p.2 := by
  obtain ⟨raw, hlast, hcarries⟩ := hraw
  obtain ⟨a, hparse, hfile⟩ := file_of_carries hcarries hnodup
  have hread := (represents_writeAll h.fits).read_of_some h.room.2 (wholeSectors_lt_iff.2 h.sectorCount) hlast
  exact ⟨a, by rw [Source.archive, hread]; exact hparse, hfile⟩

section Files
variable {source : Source} {a : Archive} {data index : Bytes}

theorem items_of_files (ha : source.archive archiveCategory configArchive = .ok a)
    (hdata : a.file "obj.dat" = .ok data) (hindex : a.file "obj.idx" = .ok index) :
    source.items = Item.decodeAll data index := by
  simp only [Source.items, ha, bind, Except.bind, hdata, hindex]

theorem objects_of_files (ha : source.archive archiveCategory configArchive = .ok a)
    (hdata : a.file "loc.dat" = .ok data) (hindex : a.file "loc.idx" = .ok index) :
    source.objects = WorldObject.decodeAll data index := by
  simp only [Source.objects, ha, bind, Except.bind, hdata, hindex]

theorem interfaces_of_files (ha : source.archive archiveCategory interfaceArchive = .ok a)
    (hdata : a.file "data" = .ok data) : source.interfaces = InterfaceTable.decode data := by
  simp only [Source.interfaces, Source.file, ha, bind, Except.bind, hdata]

theorem mapOf_of_files (ha : source.archive archiveCategory versionArchive = .ok a)
    (hindex : a.file "map_index" = .ok index) (objectCount : Nat) : source.mapOf objectCount =
      Region.decodeAll index >>= fun regions =>
        (WorldMap.build regions objectCount fun id => source mapCategory id.toUInt32).2 := by
  simp only [Source.mapOf, Source.file, ha, bind, Except.bind, hindex]

end Files

/-- A new manager loads from a stocked cache what its files decode to. -/
theorem loadAll_written (h : Stocks n ws f maps) : ∃ fault,
    (∀ id, maps id = none → ((SectorStore.empty n).writeAll ws).read mapCategory id.toUInt32 =
      .error (.corruptIndex mapCategory id.toUInt32 (fault id))) ∧
    ((loadAll ((SectorStore.empty n).writeAll ws).read).run {}).1 = f.decode (fetchOf maps fault) := by
  obtain ⟨fault, hmaps⟩ := h.read_maps
  refine ⟨fault, fun id hid => by rw [hmaps, fetchOf, hid], ?_⟩
  -- the names of the definition files are all that has to be told apart by hash
  have hnodup : [nameHash "obj.dat", nameHash "obj.idx", nameHash "loc.dat", nameHash "loc.idx"].Nodup := by
    decide +kernel
  obtain ⟨config, hconfig, hdefinitions⟩ := h.archive h.config hnodup
  obtain ⟨interfaces, hinterfaces, hdata⟩ := h.archive h.interfaces (List.nodup_singleton _)
  obtain ⟨versions, hversions, hindex⟩ := h.archive h.versions (List.nodup_singleton _)
  simp only [List.forall_mem_cons] at hdefinitions hdata hindex
  obtain ⟨hitemData, hitemIndex, hobjectData, hobjectIndex, -⟩ := hdefinitions
  rw [(answers_loadAll {} (coherent_new _)).1, Source.loadAll, items_of_files hconfig hitemData hitemIndex,
    objects_of_files hconfig hobjectData hobjectIndex, interfaces_of_files hinterfaces hdata.1]
  simp only [mapOf_of_files hversions hindex.1, funext hmaps, bind_assoc]
  rfl

/-- One item, one object, no interfaces, and a region whose map file has no objects. -/
def smallFiles : AssetFiles where
  itemData := [0, 1, 0]
  itemIndex := [0, 1, 0, 1]
  objectData := [0, 1, 0]
  objectIndex := [0, 1, 0, 1]
  interfaces := [0, 0]
  regions := [50, 50, 0, 2, 0, 3, 1]

def smallMap : Bytes := [0]

/-- Writes of the small files, with one to another place and one that comes again. -/
def smallWrites : List Write :=
  [⟨archiveCategory, versionArchive, ofNamed [("map_index", smallFiles.regions)]⟩,
    ⟨mapCategory, 3, [0xFF]⟩,
    ⟨archiveCategory, configArchive, ofNamed [("loc.idx", smallFiles.objectIndex),
      ("obj.dat", smallFiles.itemData), ("obj.idx", smallFiles.itemIndex),
      ("loc.dat", smallFiles.objectData)]⟩,
    ⟨1, 7, [1, 2, 3]⟩,
    ⟨mapCategory, 3, smallMap⟩,
    ⟨archiveCategory, interfaceArchive, ofNamed [("data", smallFiles.interfaces)]⟩]

theorem loadAll_written_small : ∃ assets,
    ((loadAll ((SectorStore.empty 5).writeAll smallWrites).read).run {}).1 = .ok assets ∧
    assets.items.size = 1 ∧ assets.objects.length = 1 ∧ assets.map.regions.length = 1 := by
  have fits : ∀ w ∈ smallWrites, w.Fits 5 := by
    intro w hmem
    simp only [smallWrites, List.mem_cons, List.not_mem_nil, or_false] at hmem
    rcases hmem with rfl | rfl | rfl | rfl | rfl | rfl <;> exact ⟨by decide, by decide, by decide +kernel⟩
  have stocks : Stocks 5 smallWrites smallFiles fun id => if id = 3 then some smallMap else none := by
    refine ⟨⟨Nat.le_refl 5, by decide⟩, fits, ?_, ⟨_, rfl, ?_⟩, ⟨_, rfl, ?_⟩, ⟨_, rfl, ?_⟩, fun id => ?_⟩
    · rw [← wholeSectors_lt_iff, wholeSectors_writeAll fits]
      decide +kernel
    · exact carries_ofNamed (by decide) (by decide) (by decide) (by decide +kernel)
    · exact carries_ofNamed (.refl _) (by decide) (by decide) (by decide +kernel)
    · exact carries_ofNamed (.refl _) (by decide) (by decide) (by decide +kernel)
    · split
      · next h => subst h; rfl
      · next h =>
        have hother : ¬ (3 : UInt32) = id.toUInt32 := by
          intro e
          have := congrArg UInt32.toNat e
          exact h (UInt16.toNat_inj.1 (by simpa using this.symm))
        simp [lastWrite?, smallWrites, hother, mapCategory, archiveCategory]
  obtain ⟨fault, -, h⟩ := loadAll_written stocks
  rw [h]
  exact ⟨_, by cbv, by cbv, by cbv, by cbv⟩

end Manager

end AssetCache
