import Mathlib
import AssetCache.Proofs.SectorWalk
import AssetCache.SectorStore.Writing

/-!
# What written archives read as

A chain that is written reads as its payload as long as its sectors stand where they were written
(`follow_of_encodeChain`), and writing only ever appends sectors. `Represents` is what a store is to a
finite map of archives; `Represents.put` is one write. Main statement: `read_writeAll`, a store reads as
the last write of each archive, whatever the order of the writes.
-/

namespace AssetCache.SectorStore
variable {s : SectorStore} {category : UInt8} {archive : UInt32}

/-! ### Sectors -/

theorem run_readHeader_encodeSector {h : SectorHeader} (hn : h.next < 0x1000000) (chunk rest : Bytes) :
    readHeader.run (encodeSector h chunk ++ rest) =
      .ok (h, chunk ++ List.replicate (chunkSize - chunk.length) 0 ++ rest) := by
  simp only [encodeSector, List.append_assoc, List.cons_append]
  unfold readHeader
  rw [Reader.run_bind_of_ok (ByteReader.run_u16_append _ _),
    Reader.run_bind_of_ok (ByteReader.run_u16_append _ _),
    Reader.run_bind_of_ok (ByteReader.run_u24_append hn _)]
  rfl

theorem length_encodeSector {h : SectorHeader} {chunk : Bytes} (hc : chunk.length ≤ chunkSize) :
    (encodeSector h chunk).length = sectorSize := by
  simp only [encodeSector, Bytes.ofU16, Bytes.ofU24, List.length_append, List.length_cons, List.length_nil,
    List.length_replicate, chunkSize, sectorSize] at *
  omega

theorem length_encodeChain (category : UInt8) (archive : UInt32) (part number : Nat) (payload : Bytes) :
    (encodeChain category archive part number payload).length = chainLength payload.length * sectorSize := by
  induction hl : payload.length using Nat.strongRecOn generalizing part number payload with
  | ind len ih =>
    subst hl
    rw [encodeChain]
    split
    · next hz => subst hz; rfl
    next hz =>
    have hpos : 0 < payload.length := List.length_pos_iff.2 hz
    have hdrop : (payload.drop chunkSize).length < payload.length := by
      simp only [List.length_drop, chunkSize]
      omega
    rw [List.length_append, length_encodeSector (List.length_take_le _ _), ih _ hdrop _ _ _ rfl,
      List.length_drop]
    simp only [chainLength, chunkSize, sectorSize]
    omega

theorem take_chunk {number count count' : Nat} (h : count ≤ count') :
    (s.chunk number count').take count = s.chunk number count := by
  simp only [chunk, Array.toList_extract, List.extract_eq_take_drop, Nat.add_sub_cancel_left, List.take_take,
    Nat.min_eq_left h]

/-- A sector that stands in the data is there, with the head and the piece it was written with. -/
theorem header?_of_encodeSector {h : SectorHeader} {chunk : Bytes} {number : Nat} (hn : h.next < 0x1000000)
    (hc : chunk.length ≤ chunkSize) (hp : encodeSector h chunk <+: s.data.toList.drop (number * sectorSize)) :
    number * sectorSize + sectorSize ≤ s.data.size ∧ s.header? number = some h ∧
      s.chunk number chunk.length = chunk := by
  have hle : number * sectorSize + sectorSize ≤ s.data.size := by
    have := hp.length_le
    rw [length_encodeSector hc, List.length_drop, Array.length_toList] at this
    simp only [sectorSize] at *
    omega
  obtain ⟨bs, hd, hs, hh, hr⟩ := run_readHeader_slice
    (show number * sectorSize + (headerSize + chunkSize) ≤ s.data.size from hle)
  have hbs : bs = encodeSector h chunk := by
    have := List.prefix_iff_eq_take.1 hp
    rw [length_encodeSector hc] at this
    exact (slice?_eq_some.1 hs).2.trans this.symm
  rw [hbs, ← List.append_nil (encodeSector h chunk), run_readHeader_encodeSector hn] at hr
  obtain ⟨rfl, hchunk⟩ := Prod.mk.inj (Except.ok.inj hr)
  refine ⟨hle, hh, ?_⟩
  rw [← take_chunk hc, ← hchunk, List.append_nil]
  exact List.take_left' rfl

theorem toNat_toUInt16_of_lt (ha : archive.toNat < 0x10000) : archive.toUInt16.toNat = archive.toNat := by
  rw [UInt32.toNat_toUInt16, Nat.mod_eq_of_lt ha]

theorem toNat_add_one (hc : category.toNat < 255) : (category + 1).toNat = storeNumber category := by
  rw [UInt8.toNat_add]
  exact Nat.mod_eq_of_lt (Nat.succ_lt_succ hc)

theorem prefix_drop_of_append {α : Type} {a b l : List α} (h : a ++ b <+: l) : b <+: l.drop a.length := by
  obtain ⟨t, rfl⟩ := h
  rw [List.append_assoc, List.drop_left' rfl]
  exact List.prefix_append b t

theorem serves_of_encodeSector {h : SectorHeader} {chunk : Bytes} {size part number : Nat}
    (hcount : s.wholeSectors < 0x1000000) (hn : h.next < 0x1000000) (hpos : 1 ≤ number)
    (hlen : chunk.length = chunkLength size part) (ha : h.archive.toNat = archive.toNat) (hpart : h.part.toNat = part)
    (hs : h.store.toNat = storeNumber category)
    (hp : encodeSector h chunk <+: s.data.toList.drop (number * sectorSize)) :
    s.Serves category archive size part number h.next ∧
      s.chunk number (chunkLength size part) = chunk := by
  have hc : chunk.length ≤ chunkSize := hlen ▸ Nat.min_le_left _ _
  obtain ⟨hle, hh, hchunk⟩ := header?_of_encodeSector hn hc hp
  refine ⟨⟨hpos, ?_, ?_, h, hh, ha, hpart, hs, rfl⟩, hlen ▸ hchunk⟩
  · rw [toNat_sectorCount_of_lt hcount]
    simp only [wholeSectors, sectorSize] at hle ⊢
    omega
  · calc number * sectorSize + headerSize + chunkLength size part
        ≤ number * sectorSize + (headerSize + chunkSize) := by rw [← hlen]; omega
      _ ≤ s.data.size := hle

theorem lt_wholeSectors_of_encodeChain {part number : Nat} {payload : Bytes} (hz : payload ≠ [])
    (hp : encodeChain category archive part number payload <+: s.data.toList.drop (number * sectorSize)) :
    number < s.wholeSectors := by
  have hpos : 0 < payload.length := List.length_pos_iff.2 hz
  have hlen := hp.length_le
  have hsize : s.data.toList.length = s.data.size := Array.length_toList
  rw [length_encodeChain, List.length_drop, hsize] at hlen
  simp only [chainLength, chunkSize, sectorSize, wholeSectors] at *
  omega

/-- A written chain reads as its payload. -/
theorem follow_of_encodeChain {size part number : Nat} {payload : Bytes} (hc : category.toNat < 255)
    (ha : archive.toNat < 0x10000) (hcount : s.wholeSectors < 0x1000000) (hpos : 1 ≤ number)
    (hparts : part + chainLength payload.length ≤ 0x10000) (hleft : leftAt size part = payload.length)
    (hp : encodeChain category archive part number payload <+: s.data.toList.drop (number * sectorSize)) :
    s.follow category archive size (leftAt size part) part number = .ok payload := by
  induction hl : payload.length using Nat.strongRecOn generalizing part number payload with
  | ind len ih =>
    subst hl
    by_cases hz : payload = []
    · subst hz
      rw [hleft]
      exact follow_zero ..
    have hlpos : 0 < payload.length := List.length_pos_iff.2 hz
    have hin := lt_wholeSectors_of_encodeChain hz hp
    rw [encodeChain, dif_neg hz] at hp
    have hnext : (if payload.drop chunkSize = [] then 0 else number + 1) < 0x1000000 := by split <;> omega
    have hpart : (UInt16.ofNat part).toNat = part := by
      rw [UInt16.toNat_ofNat']
      simp only [chainLength, chunkSize] at hparts
      omega
    have hlen : (payload.take chunkSize).length = chunkLength size part := by
      rw [List.length_take, ← min_leftAt, hleft, Nat.min_comm]
    obtain ⟨hserves, hchunk⟩ := serves_of_encodeSector hcount hnext hpos hlen (toNat_toUInt16_of_lt ha) hpart
      (toNat_add_one hc) ((List.prefix_append _ _).trans hp)
    have hrest : leftAt size (part + 1) = (payload.drop chunkSize).length := by
      rw [← leftAt_succ, hleft, List.length_drop]
      omega
    have htail : s.follow category archive size (leftAt size (part + 1)) (part + 1)
        (if payload.drop chunkSize = [] then 0 else number + 1) = .ok (payload.drop chunkSize) := by
      by_cases hr : payload.drop chunkSize = []
      · rw [hrest, hr]
        exact follow_zero ..
      have hlt : (payload.drop chunkSize).length < payload.length := by
        rw [List.length_drop, chunkSize]
        omega
      rw [if_neg hr]
      refine ih _ hlt (by omega) ?_ hrest ?_ rfl
      · rw [List.length_drop]
        simp only [chainLength, chunkSize] at *
        omega
      · have := prefix_drop_of_append hp
        rwa [length_encodeSector (List.length_take_le _ _), List.drop_drop, ← Nat.succ_mul] at this
    have hne : leftAt size part ≠ 0 := by omega
    rw [follow, dif_neg hne, readSector_eq_ok_iff.2 ⟨hserves, rfl⟩, leftAt_succ]
    simp only [bind, Except.bind, htail, hchunk]
    exact congrArg Except.ok (List.take_append_drop chunkSize payload)

/-! ### Index files -/

/-- The bytes that an index file has for an archive. -/
def slot? (file : Bytes) (archive : Nat) : Option Bytes :=
  if archive * entrySize + entrySize ≤ file.length then
    some ((file.drop (archive * entrySize)).take entrySize)
  else none

theorem slice?_entry (file : Array UInt8) (archive : Nat) :
    slice? file (archive * entrySize) entrySize = slot? file.toList archive := by
  unfold slot?
  split
  · next h => exact slice?_eq_some.2 ⟨h, rfl⟩
  · next h => exact if_neg h

/-- Slots that are empty: the file ends before them, or they are zero. -/
def Vacant (slot : Option Bytes) : Prop := slot = none ∨ slot = some (List.replicate entrySize 0)

variable {file : Bytes} {e : IndexEntry}

theorem length_encodeEntry (e : IndexEntry) : (encodeEntry e).length = entrySize := rfl

theorem length_setEntry (file : Bytes) (archive : UInt32) (e : IndexEntry) :
    (setEntry file archive e).length = max file.length (archive.toNat * entrySize + entrySize) := by
  simp only [setEntry, List.length_append, List.length_take, List.length_replicate, List.length_drop,
    length_encodeEntry, entrySize]
  omega

theorem slot?_setEntry_self (file : Bytes) (archive : UInt32) (e : IndexEntry) :
    slot? (setEntry file archive e) archive.toNat = some (encodeEntry e) := by
  have hlen : archive.toNat * entrySize + entrySize ≤ (setEntry file archive e).length := by
    rw [length_setEntry]
    exact Nat.le_max_right _ _
  rw [slot?, if_pos hlen]
  simp only [setEntry, List.append_assoc]
  rw [List.drop_left', List.take_left' (length_encodeEntry e)]
  simp only [List.length_take, List.length_append, List.length_replicate]
  omega

theorem slot?_setEntry_of_lt {archive : UInt32} {other : Nat} (hfile : file.length % entrySize = 0)
    (hlt : other < archive.toNat) :
    slot? (setEntry file archive e) other = slot? file other ∨
      slot? file other = none ∧ Vacant (slot? (setEntry file archive e) other) := by
  have hstop : other * entrySize + entrySize ≤ archive.toNat * entrySize := by
    simp only [entrySize]
    omega
  set long := file ++ List.replicate (archive.toNat * entrySize - file.length) 0 with hlong
  have hlonglen : archive.toNat * entrySize ≤ long.length := by
    rw [hlong, List.length_append, List.length_replicate]
    omega
  have hslot : slot? (setEntry file archive e) other =
      some ((long.drop (other * entrySize)).take entrySize) := by
    have htake : (long.take (archive.toNat * entrySize)).length = archive.toNat * entrySize :=
      List.length_take_of_le hlonglen
    rw [slot?, if_pos (by rw [length_setEntry]; omega)]
    simp only [setEntry, List.append_assoc]
    rw [← hlong, List.drop_append_of_le_length (by omega), List.take_append_of_le_length, List.drop_take,
      List.take_take, Nat.min_eq_left (by omega)]
    rw [List.length_drop, htake]
    omega
  by_cases hin : other * entrySize + entrySize ≤ file.length
  · left
    rw [hslot, slot?, if_pos hin, hlong, List.drop_append_of_le_length (by omega),
      List.take_append_of_le_length]
    rw [List.length_drop]
    omega
  · right
    refine ⟨if_neg hin, .inr ?_⟩
    have hend : file.length ≤ other * entrySize := by
      simp only [entrySize] at *
      omega
    rw [hslot, hlong, List.drop_append, List.drop_eq_nil_of_le hend, List.nil_append, List.drop_replicate,
      List.take_replicate, Nat.min_eq_left]
    omega

theorem slot?_setEntry_of_gt {archive : UInt32} {other : Nat} (hgt : archive.toNat < other) :
    slot? (setEntry file archive e) other = slot? file other := by
  have hstart : archive.toNat * entrySize + entrySize ≤ other * entrySize := by
    simp only [entrySize]
    omega
  have hlen : other * entrySize + entrySize ≤ (setEntry file archive e).length ↔
      other * entrySize + entrySize ≤ file.length := by
    rw [length_setEntry]
    simp only [entrySize] at *
    omega
  unfold slot?
  simp only [hlen]
  split
  · next hin =>
    have hshort : archive.toNat * entrySize - file.length = 0 := by omega
    have hhead : (file.take (archive.toNat * entrySize) ++ encodeEntry e).length =
        archive.toNat * entrySize + entrySize := by
      rw [List.length_append, length_encodeEntry, List.length_take_of_le (by omega)]
    have hdrop : (setEntry file archive e).drop (other * entrySize) = file.drop (other * entrySize) := by
      simp only [setEntry, hshort, List.replicate_zero, List.append_nil]
      rw [List.drop_append, List.drop_eq_nil_of_le (by omega), hhead, List.nil_append,
        List.drop_drop, Nat.add_sub_cancel' hstart]
    rw [hdrop]
  · rfl

/-- Setting an entry leaves every other slot as it was, or makes it zero where the file had ended. -/
theorem slot?_setEntry_of_ne {archive : UInt32} {other : Nat} (hfile : file.length % entrySize = 0)
    (hne : other ≠ archive.toNat) :
    slot? (setEntry file archive e) other = slot? file other ∨
      slot? file other = none ∧ Vacant (slot? (setEntry file archive e) other) := by
  rcases Nat.lt_or_gt_of_ne hne with hlt | hgt
  · exact slot?_setEntry_of_lt hfile hlt
  · exact .inl (slot?_setEntry_of_gt hgt)

/-! ### Stores -/

/-- That a store holds exactly the archives of a map: those it has stand whole in the data, with an entry
that leads to them, and all other entries are vacant. -/
structure Represents (s : SectorStore) (categoryCount : Nat) (m : UInt8 → UInt32 → Option Bytes) : Prop where
  categories : s.indices.length = categoryCount
  whole : s.data.size = s.wholeSectors * sectorSize
  pos : 1 ≤ s.wholeSectors
  aligned : ∀ file ∈ s.indices, file.size % entrySize = 0
  stored : ∀ c a payload, m c a = some payload → a.toNat < 0x10000 ∧ payload.length ≤ archiveLimit ∧
    ∃ file sector, s.indices[c.toNat]? = some file ∧ 1 ≤ sector ∧ sector ≤ s.wholeSectors ∧
      slot? file.toList a.toNat = some (encodeEntry ⟨payload.length, sector⟩) ∧
      encodeChain c a 0 sector payload <+: s.data.toList.drop (sector * sectorSize)
  vacant : ∀ c a file, m c a = none → s.indices[c.toNat]? = some file → Vacant (slot? file.toList a.toNat)

theorem wholeSectors_empty (n : Nat) : (SectorStore.empty n).wholeSectors = 1 := by
  have hsize : (SectorStore.empty n).data.size = sectorSize := Array.size_replicate
  rw [wholeSectors, hsize]
  rfl

theorem Represents.empty (n : Nat) : (SectorStore.empty n).Represents n fun _ _ => none where
  categories := List.length_replicate
  whole := by
    rw [wholeSectors_empty, Nat.one_mul]
    exact Array.size_replicate
  pos := Nat.le_of_eq (wholeSectors_empty n).symm
  aligned := by
    intro file hf
    rw [List.eq_of_mem_replicate hf]
    rfl
  stored := by
    intro c a payload h
    nomatch h
  vacant := by
    intro c a file _ hf
    rw [List.eq_of_mem_replicate (List.mem_of_getElem? hf)]
    left
    rw [slot?, if_neg]
    simp only [entrySize, List.length_nil]
    omega

/-- What a map holds after one more write. -/
def updated (m : UInt8 → UInt32 → Option Bytes) (category : UInt8) (archive : UInt32) (payload : Bytes)
    (c : UInt8) (a : UInt32) : Option Bytes :=
  if c = category ∧ a = archive then some payload else m c a

section Put
variable {n : Nat} {m : UInt8 → UInt32 → Option Bytes} {payload : Bytes}

theorem data_put (s : SectorStore) (category : UInt8) (archive : UInt32) (payload : Bytes) :
    (s.put category archive payload).data.toList =
      s.data.toList ++ encodeChain category archive 0 s.wholeSectors payload := by
  simp [put]

theorem wholeSectors_put (hwhole : s.data.size = s.wholeSectors * sectorSize) (category : UInt8)
    (archive : UInt32) (payload : Bytes) : (s.put category archive payload).wholeSectors =
      s.wholeSectors + chainLength payload.length := by
  have hsize : (s.put category archive payload).data.size =
      (s.wholeSectors + chainLength payload.length) * sectorSize := by
    rw [← Array.length_toList, data_put, List.length_append, length_encodeChain, Array.length_toList, hwhole,
      Nat.add_mul]
  rw [wholeSectors, hsize]
  exact Nat.mul_div_cancel _ (by decide)

theorem indices_put (c : UInt8) : (s.put category archive payload).indices[c.toNat]? =
    if c = category then s.indices[c.toNat]?.map fun file =>
      (setEntry file.toList archive ⟨payload.length, s.wholeSectors⟩).toArray
    else s.indices[c.toNat]? := by
  simp only [put, List.getElem?_modify]
  by_cases h : c = category
  · subst h
    simp
  · have : ¬ category.toNat = c.toNat := fun e => h (UInt8.toNat_inj.1 e).symm
    simp [h, this]

/-- A write leaves every other slot as it was, or makes it zero where the file had ended. -/
theorem slot?_put (payload : Bytes) {file : Array UInt8} {c : UInt8} {a : UInt32}
    (hfile : s.indices[c.toNat]? = some file) (hal : file.size % entrySize = 0)
    (hne : ¬ (c = category ∧ a = archive)) :
    ∃ file', (s.put category archive payload).indices[c.toNat]? = some file' ∧
      (slot? file'.toList a.toNat = slot? file.toList a.toNat ∨
        slot? file.toList a.toNat = none ∧ Vacant (slot? file'.toList a.toNat)) := by
  rw [indices_put, hfile]
  by_cases hc : c = category
  · rw [if_pos hc]
    have ha : a.toNat ≠ archive.toNat := fun e => hne ⟨hc, UInt32.toNat_inj.1 e⟩
    refine ⟨_, rfl, ?_⟩
    exact slot?_setEntry_of_ne (by rwa [Array.length_toList]) ha
  · rw [if_neg hc]
    exact ⟨file, rfl, .inl rfl⟩

theorem Represents.put (h : s.Represents n m) {w : Write} (hw : w.Fits n) :
    (s.put w.category w.archive w.payload).Represents n (updated m w.category w.archive w.payload) where
  categories := by
    rw [← h.categories]
    exact List.length_modify ..
  whole := by
    rw [wholeSectors_put h.whole, ← Array.length_toList, data_put, List.length_append, length_encodeChain,
      Array.length_toList, h.whole, Nat.add_mul]
  pos := by
    rw [wholeSectors_put h.whole]
    exact Nat.le_add_right_of_le h.pos
  aligned := by
    intro file hf
    obtain ⟨i, hi⟩ := List.mem_iff_getElem?.1 hf
    simp only [SectorStore.put, List.getElem?_modify] at hi
    obtain ⟨old, hold, hi⟩ := Option.map_eq_some_iff.1 hi
    have ha := h.aligned old (List.mem_of_getElem? hold)
    split at hi
    · subst hi
      simp only [List.size_toArray, length_setEntry, Array.length_toList, entrySize] at *
      omega
    · exact hi ▸ ha
  stored := by
    intro c a payload hm
    rw [wholeSectors_put h.whole, data_put]
    have hwhole : s.data.toList.length = s.wholeSectors * sectorSize := h.whole
    by_cases hk : c = w.category ∧ a = w.archive
    · rw [updated, if_pos hk] at hm
      obtain ⟨rfl, rfl⟩ := hk
      cases hm
      obtain ⟨file, hfile⟩ : ∃ file, s.indices[w.category.toNat]? = some file :=
        ⟨_, List.getElem?_eq_getElem (h.categories ▸ hw.category)⟩
      refine ⟨hw.archive, hw.payload,
        (setEntry file.toList w.archive ⟨w.payload.length, s.wholeSectors⟩).toArray, s.wholeSectors, ?_, h.pos,
        Nat.le_add_right _ _, slot?_setEntry_self file.toList _ _, ?_⟩
      · simp only [indices_put, if_true, hfile, Option.map_some]
      · exact (List.drop_left' hwhole).symm ▸ List.prefix_refl _
    · rw [updated, if_neg hk] at hm
      obtain ⟨ha, hp, file, sector, hfile, hpos, hle, hslot, hchain⟩ := h.stored c a payload hm
      obtain ⟨file', hfile', hs⟩ := slot?_put w.payload hfile
        (h.aligned file (List.mem_of_getElem? hfile)) hk
      refine ⟨ha, hp, file', sector, hfile', hpos, Nat.le_add_right_of_le hle, ?_, ?_⟩
      · rcases hs with hs | ⟨hnone, -⟩
        · rw [hs, hslot]
        · rw [hslot] at hnone
          nomatch hnone
      · rw [List.drop_append_of_le_length (by rw [hwhole]; exact Nat.mul_le_mul_right _ hle)]
        exact hchain.trans (List.prefix_append _ _)
  vacant := by
    intro c a file' hm hf
    have hk : ¬ (c = w.category ∧ a = w.archive) := by
      intro hk
      rw [updated, if_pos hk] at hm
      nomatch hm
    rw [updated, if_neg hk] at hm
    cases hfile : s.indices[c.toNat]? with
    | none =>
      rw [indices_put, hfile] at hf
      split at hf <;> nomatch hf
    | some file =>
      obtain ⟨file'', hf'', hs⟩ := slot?_put w.payload hfile
        (h.aligned file (List.mem_of_getElem? hfile)) hk
      obtain rfl : file' = file'' := Option.some.inj (hf.symm.trans hf'')
      rcases hs with hs | ⟨-, hv⟩
      · rw [hs]
        exact h.vacant c a file hm hfile
      · exact hv

end Put

theorem writeAll_append (s : SectorStore) (ws : List Write) (w : Write) :
    s.writeAll (ws ++ [w]) = (s.writeAll ws).put w.category w.archive w.payload := by
  simp [writeAll]

theorem lastWrite?_append (ws : List Write) (w : Write) :
    lastWrite? (ws ++ [w]) = updated (lastWrite? ws) w.category w.archive w.payload := by
  funext c a
  simp only [lastWrite?, List.reverse_append, List.reverse_singleton, List.singleton_append, updated]
  by_cases hk : c = w.category ∧ a = w.archive
  · obtain ⟨rfl, rfl⟩ := hk
    simp
  · have : ¬ (w.category = c ∧ w.archive = a) := fun ⟨hc, ha⟩ => hk ⟨hc.symm, ha.symm⟩
    rw [List.find?_cons_of_neg (by simpa using this), if_neg hk]

theorem represents_writeAll {n : Nat} {ws : List Write} (hw : ∀ w ∈ ws, w.Fits n) :
    ((SectorStore.empty n).writeAll ws).Represents n (lastWrite? ws) := by
  induction ws using List.reverseRecOn with
  | nil => exact .empty n
  | append_singleton ws w ih =>
    rw [writeAll_append, lastWrite?_append]
    exact (ih fun w' hw' => hw w' (List.mem_append_left _ hw')).put (hw w (by simp))

theorem wholeSectors_writeAll {n : Nat} {ws : List Write} (hw : ∀ w ∈ ws, w.Fits n) :
    ((SectorStore.empty n).writeAll ws).wholeSectors =
      1 + (ws.map fun w => chainLength w.payload.length).sum := by
  induction ws using List.reverseRecOn with
  | nil => exact wholeSectors_empty n
  | append_singleton ws w ih =>
    have hw' : ∀ w ∈ ws, w.Fits n := fun w' hw' => hw w' (List.mem_append_left _ hw')
    rw [writeAll_append, wholeSectors_put (represents_writeAll hw').whole, ih hw', List.map_append,
      List.sum_append, List.map_singleton, List.sum_singleton, Nat.add_assoc]

section Read
variable {n : Nat} {m : UInt8 → UInt32 → Option Bytes}

theorem run_readEntry {e : IndexEntry} (hsize : e.size < 0x1000000) (hsector : e.sector < 0x1000000) :
    readEntry.run (encodeEntry e) = .ok (e, []) := by
  unfold readEntry encodeEntry
  rw [Reader.run_bind_of_ok (ByteReader.run_u24_append hsize _), ← List.append_nil (Bytes.ofU24 e.sector),
    Reader.run_bind_of_ok (ByteReader.run_u24_append hsector _)]
  rfl

theorem entry_of_slot_none {file : Array UInt8} (hfile : s.indices[category.toNat]? = some file)
    (hslot : slot? file.toList archive.toNat = none) :
    ∃ fault, s.entry category archive = .error (.corruptIndex category archive fault) := by
  simp only [entry, index, hfile, bind, Except.bind, slice?_entry, hslot]
  exact ⟨_, rfl⟩

theorem entry_of_slot_some {file : Array UInt8} {e : IndexEntry}
    (hfile : s.indices[category.toNat]? = some file)
    (hslot : slot? file.toList archive.toNat = some (encodeEntry e)) (hsize : e.size < 0x1000000)
    (hsector : e.sector < 0x1000000) : s.entry category archive =
      if archiveLimit < e.size then .error (.corruptIndex category archive (.archiveTooLarge e.size))
      else if e.sector = 0 ∨ s.sectorCount.toNat < e.sector then
        .error (.corruptIndex category archive (.startOutside e.sector s.sectorCount.toNat))
      else .ok e := by
  simp only [entry, index, hfile, bind, Except.bind, slice?_entry, hslot, run_readEntry hsize hsector]
  rfl

theorem Represents.read_of_some (h : s.Represents n m) (hn : n ≤ 255) (hcount : s.wholeSectors < 0x1000000)
    {payload : Bytes} (hm : m category archive = some payload) :
    s.read category archive = .ok payload := by
  obtain ⟨ha, hp, file, sector, hfile, hpos, hle, hslot, hchain⟩ := h.stored _ _ _ hm
  have hc : category.toNat < 255 := by
    have := (List.getElem?_eq_some_iff.1 hfile).1
    rw [h.categories] at this
    omega
  have hentry : s.entry category archive = .ok ⟨payload.length, sector⟩ := by
    rw [entry_of_slot_some hfile hslot (Nat.lt_of_le_of_lt hp (by decide)) (Nat.lt_of_le_of_lt hle hcount),
      if_neg (Nat.not_lt.2 hp), if_neg]
    show ¬ (sector = 0 ∨ s.sectorCount.toNat < sector)
    rw [toNat_sectorCount_of_lt hcount]
    omega
  rw [read_of_entry hentry]
  refine follow_of_encodeChain hc ha hcount hpos ?_ (leftAt_zero _) hchain
  simp only [chainLength, chunkSize, archiveLimit] at hp ⊢
  omega

theorem Represents.read_of_none (h : s.Represents n m) (hc : category.toNat < n)
    (hm : m category archive = none) :
    ∃ fault, s.read category archive = .error (.corruptIndex category archive fault) := by
  obtain ⟨file, hfile⟩ : ∃ file, s.indices[category.toNat]? = some file :=
    ⟨_, List.getElem?_eq_getElem (h.categories ▸ hc)⟩
  have hentry : ∃ fault, s.entry category archive = .error (.corruptIndex category archive fault) := by
    rcases h.vacant _ _ _ hm hfile with hs | hs
    · exact entry_of_slot_none hfile hs
    · -- zeros are the entry of an empty archive that starts at the sector which none uses
      rw [entry_of_slot_some (e := ⟨0, 0⟩) hfile hs (by decide) (by decide)]
      exact ⟨_, rfl⟩
  obtain ⟨fault, he⟩ := hentry
  exact ⟨fault, by rw [read, he]; rfl⟩

end Read

/-- A store reads as the last write of each archive, and nothing else is there, whatever the order of the
writes. -/
theorem read_writeAll {n : Nat} (hn : n ≤ 255) {ws : List Write} (hw : ∀ w ∈ ws, w.Fits n)
    (hcount : ((SectorStore.empty n).writeAll ws).sectorCount < 0x1000000) {category : UInt8}
    (hc : category.toNat < n) (archive : UInt32) :
    match lastWrite? ws category archive with
    | some payload => ((SectorStore.empty n).writeAll ws).read category archive = .ok payload
    | none => ∃ fault, ((SectorStore.empty n).writeAll ws).read category archive =
        .error (.corruptIndex category archive fault) := by
  have h := represents_writeAll hw
  split
  · next hm => exact h.read_of_some hn (wholeSectors_lt_iff.2 hcount) hm
  · next hm => exact h.read_of_none hc hm

/-- One byte more than a sector holds. -/
def twoSectors : List UInt8 := List.replicate 513 7

/-- Writes to two categories, of which one comes again with a payload of two sectors. -/
def interleaved : List Write :=
  [⟨0, 3, [0x68, 0x69]⟩, ⟨1, 0, []⟩, ⟨0, 3, twoSectors⟩, ⟨0, 1, [0x78]⟩]

theorem read_writeAll_interleaved :
    ((SectorStore.empty 2).writeAll interleaved).read 0 3 = .ok twoSectors ∧
    ((SectorStore.empty 2).writeAll interleaved).read 1 0 = .ok [] ∧
    ∃ fault, ((SectorStore.empty 2).writeAll interleaved).read 0 2 = .error (.corruptIndex 0 2 fault) := by
  have hlong : twoSectors.length = 513 := List.length_replicate
  have hw : ∀ w ∈ interleaved, w.Fits 2 := by
    intro w hmem
    simp only [interleaved, List.mem_cons, List.not_mem_nil, or_false] at hmem
    rcases hmem with rfl | rfl | rfl | rfl
    · exact ⟨by decide, by decide, by decide⟩
    · exact ⟨by decide, by decide, by decide⟩
    · exact ⟨by decide, by decide, by rw [hlong]; decide⟩
    · exact ⟨by decide, by decide, by decide⟩
  have hcount : ((SectorStore.empty 2).writeAll interleaved).sectorCount < 0x1000000 := by
    rw [← wholeSectors_lt_iff, wholeSectors_writeAll hw]
    simp only [interleaved, List.map_cons, List.map_nil, List.sum_cons, List.sum_nil, hlong]
    decide
  have first : (0 : UInt8).toNat < 2 := by decide
  have second : (1 : UInt8).toNat < 2 := by decide
  exact ⟨read_writeAll (by decide) hw hcount first 3, read_writeAll (by decide) hw hcount second 0,
    read_writeAll (by decide) hw hcount first 2⟩

end AssetCache.SectorStore
