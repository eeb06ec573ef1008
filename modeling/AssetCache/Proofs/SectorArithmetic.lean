import Mathlib
import AssetCache.Proofs.SectorFaults
import AssetCache.Proofs.SectorWrites
import AssetCache.SectorStore.Words

/-!
# Sector stores in words

Reading in words comes to what reading comes to (`Words.run_read`), so no number is too great for its word. An
offset is a word of 32 bits times a small constant; what is left of an archive is never negative, since a part adds to
the collected bytes no more than is left; and there are not more parts than bytes. Main statement: `read_classified`,
all the reasons for which an archive does not read, and when the count of the archives tells one of them. It does
not for an index of 2 ^ 32 entries (`overfull_reads`).
-/

namespace AssetCache.SectorStore
open LoadError
variable {s : SectorStore} {category : UInt8} {archive : UInt32}

namespace Words
variable {α β γ δ : Type}

/-- That a checked computation does not overflow and comes to the given result, read by `f`. -/
def Agrees (f : α → β) (c : Checked α) (r : Except LoadError β) : Prop := (f <$> c).run = some r

namespace Agrees

theorem run {c : Checked α} {r : Except LoadError α} (h : Agrees id c r) : c.run = some r := by
  rwa [Agrees, id_map] at h

theorem pure {f : α → β} {a : α} {b : β} (h : f a = b) : Agrees f (Pure.pure a) (.ok b) := by
  subst h
  rfl

theorem throw (f : α → β) (e : LoadError) : Agrees f (MonadExcept.throw e) (.error e) := rfl

theorem lift (r : Except LoadError α) : Agrees id (liftExcept r) r := by
  cases r <;> rfl

theorem ite {f : α → β} {c d : Checked α} {r t : Except LoadError β} {p q : Prop} [Decidable p] [Decidable q]
    (hpq : p ↔ q) (hthen : q → Agrees f c r) (helse : ¬ q → Agrees f d t) :
    Agrees f (if p then c else d) (if q then r else t) := by
  by_cases hq : q
  · rw [if_pos hq, if_pos (hpq.2 hq)]
    exact hthen hq
  · rw [if_neg hq, if_neg (mt hpq.1 hq)]
    exact helse hq

theorem bind {f : α → β} {g : γ → δ} {c : Checked α} {r : Except LoadError β} {k : α → Checked γ}
    {l : β → Except LoadError δ} (h : Agrees f c r) (hk : ∀ a, r = .ok (f a) → Agrees g (k a) (l (f a))) :
    Agrees g (c >>= k) (r >>= l) := by
  match c, h with
  | some (.error e), h =>
    cases h
    exact throw g e
  | some (.ok a), h =>
    cases h
    exact hk a rfl

theorem wide {n : ℕ} (hn : n < 0x10000000000000000) {f : α → β} {k : { w : UInt64 // w.toNat = n } → Checked α}
    {r : Except LoadError β} (hk : ∀ w hw, Agrees f (k ⟨w, hw⟩) r) : Agrees f (Words.wide n >>= k) r := by
  rw [Words.wide, dif_pos hn, pure_bind]
  exact hk _ _

theorem word {n : ℕ} (hn : n < 0x100000000) {f : α → β} {k : { w : UInt32 // w.toNat = n } → Checked α}
    {r : Except LoadError β} (hk : ∀ w hw, Agrees f (k ⟨w, hw⟩) r) : Agrees f (Words.word n >>= k) r := by
  rw [Words.word, dif_pos hn, pure_bind]
  exact hk _ _

theorem minus {a b : UInt64} (h : b ≤ a) {f : α → β} {k : { w : UInt64 // w.toNat + b.toNat = a.toNat } → Checked α}
    {r : Except LoadError β} (hk : ∀ w hw, Agrees f (k ⟨w, hw⟩) r) : Agrees f (Words.minus a b >>= k) r := by
  rw [Words.minus, dif_pos h, pure_bind]
  exact hk _ _

end Agrees

/-! ### Counts -/

theorem LengthsFit.size_lt (h : LengthsFit s) {file : Array UInt8} (hindex : s.index category = .ok file) :
    file.size < 0x10000000000000000 := by
  unfold SectorStore.index at hindex
  split at hindex
  · next hfile =>
    cases hindex
    exact h.index _ (List.mem_of_getElem? hfile)
  · cases hindex

theorem run_sectorCount (hfit : LengthsFit s) : (sectorCount s).run = some (.ok s.sectorCount) := by
  refine Agrees.run (.wide hfit.data fun length hlength => .pure (UInt32.toNat_inj.1 ?_))
  have hquotient : (length / UInt64.ofNat sectorSize).toNat = s.wholeSectors := by
    rw [UInt64.toNat_div, hlength]
    rfl
  rw [id, UInt64.toNat_toUInt32, UInt64.toNat_min, hquotient, toNat_sectorCount]
  exact Nat.mod_eq_of_lt (Nat.lt_of_le_of_lt (Nat.min_le_right _ _) (by decide))

/-- Cutting down a length in entries leaves what cutting down the word of it leaves. -/
theorem run_archiveCount (hfit : LengthsFit s) (category : UInt8) :
    (archiveCount s category).run = some (s.archiveCount category) := by
  refine Agrees.run (Agrees.bind (Agrees.lift _) fun file hindex => ?_)
  refine .wide (hfit.size_lt hindex) fun length hlength => .pure (UInt32.toNat_inj.1 ?_)
  have hquotient : (length / UInt64.ofNat entrySize).toNat = file.size / entrySize := by
    rw [UInt64.toNat_div, hlength]
    rfl
  rw [id, UInt64.toNat_toUInt32, hquotient]
  exact UInt32.toNat_ofNat'.symm

/-! ### Entries -/

def Entry.toIndexEntry (e : Entry) : IndexEntry := ⟨e.size.toNat, e.sector.toNat⟩

/-- The numbers of an entry take three bytes each. -/
theorem lt_of_run_readEntry {bs r : Bytes} {e : IndexEntry} (h : readEntry.run bs = .ok (e, r)) :
    e.size < 0x1000000 ∧ e.sector < 0x1000000 := by
  obtain ⟨size, t, hsize, hrest⟩ := Reader.run_bind_eq_ok.1 h
  obtain ⟨sector, u, hsector, hdone⟩ := Reader.run_bind_eq_ok.1 hrest
  obtain ⟨_, ⟨hlt, -⟩, -⟩ := ByteReader.recognizes_u24.word hsize
  obtain ⟨_, ⟨hlt', -⟩, -⟩ := ByteReader.recognizes_u24.word hsector
  cases hdone
  exact ⟨hlt, hlt'⟩

theorem agrees_entry (hfit : LengthsFit s) (category : UInt8) (archive : UInt32) :
    Agrees Entry.toIndexEntry (entry s category archive) (s.entry category archive) := by
  refine Agrees.bind (Agrees.lift _) fun file hindex => ?_
  have harchive := archive.toNat_lt
  refine .wide (hfit.size_lt hindex) fun length hlength => ?_
  refine .wide (by rw [UInt32.toNat_toUInt64, entrySize]; omega) fun offset hoffset => ?_
  rw [UInt32.toNat_toUInt64] at hoffset
  refine .wide (by rw [hoffset, entrySize]; omega) fun stop hstop => ?_
  dsimp only [id] at *
  rw [hoffset] at hstop
  have hbeyond : length < stop ↔ ¬ archive.toNat * entrySize + entrySize ≤ file.size := by
    rw [UInt64.lt_iff_toNat_lt, hstop, hlength, not_le]
    rfl
  by_cases hpresent : archive.toNat * entrySize + entrySize ≤ file.size
  · rw [slice?, if_pos hpresent, if_neg (mt hbeyond.1 (not_not.2 hpresent)), hoffset, hstop]
    refine Agrees.bind (Agrees.lift _) ?_
    rintro ⟨e, r⟩ he
    obtain ⟨hsize, hsector⟩ := lt_of_run_readEntry he
    refine .word (Nat.lt_trans hsize (by decide)) fun size hwordSize => ?_
    refine .word (Nat.lt_trans hsector (by decide)) fun sector hwordSector => ?_
    dsimp only [id] at hwordSize hwordSector ⊢
    rw [hwordSize, hwordSector]
    refine .ite Iff.rfl (fun _ => .throw _ _) fun _ => ?_
    refine .ite ?_ (fun _ => .throw _ _) fun _ => .pure ?_
    · rw [← UInt32.toNat_inj, UInt32.lt_iff_toNat_lt, hwordSector]
      rfl
    · rw [Entry.toIndexEntry, hwordSize, hwordSector]
  · rw [slice?, if_neg hpresent, if_pos (hbeyond.2 hpresent), hoffset, hlength]
    exact .throw _ _

/-! ### Sectors -/

theorem lt_of_run_readHeader {bs r : Bytes} {h : SectorHeader} (hrun : readHeader.run bs = .ok (h, r)) :
    h.next < 0x1000000 := by
  obtain ⟨archive, t, -, hrest⟩ := Reader.run_bind_eq_ok.1 hrun
  obtain ⟨part, u, -, hrest⟩ := Reader.run_bind_eq_ok.1 hrest
  obtain ⟨next, v, hnext, hrest⟩ := Reader.run_bind_eq_ok.1 hrest
  obtain ⟨store, w, -, hdone⟩ := Reader.run_bind_eq_ok.1 hrest
  obtain ⟨_, ⟨hlt, -⟩, -⟩ := ByteReader.recognizes_u24.word hnext
  cases hdone
  exact hlt

theorem headerFault?_words {h : SectorHeader} {part store : UInt32} (hstore : store.toNat = storeNumber category) :
    headerFault? h archive part store = SectorStore.headerFault? h category archive part.toNat := by
  simp only [headerFault?, SectorStore.headerFault?, ne_eq, ← UInt32.toNat_inj, UInt16.toNat_toUInt32,
    UInt8.toNat_toUInt32, hstore]

theorem agrees_readSector (s : SectorStore) (category : UInt8) (archive : UInt32) {store : UInt32}
    (hstore : store.toNat = storeNumber category) {size collected chunk : UInt64} (part sector : UInt32)
    (hle : collected.toNat ≤ size.toNat) (hchunk : chunk.toNat = min (size.toNat - collected.toNat) chunkSize) :
    Agrees (Prod.map id UInt32.toNat) (readSector s category archive store size collected chunk part sector)
      (s.readSector category archive size.toNat (size.toNat - collected.toNat) part.toNat sector.toNat) := by
  have hsector := sector.toNat_lt
  have hposition : sector.toUInt64.toNat * sectorSize = sector.toNat * sectorSize := by
    rw [UInt32.toNat_toUInt64]
  unfold readSector SectorStore.readSector
  rw [Nat.sub_sub_self hle, ← hchunk]
  have hsmall : chunk.toNat ≤ 512 := hchunk ▸ Nat.min_le_right _ _
  refine .ite ?_ (fun _ => .throw _ _) fun _ => ?_
  · rw [← UInt32.toNat_inj, UInt32.lt_iff_toNat_lt]
    rfl
  refine .wide (by rw [headerSize]; omega) fun count hcount => ?_
  refine .wide (by rw [hposition, sectorSize]; omega) fun position hword => ?_
  dsimp only
  rw [hcount, hword, hposition]
  cases slice? s.data (sector.toNat * sectorSize) (headerSize + chunk.toNat) with
  | none => exact .throw _ _
  | some bytes =>
    refine Agrees.bind (Agrees.lift _) ?_
    rintro ⟨header, content⟩ hrun
    dsimp only [id]
    rw [headerFault?_words hstore]
    cases SectorStore.headerFault? header category archive part.toNat with
    | some fault => exact .throw _ _
    | none =>
      refine .word (Nat.lt_trans (lt_of_run_readHeader hrun) (by decide)) fun next hnext => .pure ?_
      exact Prod.ext rfl hnext

/-! ### Walks -/

/-- Each part before the given one has left at least one byte, so that there are not more parts than bytes. -/
theorem agrees_follow (s : SectorStore) (category : UInt8) (archive : UInt32) {store : UInt32}
    (hstore : store.toNat = storeNumber category) {size collected : UInt64} (part sector : UInt32)
    (hsize : size.toNat ≤ archiveLimit) (hle : collected.toNat ≤ size.toNat) (hpart : part.toNat ≤ collected.toNat) :
    Agrees id (follow s category archive store size collected part sector)
      (s.follow category archive size.toNat (size.toNat - collected.toNat) part.toNat sector.toNat) := by
  induction hleft : size.toNat - collected.toNat using Nat.strongRecOn generalizing collected part sector with
  | ind left ih =>
    subst hleft
    rw [follow, SectorStore.follow]
    by_cases hdone : size.toNat - collected.toNat = 0
    · rw [dif_pos hdone, dif_neg (by rw [UInt64.lt_iff_toNat_lt]; omega)]
      exact .pure rfl
    rw [dif_neg hdone, dif_pos (by rw [UInt64.lt_iff_toNat_lt]; omega)]
    refine .minus (UInt64.le_iff_toNat_le.2 hle) fun left hleft => ?_
    have hleft : left.toNat = size.toNat - collected.toNat := by omega
    refine .wide (by rw [hleft, chunkSize]; omega) fun chunk hchunk => ?_
    rw [hleft] at hchunk
    dsimp only
    have hsector := agrees_readSector s category archive hstore part sector hle hchunk
    refine Agrees.bind hsector ?_
    rintro ⟨content, next⟩ -
    have hlimit : size.toNat < 0x100000000 := Nat.lt_of_le_of_lt hsize (by decide)
    -- a part takes at least one byte and no more than is left, which keeps both bounds for the next one
    have hgrows : 1 ≤ chunk.toNat ∧ chunk.toNat ≤ size.toNat - collected.toNat := by
      rw [hchunk, chunkSize]
      omega
    refine .wide (by omega) fun collected' hcollected' => .word (by omega) fun part' hpart' => ?_
    dsimp only [Prod.map] at hcollected' hpart' ⊢
    have hrest := ih (size.toNat - collected'.toNat) (by omega) part' next (by omega) (by omega) rfl
    rw [hcollected', hpart', ← Nat.sub_sub, hchunk] at hrest
    exact Agrees.bind hrest fun rest _ => .pure rfl

theorem run_read (hfit : LengthsFit s) (category : UInt8) (archive : UInt32) :
    (read s category archive).run = some (s.read category archive) := by
  refine Agrees.run (Agrees.bind (agrees_entry hfit category archive) fun e he => ?_)
  have hcategory := category.toNat_lt
  refine .word (by rw [UInt8.toNat_toUInt32]; omega) fun store hstore => ?_
  rw [UInt8.toNat_toUInt32] at hstore
  have hlimit := size_le_of_entry he
  exact agrees_follow s category archive hstore 0 e.sector hlimit (Nat.zero_le _) le_rfl

end Words

/-- Why an archive does not read, for any files: there is no such category, or the index refuses the archive, or the
chain breaks, at the first sector that does not pass the checks. There is no other reason, and nothing overflows in
words. Whether the index refuses an archive is told by the count of its archives, unless an archive that has a sound
entry is counted out, for which the index must have 2 ^ 32 entries. -/
theorem read_classified (s : SectorStore) (category : UInt8) (archive : UInt32) :
    (s.read category archive = .error (categoryNotFound category) ↔ s.categoryCount ≤ category.toNat) ∧
    ((∃ fault, s.read category archive = .error (corruptIndex category archive fault)) ↔
      s.Refuses category archive) ∧
    (((∃ fault, s.read category archive = .error (corruptIndex category archive fault)) ↔
        s.CountedOut category archive) ↔
      ∀ file, s.index category = .ok file → file.size / entrySize % 0x100000000 ≤ archive.toNat →
        s.Refuses category archive) ∧
    (∀ file, s.index category = .ok file → file.size / entrySize < 0x100000000 →
      ((∃ fault, s.read category archive = .error (corruptIndex category archive fault)) ↔
        s.CountedOut category archive)) ∧
    (∀ n fault, s.read category archive = .error (corruptChain category archive n fault) ↔
      ¬ s.Refuses category archive ∧ ∃ e ∈ s.entryAt? category archive, ∃ before,
        s.FaultBehind category archive e.size 0 e.sector before n fault) ∧
    (∀ err, s.read category archive = .error err → err = categoryNotFound category ∨
      (∃ fault, err = corruptIndex category archive fault) ∨
      ∃ n fault, err = corruptChain category archive n fault) ∧
    (Words.LengthsFit s → (Words.read s category archive).run = some (s.read category archive) ∧
      (Words.sectorCount s).run = some (.ok s.sectorCount) ∧
      (Words.archiveCount s category).run = some (s.archiveCount category)) := by
  have hcounts : ((∃ fault, s.read category archive = .error (corruptIndex category archive fault)) ↔
      s.CountedOut category archive) ↔
      ∀ file, s.index category = .ok file → file.size / entrySize % 0x100000000 ≤ archive.toNat →
        s.Refuses category archive := by
    rw [read_eq_corruptIndex_iff]
    exact refuses_iff_countedOut s category archive
  refine ⟨read_eq_categoryNotFound_iff, read_eq_corruptIndex_iff, hcounts, ?_,
    fun _ _ => read_eq_corruptChain_iff, fun _ => cause_of_read_eq_error, fun hfit =>
      ⟨Words.run_read hfit category archive, Words.run_sectorCount hfit, Words.run_archiveCount hfit category⟩⟩
  intro file hindex hlt
  refine hcounts.2 fun file' hindex' hle => ?_
  obtain rfl : file = file' := Except.ok.inj (hindex.symm.trans hindex')
  rw [Nat.mod_eq_of_lt hlt] at hle
  exact .inl ⟨file, hindex, hle⟩

/-- A store whose only archive goes on in a sector right behind the end of the data. -/
def brokenOff : SectorStore where
  data := (List.replicate sectorSize 0 ++ [0, 1, 0, 0, 0, 0, 2, 1] ++ List.replicate chunkSize (0x41 : UInt8)).toArray
  indices := [#[0, 0, 0, 0, 0, 0, 0, 2, 0x58, 0, 0, 1]]

theorem size_brokenOff : brokenOff.data.size = 1040 := by
  rw [brokenOff, List.size_toArray, List.length_append, List.length_append, List.length_replicate,
    List.length_replicate]
  rfl

theorem entryAt?_brokenOff : brokenOff.entryAt? 0 1 = some ⟨600, 1⟩ := by decide +kernel

theorem not_refuses_brokenOff : ¬ brokenOff.Refuses 0 1 := by
  rintro (⟨file, hfile, hle⟩ | ⟨e, he, h⟩)
  · cases (show brokenOff.index 0 = .ok _ from rfl).symm.trans hfile
    exact absurd hle (by decide)
  · cases entryAt?_brokenOff.symm.trans he
    rw [toNat_sectorCount, wholeSectors, size_brokenOff] at h
    exact absurd h (by decide)

theorem faultBehind_brokenOff : brokenOff.FaultBehind 0 1 600 0 1 [1] 2 .beyondData := by
  have hhead : brokenOff.header? 1 = some ⟨1, 0, 2, 1⟩ := by decide +kernel
  have hcount : brokenOff.sectorCount.toNat = 2 := by
    rw [toNat_sectorCount, wholeSectors, size_brokenOff]
    rfl
  have hserves : brokenOff.Serves 0 1 600 0 1 2 :=
    ⟨le_rfl, by omega, by rw [size_brokenOff]; decide, _, hhead, rfl, rfl, rfl, rfl⟩
  refine .more (by decide) hserves (.here (by decide) (.beyondData (by omega) (by omega) fun h => ?_))
  have hpresent := h.present
  rw [size_brokenOff] at hpresent
  exact absurd hpresent (by decide)

theorem lengthsFit_brokenOff : Words.LengthsFit brokenOff where
  data := by
    rw [size_brokenOff]
    decide
  index file hfile := by
    cases List.mem_singleton.1 hfile
    decide

theorem read_classified_brokenOff :
    (brokenOff.FaultBehind 0 1 600 0 1 [1] 2 .beyondData ∧
      brokenOff.read 0 1 = .error (corruptChain 0 1 2 .beyondData) ∧
      (Words.read brokenOff 0 1).run = some (.error (corruptChain 0 1 2 .beyondData))) ∧
    (brokenOff.read 0 0x80000000 = .error (corruptIndex 0 0x80000000 (.beyondFile 0x300000000 12)) ∧
      brokenOff.Refuses 0 0x80000000 ∧ brokenOff.CountedOut 0 0x80000000) ∧
    brokenOff.read 255 0 = .error (categoryNotFound 255) := by
  have hindex : brokenOff.read 0 0x80000000 =
      .error (corruptIndex 0 0x80000000 (.beyondFile 0x300000000 12)) := by decide +kernel
  have hcategory : brokenOff.categoryCount ≤ (255 : UInt8).toNat := by decide
  obtain ⟨-, -, -, -, hchain, -, hwords⟩ := read_classified brokenOff 0 1
  have hbroken := (hchain 2 .beyondData).2 ⟨not_refuses_brokenOff, _, entryAt?_brokenOff, _, faultBehind_brokenOff⟩
  obtain ⟨-, hrefused, -, hcounted, -, -, -⟩ := read_classified brokenOff 0 0x80000000
  exact ⟨⟨faultBehind_brokenOff, hbroken, hbroken ▸ (hwords lengthsFit_brokenOff).1⟩,
    ⟨hindex, hrefused.1 ⟨_, hindex⟩, (hcounted _ rfl (by decide)).1 ⟨_, hindex⟩⟩,
    (read_classified brokenOff 255 0).1.2 hcategory⟩

/-- A store with one sector, whose index has an entry for an empty archive and behind it so many entries of zeros. -/
def padded (count : ℕ) : SectorStore where
  data := Array.replicate sectorSize 0
  indices := [(encodeEntry ⟨0, 1⟩ ++ List.replicate (count * entrySize) 0).toArray]

theorem archiveCount_padded (count : ℕ) : (padded count).archiveCount 0 = .ok (UInt32.ofNat (count + 1)) := by
  have hindex : (padded count).index 0 = .ok (encodeEntry ⟨0, 1⟩ ++ List.replicate (count * entrySize) 0).toArray := rfl
  rw [archiveCount_of_index hindex, List.size_toArray, List.length_append, length_encodeEntry, List.length_replicate,
    Nat.add_mul_div_right _ _ (by decide), Nat.add_comm]
  rfl

theorem read_padded (count : ℕ) : (padded count).read 0 0 = .ok [] := by
  have hsectors : (padded count).sectorCount.toNat = 1 := by
    rw [toNat_sectorCount, wholeSectors, padded, Array.size_replicate]
    rfl
  have hslot : slot? (encodeEntry ⟨0, 1⟩ ++ List.replicate (count * entrySize) 0) 0 = some (encodeEntry ⟨0, 1⟩) := by
    rw [slot?, if_pos, Nat.zero_mul, List.drop_zero, List.take_left' (length_encodeEntry _)]
    rw [List.length_append, length_encodeEntry]
    omega
  have hentry : (padded count).entry 0 0 = .ok ⟨0, 1⟩ := by
    rw [entry_of_slot_some (e := ⟨0, 1⟩) rfl hslot (by decide) (by decide), hsectors]
    rfl
  rw [read_of_entry hentry]
  exact follow_zero ..

/-- In an index of 2 ^ 32 entries the first archive reads, but the count says that there are no archives. -/
theorem overfull_reads : (padded 0xFFFFFFFF).archiveCount 0 = .ok 0 ∧ (padded 0xFFFFFFFF).read 0 0 = .ok [] ∧
    ¬ ((∃ fault, (padded 0xFFFFFFFF).read 0 0 = .error (corruptIndex 0 0 fault)) ↔
      (padded 0xFFFFFFFF).CountedOut 0 0) := by
  have hcount : (padded 0xFFFFFFFF).archiveCount 0 = .ok 0 := archiveCount_padded 0xFFFFFFFF
  have hread := read_padded 0xFFFFFFFF
  refine ⟨hcount, hread, fun h => ?_⟩
  obtain ⟨fault, hfault⟩ := h.2 (.inl ⟨0, hcount, UInt32.le_refl 0⟩)
  cases hread.symm.trans hfault

end AssetCache.SectorStore
