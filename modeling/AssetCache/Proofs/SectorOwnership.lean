import Mathlib
import AssetCache.Proofs.SectorWalk

/-!
# Whose a sector is

The head of a sector names one archive, so no sector is read for two (`eq_of_mem_walk`). A walk depends on
the bytes of the sectors that it visits and on nothing else (`walk_congr`). Main statement:
`read_isolated`, what happens to the sectors of one archive does not change how another one reads.
-/

namespace AssetCache

/-- A slice depends on nothing outside of it but the length of the file. -/
theorem slice?_congr {file file' : Array UInt8} {start count : Nat} (hsize : file'.size = file.size)
    (h : ∀ i, start ≤ i → i < start + count → file'[i]? = file[i]?) :
    slice? file' start count = slice? file start count := by
  have heq : (file'.toList.drop start).take count = (file.toList.drop start).take count := by
    refine List.ext_getElem? fun k => ?_
    simp only [List.getElem?_take, List.getElem?_drop, Array.getElem?_toList]
    split
    · next hk => exact h (start + k) (Nat.le_add_right _ _) (Nat.add_lt_add_left hk _)
    · rfl
  refine Option.ext fun bs => ?_
  rw [slice?_eq_some, slice?_eq_some, hsize, heq]

namespace SectorStore
variable {s s' : SectorStore} {category category' : UInt8} {archive archive' : UInt32}
  {size size' part part' sector sector' next : Nat} {chain chain' : List Nat} {out : Bytes}

/-! ### Owners -/

/-- Every sector of a walk names the archive and the category that the walk is for. -/
theorem owner_of_walk (h : s.Walk category archive size part sector chain) {n : Nat} (hn : n ∈ chain) :
    ∃ hd ∈ s.header? n, hd.archive.toNat = archive.toNat ∧ hd.store.toNat = storeNumber category := by
  obtain ⟨i, hi⟩ := List.mem_iff_getElem?.1 hn
  obtain ⟨_, hs, -⟩ := serves_of_walk h hi
  obtain ⟨hd, hm, ha, -, hst, -⟩ := hs.header
  exact ⟨hd, hm, ha, hst⟩

/-- Walks that meet in a sector are for the same archive. -/
theorem eq_of_mem_walk (h : s.Walk category archive size part sector chain)
    (h' : s.Walk category' archive' size' part' sector' chain') {n : Nat} (hn : n ∈ chain)
    (hn' : n ∈ chain') : category = category' ∧ archive = archive' := by
  obtain ⟨hd, hm, ha, hst⟩ := owner_of_walk h hn
  obtain ⟨hd', hm', ha', hst'⟩ := owner_of_walk h' hn'
  obtain rfl : hd = hd' := Option.some.inj (hm.symm.trans hm')
  have hcat : category.toNat + 1 = category'.toNat + 1 := hst.symm.trans hst'
  exact ⟨UInt8.toNat_inj.1 (Nat.succ.inj hcat), UInt32.toNat_inj.1 (ha.symm.trans ha')⟩

/-! ### Stores that agree -/

/-- That the data of two stores are of one length and the same in every sector for which `P` holds. -/
structure AgreeOn (P : Nat → Prop) (s s' : SectorStore) : Prop where
  size : s'.data.size = s.data.size
  bytes : ∀ i, P (i / sectorSize) → s'.data[i]? = s.data[i]?

theorem AgreeOn.mono {P Q : Nat → Prop} (h : AgreeOn P s s') (hQ : ∀ n, Q n → P n) : AgreeOn Q s s' :=
  ⟨h.size, fun i hi => h.bytes i (hQ _ hi)⟩

/-- The store with another byte at a place of its data. -/
def setByte (s : SectorStore) (i : Nat) (b : UInt8) : SectorStore :=
  { s with data := s.data.setIfInBounds i b }

theorem agreeOn_setByte (s : SectorStore) (i : Nat) (b : UInt8) :
    AgreeOn (· ≠ i / sectorSize) s (s.setByte i b) where
  size := Array.size_setIfInBounds
  bytes _ hj := Array.getElem?_setIfInBounds_ne fun e => hj (congrArg (· / sectorSize) e.symm)

theorem sectorCount_congr (hsize : s'.data.size = s.data.size) : s'.sectorCount = s.sectorCount :=
  congrArg (fun size => UInt32.ofNat (min (size / sectorSize) 0xFFFFFFFF)) hsize

section Agree
variable {P : Nat → Prop} {n : Nat}

theorem AgreeOn.bytes_of_mem (h : AgreeOn P s s') (hn : P n) {i : Nat} (hle : n * sectorSize ≤ i)
    (hlt : i < n * sectorSize + sectorSize) : s'.data[i]? = s.data[i]? := by
  refine h.bytes i ?_
  have hi : i / sectorSize = n := Nat.div_eq_of_lt_le hle (by rwa [Nat.succ_mul])
  rwa [hi]

theorem header?_congr (h : AgreeOn P s s') (hn : P n) : s'.header? n = s.header? n := by
  have hslice : slice? s'.data (n * sectorSize) headerSize = slice? s.data (n * sectorSize) headerSize :=
    slice?_congr h.size fun i hle hlt => h.bytes_of_mem hn hle (hlt.trans (by simp [headerSize, sectorSize]))
  rw [header?, header?, hslice]

theorem chunk_congr (h : AgreeOn P s s') (hn : P n) {count : Nat} (hc : count ≤ chunkSize) :
    s'.chunk n count = s.chunk n count := by
  refine List.ext_getElem? fun k => ?_
  simp only [chunk, Array.toList_extract, List.extract_eq_take_drop, List.getElem?_take, List.getElem?_drop,
    Array.getElem?_toList]
  split
  · refine h.bytes_of_mem hn ?_ ?_ <;> simp only [headerSize, sectorSize, chunkSize] at * <;> omega
  · rfl

theorem serves_congr (h : AgreeOn P s s') (hn : P n) (hs : s.Serves category archive size part n next) :
    s'.Serves category archive size part n next where
  pos := hs.pos
  le := sectorCount_congr h.size ▸ hs.le
  present := h.size ▸ hs.present
  header := header?_congr h hn ▸ hs.header

/-- A walk is one in every store that agrees on its sectors. -/
theorem walk_congr (h : AgreeOn P s s') (hw : s.Walk category archive size part sector chain)
    (hchain : ∀ n ∈ chain, P n) : s'.Walk category archive size part sector chain := by
  induction hw with
  | done hz => exact .done hz
  | more hz hs rest ih =>
    obtain ⟨hn, hrest⟩ := List.forall_mem_cons.1 hchain
    exact .more hz (serves_congr h hn hs) (ih hrest)

theorem contentFrom_congr (h : AgreeOn P s s') (part : Nat) (hchain : ∀ n ∈ chain, P n) :
    s'.contentFrom size part chain = s.contentFrom size part chain := by
  induction chain generalizing part with
  | nil => rfl
  | cons n chain ih =>
    obtain ⟨hn, hrest⟩ := List.forall_mem_cons.1 hchain
    have hcount : chunkLength size part ≤ chunkSize := Nat.min_le_left _ _
    rw [contentFrom_cons, contentFrom_cons, chunk_congr h hn hcount, ih _ hrest]

end Agree

/-! ### Reading -/

theorem sectorsOf_of_walk {e : IndexEntry} (he : s.entry category archive = .ok e)
    (hw : s.Walk category archive e.size 0 e.sector chain) : s.sectorsOf category archive = chain := by
  have hv := visited_of_walk hw
  rw [leftAt_zero] at hv
  simp only [sectorsOf, he, hv]

/-- What an archive reads as, said of the sectors that are looked at. -/
theorem walk_of_read (h : s.read category archive = .ok out) : ∃ e, s.entry category archive = .ok e ∧
    s.Walk category archive e.size 0 e.sector (s.sectorsOf category archive) ∧
      out = s.contentFrom e.size 0 (s.sectorsOf category archive) := by
  obtain ⟨e, he, chain, hw, hout⟩ := read_eq_ok_iff.1 h
  rw [sectorsOf_of_walk he hw]
  exact ⟨e, he, hw, hout⟩

theorem disjoint_sectorsOf (h : s.read category archive = .ok out) {out' : Bytes}
    (h' : s.read category' archive' = .ok out') (hne : (category', archive') ≠ (category, archive)) :
    (s.sectorsOf category archive).Disjoint (s.sectorsOf category' archive') := by
  obtain ⟨e, -, hw, -⟩ := walk_of_read h
  obtain ⟨e', -, hw', -⟩ := walk_of_read h'
  intro n hn hn'
  obtain ⟨rfl, rfl⟩ := eq_of_mem_walk hw hw' hn hn'
  exact hne rfl

/-- An archive reads the same in every store that has its entry and agrees on its sectors. -/
theorem read_congr (h : s.read category archive = .ok out)
    (hentry : s'.entry category archive = s.entry category archive)
    (hagree : AgreeOn (· ∈ s.sectorsOf category archive) s s') :
    s'.read category archive = .ok out ∧ s'.sectorsOf category archive = s.sectorsOf category archive := by
  obtain ⟨e, he, hw, rfl⟩ := walk_of_read h
  rw [he] at hentry
  have hw' := walk_congr hagree hw fun _ hn => hn
  refine ⟨read_eq_ok_iff.2 ⟨e, hentry, _, hw', ?_⟩, sectorsOf_of_walk hentry hw'⟩
  exact (contentFrom_congr hagree 0 fun _ hn => hn).symm

/-- An index entry does not depend on what the sectors hold. -/
theorem entry_congr (hindices : s'.indices = s.indices) (hsize : s'.data.size = s.data.size) :
    s'.entry category archive = s.entry category archive := by
  simp only [entry, index, hindices, sectorCount_congr hsize]

/-- Archives have no sector in common, each reads the same whatever stands in other sectors than its own,
and so whatever becomes of the sectors of another. -/
theorem read_isolated (h : s.read category archive = .ok out) :
    (∀ category' archive' out', (category', archive') ≠ (category, archive) →
      s.read category' archive' = .ok out' →
        (s.sectorsOf category archive).Disjoint (s.sectorsOf category' archive') ∧
        ∀ s' : SectorStore, s'.entry category archive = s.entry category archive →
          AgreeOn (· ∉ s.sectorsOf category' archive') s s' → s'.read category archive = .ok out) ∧
    ∀ s' : SectorStore, s'.entry category archive = s.entry category archive →
      AgreeOn (· ∈ s.sectorsOf category archive) s s' →
        s'.read category archive = .ok out ∧
          s'.sectorsOf category archive = s.sectorsOf category archive := by
  refine ⟨fun category' archive' out' hne h' => ?_, fun s' => read_congr h⟩
  have hdisjoint := disjoint_sectorsOf h h' hne
  refine ⟨hdisjoint, fun s' hentry hagree => ?_⟩
  exact (read_congr h hentry (hagree.mono fun n hn hn' => hdisjoint hn hn')).1

/-- The sector that no archive uses, and one sector for each of two archives, the second of which is cut off
behind its only byte. -/
def sideBySide : Bytes :=
  List.replicate sectorSize 0 ++ [0, 1, 0, 0, 0, 0, 0, 1, 0x68, 0x69] ++ List.replicate 510 0 ++
    [0, 2, 0, 0, 0, 0, 0, 1, 0x21]

def neighbours : SectorStore where
  data := sideBySide.toArray
  indices := [#[0, 0, 0, 0, 0, 0, 0, 0, 2, 0, 0, 1, 0, 0, 1, 0, 0, 2]]

theorem read_isolated_neighbours :
    neighbours.read 0 1 = .ok [0x68, 0x69] ∧ neighbours.read 0 2 = .ok [0x21] ∧
    (neighbours.sectorsOf 0 1).Disjoint (neighbours.sectorsOf 0 2) ∧
    (neighbours.setByte 1048 0).read 0 2 = .ok [0] ∧
    (neighbours.setByte 1048 0).read 0 1 = .ok [0x68, 0x69] := by
  have first : neighbours.read 0 1 = .ok [0x68, 0x69] := by decide +kernel
  have second : neighbours.read 0 2 = .ok [0x21] := by decide +kernel
  have hsectors : neighbours.sectorsOf 0 2 = [2] := by decide +kernel
  have hset := agreeOn_setByte neighbours 1048 0
  have hagree : AgreeOn (· ∉ neighbours.sectorsOf 0 2) neighbours (neighbours.setByte 1048 0) :=
    hset.mono fun n hn e => hn (by rw [hsectors, e]; exact List.mem_singleton_self 2)
  obtain ⟨hdisjoint, hread⟩ := (read_isolated first).1 0 2 _ (by decide) second
  exact ⟨first, second, hdisjoint, by decide +kernel, hread _ (entry_congr rfl hset.size) hagree⟩

end SectorStore

end AssetCache
