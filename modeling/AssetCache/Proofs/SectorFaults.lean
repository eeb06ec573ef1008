import Mathlib
import AssetCache.Proofs.ReaderWords
import AssetCache.Proofs.SectorWalk

/-!
# Why an archive does not read

An index refuses an archive (`Refuses`), or it has an entry for it whose chain is whole (`Walk`) or breaks:
`FaultBehind` puts sectors that pass every check in front of the first one that does not, and `AtFault` says what is
wrong with that one. There is nothing else for an entry (`entry_cases`), a sector (`serves_or_atFault`), a chain
(`walk_or_faultBehind`) or an archive (`read_cases`). The count of the archives of a category is a word and drops the
high bits of the number of entries, so that it tells which archives are refused only where it leaves out none that has
a sound entry (`refuses_iff_countedOut`).
-/

namespace AssetCache.SectorStore
open LoadError
variable {s : SectorStore} {category : UInt8} {archive : UInt32} {size part sector next n : ℕ} {e : IndexEntry}
  {before chain : List ℕ} {fault : ChainFault}

/-! ### Entries -/

/-- The index entry that a store has for an archive, whatever it says. -/
def entryAt? (s : SectorStore) (category : UInt8) (archive : UInt32) : Option IndexEntry := do
  let file ← s.indices[category.toNat]?
  match readEntry.run (← slice? file (archive.toNat * entrySize) entrySize) with
  | .ok (e, _) => some e
  | .error _ => none

/-- That the index entry of an archive cannot be followed. -/
def Unsound (s : SectorStore) (category : UInt8) (archive : UInt32) : Prop :=
  ∃ e ∈ s.entryAt? category archive, archiveLimit < e.size ∨ e.sector = 0 ∨ s.sectorCount.toNat < e.sector

/-- That the index of a category has no entry for an archive, or one that cannot be followed. -/
def Refuses (s : SectorStore) (category : UInt8) (archive : UInt32) : Prop :=
  (∃ file, s.index category = .ok file ∧ file.size / entrySize ≤ archive.toNat) ∨ s.Unsound category archive

/-- The same, told by the count of the archives of a category. -/
def CountedOut (s : SectorStore) (category : UInt8) (archive : UInt32) : Prop :=
  (∃ count, s.archiveCount category = .ok count ∧ count ≤ archive) ∨ s.Unsound category archive

theorem run_readEntry_of_length {bs : Bytes} (h : bs.length = entrySize) : ∃ e, readEntry.run bs = .ok (e, []) := by
  match bs, h with
  | [_, _, _, _, _, _], _ => exact ⟨_, rfl⟩

section Index
variable {file : Array UInt8}

theorem entryAt?_of_index (hfile : s.indices[category.toNat]? = some file)
    (hin : archive.toNat < file.size / entrySize) :
    ∃ e, s.entryAt? category archive = some e ∧ s.entry category archive =
      if archiveLimit < e.size then .error (corruptIndex category archive (.archiveTooLarge e.size))
      else if e.sector = 0 ∨ s.sectorCount.toNat < e.sector then
        .error (corruptIndex category archive (.startOutside e.sector s.sectorCount.toNat))
      else .ok e := by
  have hle : archive.toNat * entrySize + entrySize ≤ file.size := by
    rw [entrySize] at hin ⊢
    omega
  have hslice := slice?_eq_some.2 ⟨hle, rfl⟩
  have hlength : ((file.toList.drop (archive.toNat * entrySize)).take entrySize).length = entrySize := by
    simp only [List.length_take, List.length_drop, Array.length_toList]
    omega
  obtain ⟨e, hrun⟩ := run_readEntry_of_length hlength
  refine ⟨e, ?_, ?_⟩
  · simp only [entryAt?, hfile, hslice, hrun, Option.bind_eq_bind, Option.bind_some]
  · simp only [entry, index, hfile, hslice, hrun, bind, Except.bind]
    rfl

theorem entryAt?_of_le (hfile : s.indices[category.toNat]? = some file)
    (hout : file.size / entrySize ≤ archive.toNat) :
    s.entryAt? category archive = none ∧ s.entry category archive =
      .error (corruptIndex category archive (.beyondFile (archive.toNat * entrySize) file.size)) := by
  have hslice : slice? file (archive.toNat * entrySize) entrySize = none := by
    rw [slice?, if_neg]
    rw [entrySize] at hout ⊢
    omega
  constructor
  · simp only [entryAt?, hfile, hslice, Option.bind_eq_bind, Option.bind_some, Option.bind_none]
  · simp only [entry, index, hfile, hslice, bind, Except.bind]

end Index

/-- What looking up an entry comes to. -/
theorem entry_cases (s : SectorStore) (category : UInt8) (archive : UInt32) :
    (s.categoryCount ≤ category.toNat ∧ ¬ s.Refuses category archive ∧ s.entryAt? category archive = none ∧
      s.entry category archive = .error (categoryNotFound category)) ∨
    (category.toNat < s.categoryCount ∧ s.Refuses category archive ∧
      ∃ fault, s.entry category archive = .error (corruptIndex category archive fault)) ∨
    (category.toNat < s.categoryCount ∧ ¬ s.Refuses category archive ∧
      ∃ e, s.entryAt? category archive = some e ∧ e.size ≤ archiveLimit ∧ s.entry category archive = .ok e) := by
  cases hfile : s.indices[category.toNat]? with
  | none =>
    have hnone : s.entryAt? category archive = none := by
      simp only [entryAt?, hfile, Option.bind_eq_bind, Option.bind_none]
    refine .inl ⟨List.getElem?_eq_none_iff.1 hfile, ?_, hnone, ?_⟩
    · rintro (⟨file, hindex, -⟩ | ⟨e, he, -⟩)
      · simp only [index, hfile, reduceCtorEq] at hindex
      · cases hnone.symm.trans he
    · simp only [entry, index, hfile, bind, Except.bind]
  | some file =>
    have hcategory : category.toNat < s.categoryCount := (List.getElem?_eq_some_iff.1 hfile).1
    have hindex : s.index category = .ok file := by simp only [index, hfile]
    right
    by_cases hin : archive.toNat < file.size / entrySize
    · obtain ⟨e, hentryAt, hentry⟩ := entryAt?_of_index hfile hin
      have hrefuses : s.Refuses category archive ↔
          archiveLimit < e.size ∨ e.sector = 0 ∨ s.sectorCount.toNat < e.sector := by
        simp only [Refuses, Unsound, hindex, hentryAt, Except.ok.injEq, Option.mem_some]
        constructor
        · rintro (⟨_, rfl, hle⟩ | ⟨_, rfl, h⟩)
          · omega
          · exact h
        · exact fun h => .inr ⟨e, rfl, h⟩
      rw [hrefuses, hentry]
      split
      · next hsize => exact .inl ⟨hcategory, .inl hsize, _, rfl⟩
      next hsize =>
      split
      · next hsector => exact .inl ⟨hcategory, .inr hsector, _, rfl⟩
      · next hsector => exact .inr ⟨hcategory, not_or.2 ⟨hsize, hsector⟩, e, hentryAt, not_lt.1 hsize, rfl⟩
    · obtain ⟨-, hentry⟩ := entryAt?_of_le hfile (not_lt.1 hin)
      exact .inl ⟨hcategory, .inl ⟨file, hindex, not_lt.1 hin⟩, _, hentry⟩

theorem archiveCount_of_index {file : Array UInt8} (h : s.index category = .ok file) :
    s.archiveCount category = .ok (UInt32.ofNat (file.size / entrySize)) := by
  rw [archiveCount, h]
  rfl

/-- The count tells an archive from one that the index has no entry for as long as the word holds the number of the
entries, and beyond that for those archives that it reaches. -/
theorem refuses_iff_countedOut (s : SectorStore) (category : UInt8) (archive : UInt32) :
    (s.Refuses category archive ↔ s.CountedOut category archive) ↔
      ∀ file, s.index category = .ok file → file.size / entrySize % 0x100000000 ≤ archive.toNat →
        s.Refuses category archive := by
  cases hindex : s.index category with
  | error err =>
    have hcount : s.archiveCount category = .error err := by
      rw [archiveCount, hindex]
      rfl
    simp [Refuses, CountedOut, hindex, hcount]
  | ok file =>
    have hle : UInt32.ofNat (file.size / entrySize) ≤ archive ↔
        file.size / entrySize % 0x100000000 ≤ archive.toNat := by
      rw [UInt32.le_iff_toNat_le, UInt32.toNat_ofNat']
    have hmod := Nat.mod_le (file.size / entrySize) 0x100000000
    simp only [Refuses, CountedOut, hindex, archiveCount_of_index hindex, Except.ok.injEq, exists_eq_left', hle,
      forall_eq']
    grind

theorem size_le_of_entry (h : s.entry category archive = .ok e) : e.size ≤ archiveLimit := by
  rcases entry_cases s category archive with ⟨-, -, -, hf⟩ | ⟨-, -, _, hf⟩ | ⟨-, -, e', -, hsize, hf⟩
  · cases h.symm.trans hf
  · cases h.symm.trans hf
  · cases h.symm.trans hf
    exact hsize

/-! ### Sectors -/

/-- That the bytes a sector should hold of a part of an archive are all there. -/
structure Present (s : SectorStore) (size part n : ℕ) : Prop where
  pos : 1 ≤ n
  le : n ≤ s.sectorCount.toNat
  present : n * sectorSize + headerSize + chunkLength size part ≤ s.data.size

/-- What is wrong with a sector where it should hold a part of an archive: the first thing that is. -/
inductive AtFault (s : SectorStore) (category : UInt8) (archive : UInt32) (size part n : ℕ) : ChainFault → Prop
  | ended (h : n = 0 ∨ s.sectorCount.toNat < n) :
    AtFault s category archive size part n (.ended (part * chunkSize) size)
  | beyondData (hpos : 1 ≤ n) (hle : n ≤ s.sectorCount.toNat) (h : ¬ s.Present size part n) :
    AtFault s category archive size part n .beyondData
  | otherArchive (hp : s.Present size part n) {hd : SectorHeader} (hhead : s.header? n = some hd)
    (h : hd.archive.toNat ≠ archive.toNat) :
    AtFault s category archive size part n (.otherArchive archive.toNat hd.archive.toNat)
  | otherPart (hp : s.Present size part n) {hd : SectorHeader} (hhead : s.header? n = some hd)
    (harchive : hd.archive.toNat = archive.toNat) (h : hd.part.toNat ≠ part) :
    AtFault s category archive size part n (.otherPart part hd.part.toNat)
  | otherStore (hp : s.Present size part n) {hd : SectorHeader} (hhead : s.header? n = some hd)
    (harchive : hd.archive.toNat = archive.toNat) (hpart : hd.part.toNat = part)
    (h : hd.store.toNat ≠ storeNumber category) :
    AtFault s category archive size part n (.otherStore (storeNumber category) hd.store.toNat)

theorem readSector_of_header (category : UInt8) (archive : UInt32) (h : s.Present size part n) :
    ∃ hd, s.header? n = some hd ∧ s.readSector category archive size (leftAt size part) part n =
      match headerFault? hd category archive part with
      | some fault => .error (corruptChain category archive n fault)
      | none => .ok (s.chunk n (chunkLength size part), hd.next) := by
  have hbytes : n * sectorSize + (headerSize + min (leftAt size part) chunkSize) ≤ s.data.size := by
    rw [min_leftAt, ← Nat.add_assoc]
    exact h.present
  have hread := readSector_of_present category archive size part h.pos h.le hbytes
  rwa [min_leftAt] at hread

theorem readSector_of_headerFault? (h : s.Present size part n) {hd : SectorHeader} (hhead : s.header? n = some hd)
    (hf : headerFault? hd category archive part = some fault) :
    s.readSector category archive size (leftAt size part) part n =
      .error (corruptChain category archive n fault) := by
  obtain ⟨hd', hhead', hread⟩ := readSector_of_header category archive h
  obtain rfl : hd = hd' := Option.some.inj (hhead.symm.trans hhead')
  rw [hread, hf]

theorem readSector_of_atFault (hleft : leftAt size part ≠ 0) (h : s.AtFault category archive size part n fault) :
    s.readSector category archive size (leftAt size part) part n =
      .error (corruptChain category archive n fault) := by
  cases h with
  | ended h =>
    have hcollected : size - leftAt size part = part * chunkSize := by
      unfold leftAt at hleft ⊢
      omega
    rw [readSector, if_pos h, hcollected]
  | beyondData hpos hle h =>
    have hslice : slice? s.data (n * sectorSize) (headerSize + min (leftAt size part) chunkSize) = none := by
      rw [slice?, if_neg]
      intro hbytes
      rw [min_leftAt, ← Nat.add_assoc] at hbytes
      exact h ⟨hpos, hle, hbytes⟩
    rw [readSector, if_neg (by omega), hslice]
  | otherArchive hp hhead h =>
    refine readSector_of_headerFault? hp hhead ?_
    rw [headerFault?, if_pos h]
  | otherPart hp hhead harchive h =>
    refine readSector_of_headerFault? hp hhead ?_
    rw [headerFault?, if_neg (not_not.2 harchive), if_pos h]
  | otherStore hp hhead harchive hpart h =>
    refine readSector_of_headerFault? hp hhead ?_
    rw [headerFault?, if_neg (not_not.2 harchive), if_neg (not_not.2 hpart), if_pos h]

theorem serves_or_atFault (s : SectorStore) (category : UInt8) (archive : UInt32) (size part n : ℕ) :
    (∃ next, s.Serves category archive size part n next) ∨ ∃ fault, s.AtFault category archive size part n fault := by
  by_cases hin : n = 0 ∨ s.sectorCount.toNat < n
  · exact .inr ⟨_, .ended hin⟩
  by_cases hp : s.Present size part n
  · obtain ⟨hd, hhead, -⟩ := readSector_of_header category archive hp
    by_cases harchive : hd.archive.toNat = archive.toNat
    · by_cases hpart : hd.part.toNat = part
      · by_cases hstore : hd.store.toNat = storeNumber category
        · exact .inl ⟨hd.next, hp.pos, hp.le, hp.present, hd, hhead, harchive, hpart, hstore, rfl⟩
        · exact .inr ⟨_, .otherStore hp hhead harchive hpart hstore⟩
      · exact .inr ⟨_, .otherPart hp hhead harchive hpart⟩
    · exact .inr ⟨_, .otherArchive hp hhead harchive⟩
  · exact .inr ⟨_, .beyondData (by omega) (by omega) hp⟩

/-! ### Chains -/

/-- That the chain from a sector on, for the parts from the given one on, breaks at the sector `n`: the sectors
before that one pass every check. -/
inductive FaultBehind (s : SectorStore) (category : UInt8) (archive : UInt32) (size : ℕ) :
    ℕ → ℕ → List ℕ → ℕ → ChainFault → Prop
  | here {part n : ℕ} {fault : ChainFault} (h : leftAt size part ≠ 0)
    (hf : s.AtFault category archive size part n fault) : FaultBehind s category archive size part n [] n fault
  | more {part sector next n : ℕ} {before : List ℕ} {fault : ChainFault} (h : leftAt size part ≠ 0)
    (hs : s.Serves category archive size part sector next)
    (rest : FaultBehind s category archive size (part + 1) next before n fault) :
    FaultBehind s category archive size part sector (sector :: before) n fault

theorem follow_of_faultBehind (h : s.FaultBehind category archive size part sector before n fault) :
    s.follow category archive size (leftAt size part) part sector =
      .error (corruptChain category archive n fault) := by
  induction h with
  | here h hf =>
    rw [follow, dif_neg h, readSector_of_atFault h hf]
    rfl
  | more h hs rest ih =>
    rw [follow, dif_neg h, readSector_eq_ok_iff.2 ⟨hs, rfl⟩, leftAt_succ]
    simp only [bind, Except.bind, ih]

/-- A chain is whole or breaks somewhere. -/
theorem walk_or_faultBehind (s : SectorStore) (category : UInt8) (archive : UInt32) (size part sector : ℕ) :
    (∃ chain, s.Walk category archive size part sector chain) ∨
      ∃ before n fault, s.FaultBehind category archive size part sector before n fault := by
  induction hl : leftAt size part using Nat.strongRecOn generalizing part sector with
  | ind left ih =>
    subst hl
    by_cases hz : leftAt size part = 0
    · exact .inl ⟨[], .done hz⟩
    rcases serves_or_atFault s category archive size part sector with ⟨next, hs⟩ | ⟨fault, hf⟩
    · have hlt : leftAt size (part + 1) < leftAt size part := by
        rw [← leftAt_succ, chunkSize]
        omega
      rcases @ih _ hlt (part + 1) next rfl with ⟨chain, hw⟩ | ⟨before, n, fault, hb⟩
      · exact .inl ⟨sector :: chain, .more hz hs hw⟩
      · exact .inr ⟨sector :: before, n, fault, .more hz hs hb⟩
    · exact .inr ⟨[], sector, fault, .here hz hf⟩

theorem read_eq_chainError_iff (he : s.entry category archive = .ok e) :
    s.read category archive = .error (corruptChain category archive n fault) ↔
      ∃ before, s.FaultBehind category archive e.size 0 e.sector before n fault := by
  rw [read_of_entry he]
  constructor
  · intro h
    rcases walk_or_faultBehind s category archive e.size 0 e.sector with ⟨chain, hw⟩ | ⟨before, n', fault', hb⟩
    · cases h.symm.trans (follow_of_walk hw)
    · cases h.symm.trans (follow_of_faultBehind hb)
      exact ⟨before, hb⟩
  · rintro ⟨before, hb⟩
    exact follow_of_faultBehind hb

theorem read_of_entry_error {err : LoadError} (he : s.entry category archive = .error err) :
    s.read category archive = .error err := by
  rw [read, he]
  rfl

/-! ### Archives -/

/-- What reading an archive comes to: behind an entry only the chain can be at fault. -/
theorem read_cases (s : SectorStore) (category : UInt8) (archive : UInt32) :
    (s.categoryCount ≤ category.toNat ∧ ¬ s.Refuses category archive ∧ s.entryAt? category archive = none ∧
      s.read category archive = .error (categoryNotFound category)) ∨
    (category.toNat < s.categoryCount ∧ s.Refuses category archive ∧
      ∃ fault, s.read category archive = .error (corruptIndex category archive fault)) ∨
    (category.toNat < s.categoryCount ∧ ¬ s.Refuses category archive ∧
      (∀ n fault, s.read category archive = .error (corruptChain category archive n fault) ↔
        ∃ e ∈ s.entryAt? category archive, ∃ before,
          s.FaultBehind category archive e.size 0 e.sector before n fault) ∧
      ∀ err, s.read category archive = .error err → ∃ n fault, err = corruptChain category archive n fault) := by
  rcases entry_cases s category archive with ⟨hcategory, hrefuses, hnone, he⟩ |
    ⟨hcategory, hrefuses, fault, he⟩ | ⟨hcategory, hrefuses, e, hentry, -, he⟩
  · exact .inl ⟨hcategory, hrefuses, hnone, read_of_entry_error he⟩
  · exact .inr (.inl ⟨hcategory, hrefuses, fault, read_of_entry_error he⟩)
  · refine .inr (.inr ⟨hcategory, hrefuses, fun n fault => ?_, fun err h => ?_⟩)
    · rw [read_eq_chainError_iff he, hentry]
      simp
    · rw [read_of_entry he] at h
      obtain ⟨n, fault, -, rfl⟩ := follow_eq_error h
      exact ⟨n, fault, rfl⟩

theorem read_eq_categoryNotFound_iff :
    s.read category archive = .error (categoryNotFound category) ↔ s.categoryCount ≤ category.toNat := by
  rcases read_cases s category archive with
    ⟨hcategory, -, -, hread⟩ | ⟨hcategory, -, fault, hread⟩ | ⟨hcategory, -, -, hchain⟩
  · exact iff_of_true hread hcategory
  · refine iff_of_false (fun h => ?_) (not_le.2 hcategory)
    cases hread.symm.trans h
  · refine iff_of_false (fun h => ?_) (not_le.2 hcategory)
    obtain ⟨n, fault, he⟩ := hchain _ h
    cases he

theorem read_eq_corruptIndex_iff :
    (∃ fault, s.read category archive = .error (corruptIndex category archive fault)) ↔
      s.Refuses category archive := by
  rcases read_cases s category archive with ⟨-, hrefuses, -, hread⟩ | ⟨-, hrefuses, hread⟩ | ⟨-, hrefuses, -, hchain⟩
  · refine iff_of_false ?_ hrefuses
    rintro ⟨fault, h⟩
    cases hread.symm.trans h
  · exact iff_of_true hread hrefuses
  · refine iff_of_false ?_ hrefuses
    rintro ⟨fault, h⟩
    obtain ⟨n, fault', he⟩ := hchain _ h
    cases he

theorem read_eq_corruptChain_iff :
    s.read category archive = .error (corruptChain category archive n fault) ↔
      ¬ s.Refuses category archive ∧ ∃ e ∈ s.entryAt? category archive, ∃ before,
        s.FaultBehind category archive e.size 0 e.sector before n fault := by
  rcases read_cases s category archive with
    ⟨-, -, hnone, hread⟩ | ⟨-, hrefuses, fault', hread⟩ | ⟨-, hrefuses, hbreaks, -⟩
  · refine iff_of_false (fun h => ?_) ?_
    · cases hread.symm.trans h
    · rintro ⟨-, e, hentry, -⟩
      cases hnone.symm.trans hentry
  · refine iff_of_false (fun h => ?_) fun h => h.1 hrefuses
    cases hread.symm.trans h
  · rw [hbreaks, and_iff_right hrefuses]

theorem cause_of_read_eq_error {err : LoadError} (h : s.read category archive = .error err) :
    err = categoryNotFound category ∨ (∃ fault, err = corruptIndex category archive fault) ∨
      ∃ n fault, err = corruptChain category archive n fault := by
  rcases read_cases s category archive with ⟨-, -, -, hread⟩ | ⟨-, -, fault, hread⟩ | ⟨-, -, -, hchain⟩
  · cases hread.symm.trans h
    exact .inl rfl
  · cases hread.symm.trans h
    exact .inr (.inl ⟨fault, rfl⟩)
  · exact .inr (.inr (hchain err h))

end AssetCache.SectorStore
