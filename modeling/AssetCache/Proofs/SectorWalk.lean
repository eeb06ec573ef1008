import Mathlib
import AssetCache.SectorStore.Chain

/-!
# The walk along a chain

`Serves` collects the checks that a sector has to pass for a part, and `readSector_eq_ok_iff` says that
reading makes exactly these. `Walk` strings sectors together that pass them one after the other. Main
statement: `read_eq_ok_iff_chain`, an archive is read exactly when sectors hold it as `IsChain` says.
-/

namespace AssetCache

theorem slice?_eq_some {file : Array UInt8} {start count : Nat} {bs : Bytes} :
    slice? file start count = some bs ↔
      start + count ≤ file.size ∧ bs = (file.toList.drop start).take count := by
  have hl : (file.extract start (start + count)).toList = (file.toList.drop start).take count := by
    simp [Array.toList_extract, List.extract_eq_take_drop]
  unfold slice?
  split
  · next h => simp [h, eq_comm]
  · next h => simp [h]

namespace SectorStore
open LoadError
variable {s : SectorStore} {category : UInt8} {archive : UInt32} {size left part sector next : Nat}
  {chunk out : Bytes} {chain : List Nat}

/-- The head is the first eight bytes, whatever comes after them. -/
theorem run_readHeader {bs : Bytes} (h : headerSize ≤ bs.length) :
    ∃ hd, readHeader.run (bs.take headerSize) = .ok (hd, []) ∧
      readHeader.run bs = .ok (hd, bs.drop headerSize) := by
  match bs, h with
  | _ :: _ :: _ :: _ :: _ :: _ :: _ :: _ :: _, _ => exact ⟨_, rfl, rfl⟩

theorem run_readHeader_slice {n count : Nat}
    (h : n * sectorSize + (headerSize + count) ≤ s.data.size) :
    ∃ bs hd, slice? s.data (n * sectorSize) (headerSize + count) = some bs ∧ s.header? n = some hd ∧
      readHeader.run bs = .ok (hd, s.chunk n count) := by
  have hlen : headerSize ≤ ((s.data.toList.drop (n * sectorSize)).take (headerSize + count)).length := by
    simp only [List.length_take, List.length_drop, Array.length_toList]
    omega
  obtain ⟨hd, hhead, hrest⟩ := run_readHeader hlen
  refine ⟨_, hd, slice?_eq_some.2 ⟨h, rfl⟩, ?_, ?_⟩
  · have hs : slice? s.data (n * sectorSize) headerSize =
        some ((s.data.toList.drop (n * sectorSize)).take headerSize) :=
      slice?_eq_some.2 ⟨by omega, rfl⟩
    rw [List.take_take, Nat.min_eq_left (Nat.le_add_right _ _)] at hhead
    simp only [header?, hs, Option.bind_eq_bind, Option.bind_some, hhead]
  · rw [hrest, chunk]
    simp [Array.toList_extract, List.extract_eq_take_drop, List.drop_take]

theorem toNat_sectorCount (s : SectorStore) : s.sectorCount.toNat = min s.wholeSectors 0xFFFFFFFF :=
  UInt32.toNat_ofNat_of_lt' (Nat.lt_of_le_of_lt (Nat.min_le_right _ _) (by decide))

/-- The numbers that a head has room for are far from the greatest count. -/
theorem toNat_sectorCount_of_lt (h : s.wholeSectors < 0x1000000) : s.sectorCount.toNat = s.wholeSectors := by
  rw [toNat_sectorCount]
  omega

theorem wholeSectors_lt_iff : s.wholeSectors < 0x1000000 ↔ s.sectorCount < 0x1000000 := by
  rw [UInt32.lt_iff_toNat_lt, toNat_sectorCount, show (0x1000000 : UInt32).toNat = 0x1000000 from rfl]
  omega

/-- That a sector passes every check for a part of an archive, and which sector it names after it. -/
structure Serves (s : SectorStore) (category : UInt8) (archive : UInt32) (size part n next : Nat) : Prop where
  pos : 1 ≤ n
  le : n ≤ s.sectorCount.toNat
  present : n * sectorSize + headerSize + chunkLength size part ≤ s.data.size
  header : ∃ h ∈ s.header? n, h.archive.toNat = archive.toNat ∧ h.part.toNat = part ∧
    h.store.toNat = storeNumber category ∧ h.next = next

theorem headerFault?_eq_none {h : SectorHeader} : headerFault? h category archive part = none ↔
    h.archive.toNat = archive.toNat ∧ h.part.toNat = part ∧ h.store.toNat = storeNumber category := by
  unfold headerFault?
  split
  · next ha => simp [ha]
  next ha =>
  split
  · next hp => simp [hp]
  next hp =>
  split
  · next hs => simp [hs]
  · next hs => simp [not_not.1 ha, not_not.1 hp, not_not.1 hs]

/-- How much is left when all parts before the given one have been read. -/
def leftAt (size part : Nat) : Nat := size - part * chunkSize

theorem leftAt_zero (size : Nat) : leftAt size 0 = size := by simp [leftAt]

theorem leftAt_succ (size part : Nat) :
    leftAt size part - min (leftAt size part) chunkSize = leftAt size (part + 1) := by
  simp only [leftAt, chunkSize]
  omega

theorem min_leftAt (size part : Nat) : min (leftAt size part) chunkSize = chunkLength size part :=
  Nat.min_comm _ _

/-- What reading a sector comes to once its bytes are there: the check of its head. -/
theorem readSector_of_present (category : UInt8) (archive : UInt32) (size part : Nat) (hpos : 1 ≤ sector)
    (hle : sector ≤ s.sectorCount.toNat) (hp : sector * sectorSize + (headerSize + min left chunkSize) ≤ s.data.size) :
    ∃ hd, s.header? sector = some hd ∧ s.readSector category archive size left part sector =
      match headerFault? hd category archive part with
      | some fault => Except.error (corruptChain category archive sector fault)
      | none => Except.ok (s.chunk sector (min left chunkSize), hd.next) := by
  obtain ⟨bs, hd, hb, hh, hr⟩ := run_readHeader_slice hp
  refine ⟨hd, hh, ?_⟩
  have hin : ¬ (sector = 0 ∨ s.sectorCount.toNat < sector) := by omega
  simp only [readSector, if_neg hin, hb, hr]
  rfl

theorem readSector_eq_error_of_not_present (category : UInt8) (archive : UInt32) (size part : Nat)
    (h : ¬ (1 ≤ sector ∧ sector ≤ s.sectorCount.toNat ∧
      sector * sectorSize + (headerSize + min left chunkSize) ≤ s.data.size)) :
    ∃ fault, s.readSector category archive size left part sector =
      .error (corruptChain category archive sector fault) := by
  unfold readSector
  split
  · exact ⟨_, rfl⟩
  · next hin =>
    have hnone : slice? s.data (sector * sectorSize) (headerSize + min left chunkSize) = none := by
      unfold slice?
      rw [if_neg]
      intro hle
      exact h ⟨by omega, by omega, hle⟩
    rw [hnone]
    exact ⟨_, rfl⟩

theorem readSector_eq_ok_iff :
    s.readSector category archive size (leftAt size part) part sector = .ok (chunk, next) ↔
      s.Serves category archive size part sector next ∧ chunk = s.chunk sector (chunkLength size part) := by
  by_cases hin : 1 ≤ sector ∧ sector ≤ s.sectorCount.toNat ∧
      sector * sectorSize + (headerSize + min (leftAt size part) chunkSize) ≤ s.data.size
  · obtain ⟨hd, hh, hr⟩ := readSector_of_present category archive size part hin.1 hin.2.1 hin.2.2
    rw [hr]
    rw [min_leftAt] at hin ⊢
    constructor
    · intro h
      cases hf : headerFault? hd category archive part with
      | some fault => rw [hf] at h; nomatch h
      | none =>
        rw [hf] at h
        cases h
        obtain ⟨ha, hp, hst⟩ := headerFault?_eq_none.1 hf
        exact ⟨⟨hin.1, hin.2.1, by omega, hd, hh, ha, hp, hst, rfl⟩, rfl⟩
    · rintro ⟨hs, rfl⟩
      obtain ⟨h, hm, ha, hp, hst, rfl⟩ := hs.header
      obtain rfl : hd = h := Option.some.inj (hh.symm.trans hm)
      rw [headerFault?_eq_none.2 ⟨ha, hp, hst⟩]
  · obtain ⟨fault, hr⟩ := readSector_eq_error_of_not_present category archive size part hin
    rw [hr]
    constructor
    · intro h; nomatch h
    · rintro ⟨hs, -⟩
      refine absurd ⟨hs.pos, hs.le, ?_⟩ hin
      have := hs.present
      rw [min_leftAt]
      omega

theorem readSector_eq_error {e : LoadError}
    (h : s.readSector category archive size left part sector = .error e) :
    ∃ fault, e = corruptChain category archive sector fault := by
  by_cases hin : 1 ≤ sector ∧ sector ≤ s.sectorCount.toNat ∧
      sector * sectorSize + (headerSize + min left chunkSize) ≤ s.data.size
  · obtain ⟨hd, -, hr⟩ := readSector_of_present category archive size part hin.1 hin.2.1 hin.2.2
    rw [hr] at h
    split at h
    · cases h; exact ⟨_, rfl⟩
    · nomatch h
  · obtain ⟨fault, hr⟩ := readSector_eq_error_of_not_present category archive size part hin
    rw [hr] at h
    cases h
    exact ⟨fault, rfl⟩

/-! ### Walks -/

/-- That sectors pass every check one after the other, from the given part and sector on, until all
`size` bytes are there. -/
inductive Walk (s : SectorStore) (category : UInt8) (archive : UInt32) (size : Nat) :
    Nat → Nat → List Nat → Prop
  | done {part sector : Nat} (h : leftAt size part = 0) : Walk s category archive size part sector []
  | more {part sector next : Nat} {chain : List Nat} (h : leftAt size part ≠ 0)
    (hs : s.Serves category archive size part sector next)
    (rest : Walk s category archive size (part + 1) next chain) :
    Walk s category archive size part sector (sector :: chain)

/-- What the sectors of a walk hold from a part on. -/
def contentFrom (s : SectorStore) (size part : Nat) (chain : List Nat) : Bytes :=
  (chain.zipIdx part).flatMap fun (number, part) => s.chunk number (chunkLength size part)

theorem contentFrom_cons (s : SectorStore) (size part n : Nat) (chain : List Nat) :
    s.contentFrom size part (n :: chain) =
      s.chunk n (chunkLength size part) ++ s.contentFrom size (part + 1) chain := rfl

theorem follow_zero (s : SectorStore) (category : UInt8) (archive : UInt32) (size part sector : Nat) :
    s.follow category archive size 0 part sector = .ok [] := by
  rw [follow, dif_pos rfl]

theorem follow_of_walk (h : s.Walk category archive size part sector chain) :
    s.follow category archive size (leftAt size part) part sector = .ok (s.contentFrom size part chain) := by
  induction h with
  | done h => rw [h, follow_zero]; rfl
  | more h hs rest ih =>
    rw [follow, dif_neg h, readSector_eq_ok_iff.2 ⟨hs, rfl⟩, contentFrom_cons, leftAt_succ]
    simp only [bind, Except.bind, ih]
    rfl

theorem visited_of_walk (h : s.Walk category archive size part sector chain) :
    s.visited category archive size (leftAt size part) part sector = chain := by
  induction h with
  | done h => rw [visited, dif_pos h]
  | more h hs rest ih =>
    rw [visited, dif_neg h, readSector_eq_ok_iff.2 ⟨hs, rfl⟩, leftAt_succ]
    simp only [ih]

theorem walk_of_follow (h : s.follow category archive size (leftAt size part) part sector = .ok out) :
    ∃ chain, s.Walk category archive size part sector chain := by
  induction hl : leftAt size part using Nat.strongRecOn generalizing part sector out with
  | ind left ih =>
    subst hl
    rw [follow] at h
    split at h
    · next hz => exact ⟨[], .done hz⟩
    next hz =>
    cases hr : s.readSector category archive size (leftAt size part) part sector with
    | error e => rw [hr] at h; nomatch h
    | ok x =>
      rw [hr, leftAt_succ] at h
      cases hf : s.follow category archive size (leftAt size (part + 1)) (part + 1) x.2 with
      | error e => simp only [bind, Except.bind, hf] at h; nomatch h
      | ok rest =>
        have hlt : leftAt size (part + 1) < leftAt size part := by
          rw [← leftAt_succ, chunkSize]
          omega
        obtain ⟨chain, hw⟩ := ih _ hlt hf rfl
        exact ⟨sector :: chain, .more hz (readSector_eq_ok_iff.1 hr).1 hw⟩

theorem follow_eq_ok_iff :
    s.follow category archive size (leftAt size part) part sector = .ok out ↔
      ∃ chain, s.Walk category archive size part sector chain ∧ out = s.contentFrom size part chain := by
  constructor
  · intro h
    obtain ⟨chain, hw⟩ := walk_of_follow h
    rw [follow_of_walk hw] at h
    cases h
    exact ⟨chain, hw, rfl⟩
  · rintro ⟨chain, hw, rfl⟩
    exact follow_of_walk hw

/-- A walk, whatever comes of it, looks at no more sectors than the size asks for. -/
theorem length_visited_le (s : SectorStore) (category : UInt8) (archive : UInt32)
    (size left part sector : Nat) :
    (s.visited category archive size left part sector).length ≤ chainLength left := by
  induction left using Nat.strongRecOn generalizing part sector with
  | ind left ih =>
    rw [visited]
    split
    · exact Nat.zero_le _
    next hz =>
    have hlen : chainLength left = chainLength (left - min left chunkSize) + 1 := by
      simp only [chainLength, chunkSize] at *
      omega
    rw [List.length_cons, hlen]
    split
    · exact Nat.succ_le_succ (Nat.zero_le _)
    · exact Nat.succ_le_succ (ih _ (by simp only [chunkSize]; omega) _ _)

/-- A walk that fails blames the last sector it looked at. -/
theorem follow_eq_error {e : LoadError}
    (h : s.follow category archive size left part sector = .error e) :
    ∃ n fault, (s.visited category archive size left part sector).getLast? = some n ∧
      e = corruptChain category archive n fault := by
  induction left using Nat.strongRecOn generalizing part sector with
  | ind left ih =>
    rw [follow] at h
    split at h
    · nomatch h
    next hz =>
    rw [visited, dif_neg hz]
    cases hr : s.readSector category archive size left part sector with
    | error e' =>
      obtain ⟨fault, rfl⟩ := readSector_eq_error hr
      rw [hr] at h
      cases h
      exact ⟨sector, fault, rfl, rfl⟩
    | ok x =>
      rw [hr] at h
      cases hf : s.follow category archive size (left - min left chunkSize) (part + 1) x.2 with
      | ok rest => simp only [bind, Except.bind, hf] at h; nomatch h
      | error e' =>
        simp only [bind, Except.bind, hf] at h
        cases h
        obtain ⟨n, fault, hn, rfl⟩ := ih _ (by simp only [chunkSize]; omega) hf
        refine ⟨n, fault, ?_, rfl⟩
        rw [List.getLast?_cons, hn]
        rfl

theorem length_of_walk (h : s.Walk category archive size part sector chain) :
    chain.length = chainLength (leftAt size part) := by
  induction h with
  | done h => rw [h]; rfl
  | more h _ _ ih =>
    rw [List.length_cons, ih, ← leftAt_succ]
    simp only [chainLength, chunkSize] at *
    omega

theorem serves_of_walk (h : s.Walk category archive size part sector chain) {i n : Nat}
    (hi : chain[i]? = some n) : ∃ next, s.Serves category archive size (part + i) n next ∧
      ∀ n', chain[i + 1]? = some n' → next = n' := by
  induction h generalizing i with
  | done => nomatch hi
  | more h hs rest ih =>
    cases i with
    | zero =>
      cases hi
      refine ⟨_, hs, fun n' hn' => ?_⟩
      cases rest with
      | done => nomatch hn'
      | more => exact Option.some.inj hn'
    | succ i =>
      rw [List.getElem?_cons_succ] at hi
      obtain ⟨next, hn, hl⟩ := ih hi
      rw [Nat.add_right_comm, Nat.add_assoc] at hn
      exact ⟨next, hn, hl⟩

/-- A sector says which part it is, so no sector comes twice on a walk. -/
theorem nodup_of_walk (h : s.Walk category archive size part sector chain) : chain.Nodup := by
  rw [List.nodup_iff_getElem?_ne_getElem?]
  intro i j hij hj he
  obtain ⟨_, hsi, -⟩ := serves_of_walk h (he.trans (List.getElem?_eq_getElem hj))
  obtain ⟨_, hsj, -⟩ := serves_of_walk h (List.getElem?_eq_getElem hj)
  obtain ⟨hd, hm, -, hpi, -⟩ := hsi.header
  obtain ⟨hd', hm', -, hpj, -⟩ := hsj.header
  obtain rfl : hd = hd' := Option.some.inj (hm.symm.trans hm')
  omega

theorem length_chunk_of_serves (h : s.Serves category archive size part sector next) :
    (s.chunk sector (chunkLength size part)).length = chunkLength size part := by
  have := h.present
  simp only [chunk, Array.length_toList, Array.size_extract]
  omega

theorem length_contentFrom (h : s.Walk category archive size part sector chain) :
    (s.contentFrom size part chain).length = leftAt size part := by
  induction h with
  | done h => rw [h]; rfl
  | more h hs rest ih =>
    rw [contentFrom_cons, List.length_append, length_chunk_of_serves hs, ih, ← leftAt_succ, min_leftAt,
      ← min_leftAt]
    omega

/-! ### Chains -/

theorem isChain_of_walk {e : IndexEntry} (h : s.Walk category archive e.size 0 e.sector chain) :
    s.IsChain category archive e chain where
  length_eq := by rw [length_of_walk h, leftAt_zero]
  head_eq := by
    intro n hn
    cases h with
    | done => nomatch hn
    | more => exact (Option.some.inj hn).symm
  mem_store := by
    intro n hn
    obtain ⟨i, hi⟩ := List.mem_iff_getElem?.1 hn
    obtain ⟨_, hs, -⟩ := serves_of_walk h hi
    exact ⟨hs.pos, hs.le⟩
  present := by
    intro part n hn
    obtain ⟨_, hs, -⟩ := serves_of_walk h hn
    simpa using hs.present
  header := by
    intro part n hn
    obtain ⟨next, hs, hl⟩ := serves_of_walk h hn
    obtain ⟨hd, hm, ha, hp, hst, hx⟩ := hs.header
    rw [Nat.zero_add] at hp
    exact ⟨hd, hm, ha, hp, hst, fun n' hn' => hx.trans (hl n' hn')⟩

theorem walk_of_serves (hlen : chain.length = chainLength (leftAt size part))
    (hhead : ∀ n ∈ chain.head?, n = sector)
    (hserves : ∀ i n, chain[i]? = some n → ∃ next, s.Serves category archive size (part + i) n next ∧
      ∀ n', chain[i + 1]? = some n' → next = n') :
    s.Walk category archive size part sector chain := by
  induction chain generalizing part sector with
  | nil =>
    refine .done ?_
    simp only [List.length_nil, chainLength, chunkSize] at hlen
    omega
  | cons n ns ih =>
    have hz : leftAt size part ≠ 0 := by
      intro hz
      rw [hz] at hlen
      nomatch hlen
    obtain rfl : n = sector := hhead n rfl
    obtain ⟨next, hs, hl⟩ := hserves 0 n rfl
    refine .more hz hs (ih ?_ ?_ fun i n' hn' => ?_)
    · rw [List.length_cons] at hlen
      rw [← leftAt_succ]
      simp only [chainLength, chunkSize] at *
      omega
    · intro n' hn'
      rw [List.head?_eq_getElem?] at hn'
      exact (hl n' hn').symm
    · obtain ⟨next', hs', hl'⟩ := hserves (i + 1) n' hn'
      rw [Nat.add_right_comm, Nat.add_assoc]
      exact ⟨next', hs', hl'⟩

theorem walk_iff_isChain {e : IndexEntry} :
    s.Walk category archive e.size 0 e.sector chain ↔ s.IsChain category archive e chain := by
  refine ⟨isChain_of_walk, fun h => walk_of_serves ?_ h.head_eq fun i n hi => ?_⟩
  · rw [leftAt_zero, h.length_eq]
  · obtain ⟨hd, hm, ha, hp, hst, hn⟩ := h.header i n hi
    obtain ⟨hpos, hle⟩ := h.mem_store n (List.mem_of_getElem? hi)
    refine ⟨hd.next, ⟨hpos, hle, ?_, hd, hm, ha, ?_, hst, rfl⟩, hn⟩
    · rw [Nat.zero_add]
      exact h.present i n hi
    · rw [Nat.zero_add, hp]

theorem read_of_entry {e : IndexEntry} (he : s.entry category archive = .ok e) :
    s.read category archive = s.follow category archive e.size (leftAt e.size 0) 0 e.sector := by
  rw [read, he, leftAt_zero]
  rfl

theorem read_eq_ok_iff : s.read category archive = .ok out ↔
    ∃ e, s.entry category archive = .ok e ∧
      ∃ chain, s.Walk category archive e.size 0 e.sector chain ∧ out = s.contentFrom e.size 0 chain := by
  cases he : s.entry category archive with
  | error err =>
    simp only [read, he, bind, Except.bind, reduceCtorEq, false_and, exists_false]
  | ok e =>
    rw [read_of_entry he, follow_eq_ok_iff]
    simp

/-- An archive is read exactly when sectors hold it: its bytes are then those of the sectors, all of which
are different. Whatever a store holds, no more sectors are looked at than the size asks for, and only the
last one can be at fault. -/
theorem read_eq_ok_iff_chain (s : SectorStore) (category : UInt8) (archive : UInt32) :
    (∀ out, s.read category archive = .ok out ↔
      ∃ e, s.entry category archive = .ok e ∧
        ∃ chain, s.IsChain category archive e chain ∧ out = s.chainContent e.size chain) ∧
    ∀ e, s.entry category archive = .ok e →
      (∀ chain, s.IsChain category archive e chain →
        (s.chainContent e.size chain).length = e.size ∧ chain.Nodup ∧
          s.visited category archive e.size e.size 0 e.sector = chain) ∧
      (s.visited category archive e.size e.size 0 e.sector).length ≤ chainLength e.size ∧
      ∀ err, s.read category archive = .error err → ∃ n fault,
        (s.visited category archive e.size e.size 0 e.sector).getLast? = some n ∧
          err = .corruptChain category archive n fault := by
  refine ⟨fun out => ?_, fun e he => ⟨fun chain hc => ?_, length_visited_le .., fun err herr => ?_⟩⟩
  · rw [read_eq_ok_iff]
    simp only [walk_iff_isChain]
    rfl
  · have hw := walk_iff_isChain.2 hc
    refine ⟨(length_contentFrom hw).trans (leftAt_zero _), nodup_of_walk hw, ?_⟩
    rw [← visited_of_walk hw, leftAt_zero]
  · rw [read_of_entry he, leftAt_zero] at herr
    exact follow_eq_error herr

/-- A store of one archive of two bytes, whose only sector is cut off behind them. -/
def cutOff : SectorStore where
  data := Array.replicate sectorSize 0 ++ #[0, 1, 0, 0, 0, 0, 0, 1, 0x68, 0x69]
  indices := [#[0, 0, 0, 0, 0, 0, 0, 0, 2, 0, 0, 1]]

set_option maxRecDepth 4096 in
theorem read_eq_ok_iff_chain_cutOff : cutOff.read 0 1 = .ok [0x68, 0x69] ∧
    ∃ e, cutOff.entry 0 1 = .ok e ∧
      ∃ chain, cutOff.IsChain 0 1 e chain ∧ [0x68, 0x69] = cutOff.chainContent e.size chain :=
  have h : cutOff.read 0 1 = .ok [0x68, 0x69] := by cbv
  ⟨h, ((read_eq_ok_iff_chain cutOff 0 1).1 _).1 h⟩

end SectorStore

end AssetCache
