import Mathlib
import AssetCache.Proofs.ObjectFiles
import AssetCache.Proofs.ReaderWords

/-!
# What reading an object file can lead to

A step takes a zero, or a distance and what belongs to it (`moreOfGroup_takes`, `moreGroups_takes`), so whatever is
read as a group is one and whatever is read as a file is one. Main statements: `decodeAll_eq_ok_iff`, the files that
are read are those that start with written groups; `hasOffset_of_decodeAll`, whatever is read from a file is the
placement of some offset; and `pairwise_ofGroups`, placements come in the order of their ids and offsets.
-/

namespace AssetCache.Placement
open ByteReader
variable {x y : UInt8} {id : UInt16} {s r file : Bytes} {ps : List Placement}

theorem isSmart_byte {a : UInt8} (ha : a < 0x80) : IsSmart a.toUInt16 [a] := by
  have hlt : a.toUInt16 < 0x80 := by
    have hnat : a.toNat < 128 := ha
    show a.toUInt16.toNat < 128
    simpa using hnat
  have h := IsSmart.short hlt
  rwa [UInt8.toUInt8_toUInt16] at h

theorem isSmart_pair {a : UInt8} (ha : ¬ a < 0x80) (b : UInt8) : IsSmart (Bytes.toU16 a b - 0x8000) [a, b] := by
  have hle : 128 ≤ a.toNat := Nat.le_of_not_lt ha
  have := a.toNat_lt
  have := b.toNat_lt
  have hword : (Bytes.toU16 a b).toNat = 256 * a.toNat + b.toNat :=
    UInt16.toNat_ofNat_of_lt' (by simp only [UInt16.size]; omega)
  have htop : (0x8000 : UInt16) ≤ Bytes.toU16 a b := by
    show 0x8000 ≤ (Bytes.toU16 a b).toNat
    omega
  have hsub : (Bytes.toU16 a b - 0x8000).toNat = (Bytes.toU16 a b).toNat - 0x8000 := UInt16.toNat_sub_of_le _ _ htop
  have hlt : Bytes.toU16 a b - 0x8000 < 0x8000 := by
    show (Bytes.toU16 a b - 0x8000).toNat < 0x8000
    omega
  have h := IsSmart.long hlt
  rwa [UInt16.sub_add_cancel, Bytes.ofU16_toU16] at h

theorem recognizes_smart : Recognizes smart IsSmart where
  inhabited := ⟨0, [0], .short (by decide)⟩
  run := run_smart
  word {s n r} h := by
    rcases s with _ | ⟨a, t⟩
    · simp [smart] at h
    · simp only [smart] at h
      split at h
      · next ha =>
        cases h
        exact ⟨[a], isSmart_byte ha, rfl⟩
      · next ha =>
        rcases t with _ | ⟨b, t⟩
        · simp at h
        · cases h
          exact ⟨[a, b], isSmart_pair ha b, rfl⟩
  cutOff {s e} h := by
    rcases s with _ | ⟨a, t⟩
    · exact ⟨⟨1, 0, rfl⟩, 0, [0], .short (by decide), 0, [], rfl⟩
    · by_cases ha : a < 0x80
      · simp [smart, ha] at h
      · rcases t with _ | ⟨b, t⟩
        · exact ⟨⟨2, 1, by simp [smart, ha]⟩, _, _, isSmart_pair ha 0, 0, [], rfl⟩
        · simp [smart, ha] at h

/-- What a step of a group takes: a zero, or a distance with the attributes of a spot. -/
theorem moreOfGroup_takes {g : Group} {out : Group ⊕ List Placement}
    (h : (moreOfGroup x y id g).run s = .ok (out, r)) :
    (∃ zero, IsSmart 0 zero ∧ s = zero ++ r ∧ out = .inr g.acc) ∨
      ∃ step w attributes, IsSmart step w ∧ step ≠ 0 ∧ g.offset + (step.toNat - 1) ≤ offsetLimit ∧
        s = w ++ attributes :: r ∧
        out = .inl ⟨g.offset + (step.toNat - 1), ofOffset x y id (g.offset + (step.toNat - 1)) attributes :: g.acc⟩ := by
  obtain ⟨step, t, hsmart, hrest⟩ := Reader.run_bind_eq_ok.1 h
  obtain ⟨w, hw, rfl⟩ := recognizes_smart.word hsmart
  split at hrest
  · next h0 =>
    subst h0
    cases hrest
    exact .inl ⟨w, hw, rfl, rfl⟩
  · next h0 =>
    dsimp only at hrest
    split at hrest
    · simp at hrest
    · next hle =>
      obtain ⟨attributes, t', hbyte, hend⟩ := Reader.run_bind_eq_ok.1 hrest
      obtain ⟨b, hb, rfl⟩ := recognizes_byte.word hbyte
      subst hb
      cases hend
      exact .inr ⟨step, w, attributes, hw, h0, Nat.not_lt.1 hle, rfl, rfl⟩

theorem exists_isGroup_of_run {g : Group}
    (h : (Reader.loop (moreOfGroup x y id) (progress_moreOfGroup x y id) g).run s = .ok (ps, r)) :
    ∃ spots w, IsGroup g.offset spots w ∧ s = w ++ r := by
  simp only [Reader.loop] at h
  fun_induction Reader.iterate (moreOfGroup x y id) (progress_moreOfGroup x y id) g s with
  | case1 => cases h
  | case2 g s g' t hstep ih =>
    rcases moreOfGroup_takes hstep with ⟨_, -, -, hout⟩ | ⟨step, w, attributes, hw, h0, hle, rfl, hout⟩
    · cases hout
    · cases hout
      obtain ⟨spots, rest, hrest, rfl⟩ := ih h
      have hgroup : IsGroup g.offset ((g.offset + (step.toNat - 1), attributes) :: spots) (w ++ attributes :: rest) :=
        .spot rfl h0 hle hw hrest
      exact ⟨_, _, hgroup, by simp⟩
  | case3 g s acc t hstep =>
    cases h
    rcases moreOfGroup_takes hstep with ⟨zero, hzero, rfl, -⟩ | ⟨_, _, _, -, -, -, -, hout⟩
    · exact ⟨[], zero, .done hzero, rfl⟩
    · cases hout

/-- What a step of a file takes: a zero, or a distance with the group of an object. -/
theorem moreGroups_takes {g : Groups} {out : Groups ⊕ List Placement}
    (h : (moreGroups x y g).run s = .ok (out, r)) :
    (∃ zero, IsSmart 0 zero ∧ s = zero ++ r ∧ out = .inr g.acc.reverse) ∨
      ∃ step w spots group, IsSmart step w ∧ step ≠ 0 ∧ g.bound + step.toNat ≤ 65536 ∧ IsGroup 0 spots group ∧
        s = w ++ group ++ r ∧ ∃ acc, out = .inl ⟨g.bound + step.toNat, acc⟩ := by
  obtain ⟨step, t, hsmart, hrest⟩ := Reader.run_bind_eq_ok.1 h
  obtain ⟨w, hw, rfl⟩ := recognizes_smart.word hsmart
  split at hrest
  · next h0 =>
    subst h0
    cases hrest
    exact .inl ⟨w, hw, rfl, rfl⟩
  · next h0 =>
    dsimp only at hrest
    split at hrest
    · simp at hrest
    · next hle =>
      obtain ⟨acc, t', hgroup, hend⟩ := Reader.run_bind_eq_ok.1 hrest
      obtain ⟨spots, group, hspots, rfl⟩ := exists_isGroup_of_run hgroup
      cases hend
      exact .inr ⟨step, w, spots, group, hw, h0, Nat.not_lt.1 hle, hspots, by simp, acc, rfl⟩

theorem exists_isFile_of_run {g : Groups}
    (h : (Reader.loop (moreGroups x y) (progress_moreGroups x y) g).run s = .ok (ps, r)) :
    ∃ groups w, IsFile g.bound groups w ∧ s = w ++ r := by
  simp only [Reader.loop] at h
  fun_induction Reader.iterate (moreGroups x y) (progress_moreGroups x y) g s with
  | case1 => cases h
  | case2 g s g' t hstep ih =>
    rcases moreGroups_takes hstep with
      ⟨_, -, -, hout⟩ | ⟨step, w, spots, group, hw, h0, hle, hgroup, rfl, acc, hout⟩
    · cases hout
    · cases hout
      obtain ⟨groups, rest, hrest, rfl⟩ := ih h
      have hpos : step.toNat ≠ 0 := fun hzero => h0 (UInt16.toNat_inj.1 hzero)
      have hid : (UInt16.ofNat (g.bound + step.toNat - 1)).toNat + 1 = g.bound + step.toNat := by
        rw [UInt16.toNat_ofNat_of_lt' (by simp only [UInt16.size]; omega)]
        omega
      have hrest' : IsFile ((UInt16.ofNat (g.bound + step.toNat - 1)).toNat + 1) groups rest := by
        rw [hid]
        exact hrest
      exact ⟨_, _, .group hid h0 hw hgroup hrest', by simp⟩
  | case3 g s acc t hstep =>
    cases h
    rcases moreGroups_takes hstep with ⟨zero, hzero, rfl, -⟩ | ⟨_, _, _, _, -, -, -, -, -, _, hout⟩
    · exact ⟨[], zero, .done hzero, rfl⟩
    · cases hout

theorem decodeAll_of_isFile {groups : List (UInt16 × List Spot)} {w : Bytes} (h : IsFile 0 groups w) (x y : UInt8)
    (r : Bytes) : decodeAll (w ++ r) x y = .ok (ofGroups x y groups) := by
  rw [decodeAll, readAll, run_readAll h [] r, ofGroups_eq]
  rfl

/-- The files that are read are written groups, whatever comes behind them. -/
theorem decodeAll_eq_ok_iff : decodeAll file x y = .ok ps ↔
    ∃ groups w r, IsFile 0 groups w ∧ file = w ++ r ∧ ps = ofGroups x y groups := by
  constructor
  · intro h
    cases hrun : (readAll x y).run file with
    | error e =>
      rw [decodeAll, hrun] at h
      cases h
    | ok out =>
      obtain ⟨groups, w, hw, rfl⟩ := exists_isFile_of_run hrun
      rw [decodeAll_of_isFile hw] at h
      exact ⟨groups, w, out.2, hw, rfl, (Except.ok.inj h).symm⟩
  · rintro ⟨groups, w, r, hw, rfl, rfl⟩
    exact decodeAll_of_isFile hw x y r

/-! ### Order -/

theorem spot_ofOffset (x y : UInt8) (id : UInt16) (offset : ℕ) (attributes : UInt8) :
    spot x y (ofOffset x y id offset attributes) = (offset, attributes) := by
  have h := map_spot_ofGroups x y [(id, [(offset, attributes)])]
  rw [ofGroups_eq] at h
  simpa using h

/-- That a placement may come before another: ids do not go down, and offsets do not within an object. -/
def Before (x y : UInt8) (p q : Placement) : Prop :=
  p.objectId ≤ q.objectId ∧ (p.objectId = q.objectId → (spot x y p).1 ≤ (spot x y q).1)

instance (x y : UInt8) (p q : Placement) : Decidable (Before x y p q) :=
  inferInstanceAs (Decidable (p.objectId ≤ q.objectId ∧ (p.objectId = q.objectId → (spot x y p).1 ≤ (spot x y q).1)))

theorem pairwise_of_nextOffset {offsets : List ℕ} {n : ℕ} (h : (n :: offsets).IsChain NextOffset) :
    offsets.Pairwise (· ≤ ·) := by
  have hchain : (n :: offsets).IsChain (· ≤ ·) := h.imp fun _ _ hnext => hnext.1
  exact (List.pairwise_cons.1 hchain.pairwise).2

theorem pairwise_of_nextId {ids : List ℤ} {n : ℤ} (h : (n :: ids).IsChain NextId) : ids.Pairwise (· < ·) := by
  have hchain : (n :: ids).IsChain (· < ·) := h.imp fun _ _ hnext => hnext.1
  exact (List.pairwise_cons.1 hchain.pairwise).2

theorem pairwise_ofGroups {groups : List (UInt16 × List Spot)} (h : Writable groups) (x y : UInt8) :
    (ofGroups x y groups).Pairwise (Before x y) := by
  rw [ofGroups_eq, List.pairwise_flatMap]
  constructor
  · intro g hg
    have hoffsets := List.pairwise_map.1 (pairwise_of_nextOffset (h.offsets g hg))
    rw [List.pairwise_map]
    refine hoffsets.imp fun {s t} hle => ⟨UInt16.le_refl _, fun _ => ?_⟩
    rw [spot_ofOffset, spot_ofOffset]
    exact hle
  · have hids := List.pairwise_map.1 (pairwise_of_nextId h.ids)
    refine hids.imp fun {g g'} hlt p hp q hq => ?_
    obtain ⟨s, -, rfl⟩ := List.mem_map.1 hp
    obtain ⟨t, -, rfl⟩ := List.mem_map.1 hq
    have hlt : g.1 < g'.1 := by
      show g.1.toNat < g'.1.toNat
      omega
    exact ⟨UInt16.le_of_lt hlt, fun heq => absurd heq (UInt16.ne_of_lt hlt)⟩

/-! ### Offsets -/

/-- That a placement is one of an offset, in the region with the given coordinates. -/
def HasOffset (x y : UInt8) (p : Placement) : Prop :=
  ∃ offset attributes, offset ≤ offsetLimit ∧ p = ofOffset x y p.objectId offset attributes

theorem hasOffset_of_isFile {groups : List (UInt16 × List Spot)} {w : Bytes} (h : IsFile 0 groups w) :
    ∀ p ∈ ofGroups x y groups, HasOffset x y p := by
  intro p hp
  rw [ofGroups_eq] at hp
  obtain ⟨g, hg, hp⟩ := List.mem_flatMap.1 hp
  obtain ⟨⟨offset, attributes⟩, hs, rfl⟩ := List.mem_map.1 hp
  have hlimit := (writable_iff.2 ⟨w, h⟩).limit g hg _ hs
  exact ⟨offset, attributes, hlimit, rfl⟩

/-- Every placement of an object file is one of an offset. -/
theorem hasOffset_of_decodeAll (h : decodeAll file x y = .ok ps) : ∀ p ∈ ps, HasOffset x y p := by
  obtain ⟨groups, w, r, hw, rfl, rfl⟩ := decodeAll_eq_ok_iff.1 h
  exact hasOffset_of_isFile hw

/-- An offset lies in the square of its region. -/
theorem HasOffset.inside {p : Placement} (h : HasOffset x y p) :
    p.position.regionX = x.toNat ∧ p.position.regionY = y.toNat := by
  obtain ⟨offset, attributes, -, hp⟩ := h
  rw [hp]
  simp only [ofOffset, place, Vec3.regionX, Vec3.regionY, regionSize]
  omega

end AssetCache.Placement
