import Mathlib
import AssetCache.Placement.Stream

/-!
# Reading object files

Written groups are read spot by spot and group by group (`run_readGroup`, `run_readAll`), in either form of
every small number. Main statement: `decodeAll_groups`, which groups can be written, that they are read back as
the placements they stand for, whatever comes after them, and that nothing of a spot is lost in a placement.
-/

namespace AssetCache.Placement
open ByteReader
variable {x y : UInt8} {bound offset : Nat} {id : UInt16} {spots : List Spot}
  {groups : List (UInt16 × List Spot)} {w : Bytes}

/-! ### Which groups can be written -/

/-- That an object may be written right after another, or after none as if that were object -1. -/
def NextId (previous id : Int) : Prop := previous < id ∧ id - previous ≤ 0x7FFF

/-- That a spot may be written right after another of the same object, or first as if after offset 0. -/
def NextOffset (previous offset : Nat) : Prop := previous ≤ offset ∧ offset - previous ≤ 0x7FFE

/-- That every distance between ids and between offsets can be written. -/
structure Writable (groups : List (UInt16 × List Spot)) : Prop where
  ids : (-1 :: groups.map fun g => (g.1.toNat : Int)).IsChain NextId
  offsets : ∀ g ∈ groups, (0 :: g.2.map (·.1)).IsChain NextOffset
  limit : ∀ g ∈ groups, ∀ s ∈ g.2, s.1 ≤ offsetLimit

theorem IsSmart.lt {n : UInt16} {s : Bytes} (h : IsSmart n s) : n.toNat < 0x8000 := by
  rcases h with h | h
  · exact Nat.lt_trans (show n.toNat < 0x80 from h) (by decide)
  · exact h

theorem IsSmart.ofSmart {n : UInt16} (h : n < 0x8000) : IsSmart n (Bytes.ofSmart n) := by
  unfold Bytes.ofSmart
  split
  · next hshort => exact .short hshort
  · exact .long h

theorem exists_isGroup (hchain : (offset :: spots.map (·.1)).IsChain NextOffset)
    (hlimit : ∀ s ∈ spots, s.1 ≤ offsetLimit) : ∃ w, IsGroup offset spots w := by
  induction spots generalizing offset with
  | nil => exact ⟨_, .done (.ofSmart (by decide))⟩
  | cons s spots ih =>
    obtain ⟨next, attributes⟩ := s
    simp only [List.map_cons, List.isChain_cons_cons] at hchain
    obtain ⟨⟨hle, hgap⟩, hchain⟩ := hchain
    obtain ⟨rest, hrest⟩ := ih hchain fun s hs => hlimit s (List.mem_cons_of_mem _ hs)
    obtain ⟨step, hstep⟩ : ∃ step : UInt16, step.toNat = next - offset + 1 :=
      ⟨_, UInt16.toNat_ofNat_of_lt' (by simp only [UInt16.size]; omega)⟩
    have hne : step ≠ 0 := by
      rintro rfl
      exact Nat.succ_ne_zero _ hstep.symm
    have hsmart : IsSmart step (Bytes.ofSmart step) := .ofSmart (show step.toNat < 0x8000 by omega)
    exact ⟨_, .spot (by omega) hne (hlimit _ List.mem_cons_self) hsmart hrest⟩

theorem chain_of_isGroup (h : IsGroup offset spots w) :
    (offset :: spots.map (·.1)).IsChain NextOffset ∧ ∀ s ∈ spots, s.1 ≤ offsetLimit := by
  induction h with
  | done => exact ⟨.singleton _, nofun⟩
  | @spot offset next attributes spots step s rest hnext hne hle hsmart _ ih =>
    have hstep : step.toNat ≠ 0 := fun h0 => hne (UInt16.toNat_inj.1 h0)
    have hlt := hsmart.lt
    have hnext' : NextOffset offset next := ⟨by omega, by omega⟩
    exact ⟨.cons_cons hnext' ih.1, List.forall_mem_cons.2 ⟨hle, ih.2⟩⟩

theorem exists_isFile (hchain : (((bound : Int) - 1) :: groups.map fun g => (g.1.toNat : Int)).IsChain NextId)
    (hgroups : ∀ g ∈ groups, ∃ w, IsGroup 0 g.2 w) : ∃ w, IsFile bound groups w := by
  induction groups generalizing bound with
  | nil => exact ⟨_, .done (.ofSmart (by decide))⟩
  | cons g groups ih =>
    obtain ⟨id, spots⟩ := g
    simp only [List.map_cons, List.isChain_cons_cons] at hchain
    obtain ⟨⟨hlt, hgap⟩, hchain⟩ := hchain
    obtain ⟨group, hgroup⟩ := hgroups (id, spots) List.mem_cons_self
    have hbound : ((id.toNat + 1 : Nat) : Int) - 1 = id.toNat := by omega
    obtain ⟨rest, hrest⟩ := ih (hbound ▸ hchain) fun g hg => hgroups g (List.mem_cons_of_mem _ hg)
    obtain ⟨step, hstep⟩ : ∃ step : UInt16, step.toNat = id.toNat + 1 - bound :=
      ⟨_, UInt16.toNat_ofNat_of_lt' (by simp only [UInt16.size]; omega)⟩
    have hne : step ≠ 0 := by
      rintro rfl
      have : (0 : UInt16).toNat = 0 := rfl
      omega
    have hsmart : IsSmart step (Bytes.ofSmart step) := .ofSmart (show step.toNat < 0x8000 by omega)
    exact ⟨_, .group (by omega) hne hsmart hgroup hrest⟩

theorem chain_of_isFile (h : IsFile bound groups w) :
    (((bound : Int) - 1) :: groups.map fun g => (g.1.toNat : Int)).IsChain NextId ∧
      ∀ g ∈ groups, ∃ w, IsGroup 0 g.2 w := by
  induction h with
  | done => exact ⟨.singleton _, nofun⟩
  | @group bound id spots groups step s group rest hid hne hsmart hgroup _ ih =>
    have hstep : step.toNat ≠ 0 := fun h0 => hne (UInt16.toNat_inj.1 h0)
    have hlt := hsmart.lt
    have hbound : ((id.toNat + 1 : Nat) : Int) - 1 = id.toNat := by omega
    have hnext : NextId ((bound : Int) - 1) id.toNat := ⟨by omega, by omega⟩
    obtain ⟨hchain, hgroups⟩ := ih
    rw [hbound] at hchain
    exact ⟨.cons_cons hnext hchain, List.forall_mem_cons.2 ⟨⟨group, hgroup⟩, hgroups⟩⟩

theorem writable_iff : Writable groups ↔ ∃ w, IsFile 0 groups w := by
  constructor
  · intro h
    exact exists_isFile h.ids fun g hg => exists_isGroup (h.offsets g hg) (h.limit g hg)
  · rintro ⟨w, h⟩
    obtain ⟨hids, hgroups⟩ := chain_of_isFile h
    exact ⟨hids, fun g hg => (chain_of_isGroup (hgroups g hg).choose_spec).1,
      fun g hg => (chain_of_isGroup (hgroups g hg).choose_spec).2⟩

/-! ### Reading them -/

theorem run_smart {n : UInt16} {s : Bytes} (h : IsSmart n s) (r : Bytes) : smart.run (s ++ r) = .ok (n, r) := by
  cases h with
  | short h => exact run_smart_short h r
  | long h => exact run_smart_long h r

theorem run_readGroup (h : IsGroup offset spots w) (acc : List Placement) (r : Bytes) :
    (Reader.loop (moreOfGroup x y id) (progress_moreOfGroup x y id) ⟨offset, acc⟩).run (w ++ r) =
      .ok ((spots.map fun s => ofOffset x y id s.1 s.2).reverse ++ acc, r) := by
  induction h generalizing acc with
  | done hzero =>
    rw [Reader.run_loop, moreOfGroup, Reader.run_bind_of_ok (run_smart hzero r), if_pos rfl]
    rfl
  | @spot offset next attributes spots step s rest hnext hne hle hsmart _ ih =>
    subst hnext
    rw [Reader.run_loop, moreOfGroup, List.append_assoc, Reader.run_bind_of_ok (run_smart hsmart _), if_neg hne,
      if_neg (Nat.not_lt.2 hle)]
    show (Reader.loop (moreOfGroup x y id) _ ⟨_, ofOffset x y id _ attributes :: acc⟩).run (rest ++ r) = _
    rw [ih]
    simp

theorem run_readAll (h : IsFile bound groups w) (acc : List Placement) (r : Bytes) :
    (Reader.loop (moreGroups x y) (progress_moreGroups x y) ⟨bound, acc⟩).run (w ++ r) =
      .ok (acc.reverse ++ groups.flatMap fun g => g.2.map fun s => ofOffset x y g.1 s.1 s.2, r) := by
  induction h generalizing acc with
  | done hzero =>
    rw [Reader.run_loop, moreGroups, Reader.run_bind_of_ok (run_smart hzero r), if_pos rfl]
    simp
  | @group bound id spots groups step s group rest hid hne hsmart hgroup _ ih =>
    have hlt := id.toNat_lt
    have hfits : ¬ 65536 < bound + step.toNat := by omega
    have hback : UInt16.ofNat (bound + step.toNat - 1) = id := by
      rw [← hid, Nat.add_sub_cancel, UInt16.ofNat_toNat]
    rw [Reader.run_loop, moreGroups, List.append_assoc, List.append_assoc,
      Reader.run_bind_of_ok (run_smart hsmart _), if_neg hne, if_neg hfits, hback, readGroup,
      Reader.run_bind_of_ok (run_readGroup hgroup acc _)]
    show (Reader.loop (moreGroups x y) _ ⟨bound + step.toNat, _⟩).run (rest ++ r) = _
    rw [← hid, ih]
    simp

/-! ### What a placement keeps of its spot -/

theorem ofGroups_eq (x y : UInt8) (groups : List (UInt16 × List Spot)) :
    ofGroups x y groups = groups.flatMap fun g => g.2.map fun s => ofOffset x y g.1 s.1 s.2 := by
  have hmask : ∀ n : Nat, n &&& 63 = n % 64 := fun n => Nat.and_two_pow_sub_one_eq_mod n 6
  have hplane : ∀ n : Nat, n >>> 12 = n / 4096 := fun n => Nat.shiftRight_eq_div_pow n 12
  have hcolumn : ∀ n : Nat, n >>> 6 = n / 64 := fun n => Nat.shiftRight_eq_div_pow n 6
  unfold ofGroups ofOffset place regionSize
  simp only [hmask, hplane, hcolumn]
  rfl

/-- A plane and a place in the region below it. -/
theorem pack_offset (offset : Nat) :
    ((offset >>> 12) <<< 12) ||| (((offset >>> 6) &&& 63) <<< 6) ||| (offset &&& 63) = offset := by
  have hmask : ∀ n : Nat, n &&& 63 = n % 64 := fun n => Nat.and_two_pow_sub_one_eq_mod n 6
  have hy : offset % 64 < 2 ^ 6 := Nat.mod_lt _ (by decide)
  have hx : ((offset >>> 6) % 64) <<< 6 + offset % 64 < 2 ^ 12 := by
    rw [Nat.shiftLeft_eq]
    omega
  rw [hmask, hmask, Nat.or_assoc, ← Nat.shiftLeft_add_eq_or_of_lt hy, ← Nat.shiftLeft_add_eq_or_of_lt hx,
    Nat.shiftLeft_eq, Nat.shiftLeft_eq, Nat.shiftRight_eq_div_pow, Nat.shiftRight_eq_div_pow]
  omega

theorem pack_attributes (attributes : UInt8) :
    ((attributes >>> 2) <<< 2) ||| (attributes &&& 3) = attributes := by
  revert attributes
  decide +kernel

theorem map_spot_ofGroups (x y : UInt8) (groups : List (UInt16 × List Spot)) :
    (ofGroups x y groups).map (spot x y) = groups.flatMap (·.2) := by
  unfold ofGroups
  rw [List.map_flatMap]
  congr 1
  funext g
  rw [List.map_map]
  conv => rhs; rw [← List.map_id g.2]
  congr 1
  funext s
  obtain ⟨offset, attributes⟩ := s
  have hcancel : ∀ (a : Int) (n : Nat), (a + n - a).toNat = n := fun a n => by omega
  simp only [Function.comp, spot, Int.toNat_natCast, hcancel, pack_offset, pack_attributes, id]

/-- The groups whose distances can be written have a written form, and are read back from each of them as
the placements that they stand for, whatever comes next; and no placement loses anything of its spot. -/
theorem decodeAll_groups (groups : List (UInt16 × List Spot)) :
    (Writable groups ↔ ∃ w, IsFile 0 groups w) ∧
      (∀ w, IsFile 0 groups w → ∀ x y rest, decodeAll (w ++ rest) x y = .ok (ofGroups x y groups)) ∧
      ∀ x y, (ofGroups x y groups).map (spot x y) = groups.flatMap (·.2) := by
  refine ⟨writable_iff, fun w h x y rest => ?_, fun x y => map_spot_ofGroups x y groups⟩
  rw [decodeAll, readAll, run_readAll h [] rest, ofGroups_eq]
  rfl

/-- Small numbers in both forms, an object without spots, and the greatest distances. -/
def scattered : List (UInt16 × List Spot) :=
  [(0, [(0, 0x29), (4161, 3)]), (5, []), (32772, [(32766, 0xFE)])]

theorem isFile_scattered : IsFile 0 scattered
    [0x80, 1, 1, 0x29, 0x90, 0x42, 3, 0, 5, 0x80, 0, 0xFF, 0xFF, 0xFF, 0xFF, 0xFE, 0, 0] := by
  have zero : IsSmart 0 [0] := .short (by decide)
  have longZero : IsSmart 0 [0x80, 0] := .long (by decide)
  have one : IsSmart 1 [1] := .short (by decide)
  have longOne : IsSmart 1 [0x80, 1] := .long (by decide)
  have five : IsSmart 5 [5] := .short (by decide)
  have far : IsSmart 4162 [0x90, 0x42] := .long (by decide)
  have farthest : IsSmart 0x7FFF [0xFF, 0xFF] := .long (by decide)
  have group0 : IsGroup 0 [(0, 0x29), (4161, 3)] [1, 0x29, 0x90, 0x42, 3, 0] :=
    .spot rfl (by decide) (by decide) one (.spot rfl (by decide) (by decide) far (.done zero))
  have group5 : IsGroup 0 [] [0x80, 0] := .done longZero
  have group32772 : IsGroup 0 [(32766, 0xFE)] [0xFF, 0xFF, 0xFE, 0] :=
    .spot rfl (by decide) (by decide) farthest (.done zero)
  exact .group rfl (by decide) longOne group0 <|
    .group rfl (by decide) five group5 <| .group rfl (by decide) farthest group32772 (.done zero)

theorem decodeAll_groups_scattered : Writable scattered ∧ ∃ w, IsFile 0 scattered w ∧
    decodeAll (w ++ [9, 9]) 50 255 = .ok
      [⟨0, ⟨3200, 16320, 0⟩, 10, 1⟩, ⟨0, ⟨3201, 16321, 1⟩, 0, 3⟩, ⟨32772, ⟨3263, 16382, 7⟩, 63, 2⟩] := by
  obtain ⟨hwritable, hdecode, -⟩ := decodeAll_groups scattered
  refine ⟨hwritable.2 ⟨_, isFile_scattered⟩, _, isFile_scattered, ?_⟩
  rw [hdecode _ isFile_scattered]
  decide +kernel

end AssetCache.Placement
