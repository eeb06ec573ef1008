import Mathlib
import AssetCache.Placement.Words
import AssetCache.Proofs.ObjectStreams
import AssetCache.Proofs.ReaderRuns

/-!
# Object files in any region and in words

Reading a file for a region is reading it for the first region and then moving all placements
(`decodeAll_eq_moved`). Reading it in words of 32 bits is the same again, so nothing overflows
(`decodeAll_words`). Main statement: `decodeAll_anyFile`, what holds of the reading of any bytes.
-/

namespace AssetCache.Placement
open ByteReader Reader
variable {x y : UInt8} {objectId : UInt16} {s : Bytes} {ps : List Placement}

/-! ### Errors -/

/-- What can be wrong with an object file: it stops short, or an id or an offset is out of range. -/
def IsStreamFault (e : LoadError) : Prop :=
  (∃ needed remaining, e = .endOfData needed remaining) ∨ ∃ fault, e = .corrupted fault

theorem failsOnly_smart : FailsOnly IsStreamFault smart :=
  recognizes_smart.failsOnly fun needed remaining => .inl ⟨needed, remaining, rfl⟩

theorem failsOnly_readGroup (acc : List Placement) : FailsOnly IsStreamFault (readGroup x y objectId acc) := by
  refine FailsOnly.loop (fun g => ?_) _
  refine failsOnly_smart.bind fun step => FailsOnly.ite (.pure _) ?_
  refine FailsOnly.ite (.fail (.inr ⟨_, rfl⟩)) ?_
  have hbyte : FailsOnly IsStreamFault byte :=
    recognizes_byte.failsOnly fun needed remaining => .inl ⟨needed, remaining, rfl⟩
  exact hbyte.bind fun attributes => .pure _

theorem failsOnly_readAll : FailsOnly IsStreamFault (readAll x y) := by
  refine FailsOnly.loop (fun g => ?_) _
  refine failsOnly_smart.bind fun step => FailsOnly.ite (.pure _) ?_
  refine FailsOnly.ite (.fail (.inr ⟨_, rfl⟩)) ?_
  exact (failsOnly_readGroup g.acc).bind fun acc => .pure _

theorem isStreamFault_of_decodeAll {e : LoadError} (h : decodeAll s x y = .error e) : IsStreamFault e := by
  cases hrun : (readAll x y).run s with
  | error e' =>
    rw [decodeAll, hrun] at h
    cases h
    exact failsOnly_readAll s _ hrun
  | ok out =>
    rw [decodeAll, hrun] at h
    cases h

/-! ### Regions -/

/-- A placement of the first region, moved to the region with the given coordinates. -/
def moved (x y : UInt8) (p : Placement) : Placement :=
  { p with position := p.position + ⟨(64 : Int) * x.toNat, (64 : Int) * y.toNat, 0⟩ }

/-- An error that names a region, with the region with the given coordinates in its place. -/
def named (x y : UInt8) : LoadError → LoadError
  | .corrupted (.objectIdRange id _ _) => .corrupted (.objectIdRange id x y)
  | .corrupted (.offsetRange id _ _) => .corrupted (.offsetRange id x y)
  | e => e

theorem moved_ofOffset (x y : UInt8) (objectId : UInt16) (offset : ℕ) (attributes : UInt8) :
    moved x y (ofOffset 0 0 objectId offset attributes) = ofOffset x y objectId offset attributes := by
  have hposition : place 0 0 offset + ⟨(64 : Int) * x.toNat, (64 : Int) * y.toNat, 0⟩ = place x y offset := by
    show (⟨_, _, _⟩ : Vec3) = ⟨_, _, _⟩
    simp [place, regionSize]
    omega
  rw [moved, ofOffset, ofOffset, hposition]

theorem mirrors_smart : Mirrors id (named x y) smart smart := recognizes_smart.mirrors fun _ _ => rfl

theorem mirrors_readGroup {acc acc' : List Placement} (hacc : acc' = acc.map (moved x y)) :
    Mirrors (List.map (moved x y)) (named x y) (readGroup 0 0 objectId acc) (readGroup x y objectId acc') := by
  let R (g g' : Group) : Prop := g' = ⟨g.offset, g.acc.map (moved x y)⟩
  have hbyte : Mirrors id (named x y) byte byte := recognizes_byte.mirrors fun _ _ => rfl
  subst hacc
  refine Mirrors.loop (R := R) ?_ rfl
  rintro ⟨offset, acc⟩ _ s rfl
  refine Follows.bind mirrors_smart fun step r => ?_
  refine Follows.ite Iff.rfl (fun _ => .ends _ _) fun _ => ?_
  refine Follows.ite Iff.rfl (fun _ => .fails _) fun _ => ?_
  refine Follows.bind hbyte fun attributes t => .goesOn ?_
  show _ = Group.mk _ _
  rw [List.map_cons, moved_ofOffset]
  rfl

theorem mirrors_readAll : Mirrors (List.map (moved x y)) (named x y) (readAll 0 0) (readAll x y) := by
  let R (g g' : Groups) : Prop := g' = ⟨g.bound, g.acc.map (moved x y)⟩
  refine Mirrors.loop (R := R) ?_ rfl
  rintro ⟨bound, acc⟩ _ s rfl
  refine Follows.bind mirrors_smart fun step r => ?_
  refine Follows.ite Iff.rfl (fun _ => ?_) fun _ => ?_
  · rw [← List.map_reverse]
    exact .ends _ _
  refine Follows.ite Iff.rfl (fun _ => .fails _) fun _ => ?_
  exact Follows.bind (mirrors_readGroup rfl) fun acc t => .goesOn rfl

theorem decodeAll_eq_moved (file : Bytes) (x y : UInt8) :
    decodeAll file x y = ((decodeAll file 0 0).map (List.map (moved x y))).mapError (named x y) := by
  unfold decodeAll
  rw [mirrors_readAll file]
  cases (readAll 0 0).run file <;> rfl

/-! ### Words -/

namespace Words

theorem toInt_shiftRight (a : Int32) {n : ℕ} (hn : n < 32) : (a >>> Int32.ofNat n).toInt = a.toInt / 2 ^ n := by
  have hword : (Int32.ofNat n).toBitVec.smod 32 = BitVec.ofNat 32 n := by interval_cases n <;> rfl
  have hback : (BitVec.ofNat 32 n).toNat = n := by
    rw [BitVec.toNat_ofNat]
    omega
  rw [← Int32.toInt_toBitVec, Int32.toBitVec_shiftRight, hword]
  show (a.toBitVec.sshiftRight (BitVec.ofNat 32 n).toNat).toInt = _
  rw [hback, BitVec.toInt_sshiftRight, Int.shiftRight_eq_div_pow]
  rfl

theorem toInt_and_mask (a : Int32) : (a &&& 0x3F).toInt = a.toInt % 64 := by
  have hmask : (a.toBitVec &&& (0x3F : Int32).toBitVec).toNat = a.toBitVec.toNat % 64 := by
    rw [BitVec.toNat_and]
    exact Nat.and_two_pow_sub_one_eq_mod _ 6
  have := a.toBitVec.isLt
  rw [← Int32.toInt_toBitVec, ← Int32.toInt_toBitVec, Int32.toBitVec_and, BitVec.toInt_eq_toNat_cond, hmask,
    BitVec.toInt_eq_toNat_cond]
  split <;> split <;> omega

theorem toInt_ofInt {n : ℤ} (h : Holds n) : (Int32.ofInt n).toInt = n := Int32.toInt_ofInt_of_le h.1 h.2

theorem run_word {n : ℤ} (h : Holds n) (s : Bytes) : (word n).run s = .ok (Int32.ofInt n, s) := by
  rw [word, if_pos h]
  rfl

/-- That words are the corner of the region with the given coordinates. -/
def IsCorner (x y : UInt8) (c : Triple) : Prop := c.toVec3 = ⟨(64 : ℤ) * x.toNat, (64 : ℤ) * y.toNat, 0⟩

theorem run_corner (x y : UInt8) (s : Bytes) : ∃ c, IsCorner x y c ∧ (corner x y).run s = .ok (c, s) := by
  have hx := x.toNat_lt
  have hy := y.toNat_lt
  have hwest : Holds (x.toNat * regionSize) := by
    unfold Holds regionSize
    omega
  have hsouth : Holds (y.toNat * regionSize) := by
    unfold Holds regionSize
    omega
  refine ⟨⟨Int32.ofInt (x.toNat * regionSize), Int32.ofInt (y.toNat * regionSize), 0⟩, ?_, ?_⟩
  · unfold IsCorner Triple.toVec3
    rw [toInt_ofInt hwest, toInt_ofInt hsouth]
    simp [regionSize, mul_comm]
  · rw [corner, run_bind_of_ok (run_word hwest s), run_bind_of_ok (run_word hsouth s)]
    rfl

theorem toVec3_tile {offset : Int32} {n : ℕ} (h : offset.toInt = n) :
    (tile offset).toVec3 = ⟨(n / 64 % 64 : ℕ), (n % 64 : ℕ), (n / 4096 : ℕ)⟩ := by
  have hcolumn : (offset >>> 6).toInt = offset.toInt / 64 := toInt_shiftRight offset (n := 6) (by decide)
  have hplane : (offset >>> 12).toInt = offset.toInt / 4096 := toInt_shiftRight offset (n := 12) (by decide)
  simp only [tile, Triple.toVec3, toInt_and_mask, hcolumn, hplane, h]
  rfl

/-- No sum of a corner and a place in the region is too great for a word. -/
theorem run_plus {c : Triple} (hc : IsCorner x y c) {offset : Int32} {n : ℕ} (h : offset.toInt = n) (s : Bytes) :
    ∃ position, position.toVec3 = place x y n ∧ (c.plus (tile offset)).run s = .ok (position, s) := by
  have hcx := x.toNat_lt
  have hcy := y.toNat_lt
  have hn := offset.toInt_lt
  have htile := toVec3_tile h
  simp only [IsCorner, Triple.toVec3, Vec3.mk.injEq] at hc htile
  obtain ⟨hwest, hsouth, hground⟩ := hc
  obtain ⟨hcolumn, hrow, hplane⟩ := htile
  have hx : Holds (c.x.toInt + (tile offset).x.toInt) := by
    unfold Holds
    omega
  have hy : Holds (c.y.toInt + (tile offset).y.toInt) := by
    unfold Holds
    omega
  have hz : Holds (c.z.toInt + (tile offset).z.toInt) := by
    unfold Holds
    omega
  refine ⟨⟨Int32.ofInt (c.x.toInt + (tile offset).x.toInt), Int32.ofInt (c.y.toInt + (tile offset).y.toInt),
    Int32.ofInt (c.z.toInt + (tile offset).z.toInt)⟩, ?_, ?_⟩
  · simp only [Triple.toVec3, toInt_ofInt hx, toInt_ofInt hy, toInt_ofInt hz, place, regionSize, Vec3.mk.injEq]
    omega
  · rw [Triple.plus, run_bind_of_ok (run_word hx s), run_bind_of_ok (run_word hy s), run_bind_of_ok (run_word hz s)]
    rfl

theorem mirrors_plain {α : Type} (p : ByteReader α) : Mirrors id Failure.load p (plain p) := by
  intro s
  show _ = ((p.run s).map (Prod.map id id)).mapError Failure.load
  simp only [plain, Reader.mapError]
  cases p.run s <;> rfl

theorem mirrors_readGroup {c : Triple} (hc : IsCorner x y c) (acc : List Placement) :
    Mirrors id Failure.load (Placement.readGroup x y objectId acc) (readGroup c x y objectId acc) := by
  let R (g : Placement.Group) (g' : Group) : Prop := g'.offset.toInt = g.offset ∧ g'.acc = g.acc
  refine Mirrors.loop (R := R) ?_ ⟨rfl, rfl⟩
  rintro ⟨offset, _⟩ ⟨wordOffset, acc⟩ s ⟨hoffset, rfl⟩
  refine Follows.bind (mirrors_plain smart) fun step r => ?_
  refine Follows.ite Iff.rfl (fun _ => .ends _ _) fun h0 => ?_
  have hlt := step.toNat_lt
  have hpos : step.toNat ≠ 0 := fun hzero => h0 (UInt16.toNat_inj.1 hzero)
  have hdistance : Holds ((step.toNat : ℤ) - 1) := by
    unfold Holds
    omega
  have hsum : wordOffset.toInt + (Int32.ofInt ((step.toNat : ℤ) - 1)).toInt = (offset + (step.toNat - 1) : ℕ) := by
    rw [toInt_ofInt hdistance]
    simp only at hoffset
    omega
  -- an offset has no bound but the one that is checked, here for the number and there for the word
  have hover : offsetLimit < offset + (step.toNat - 1) ↔ ¬ Holds ((offset + (step.toNat - 1) : ℕ) : ℤ) := by
    unfold Holds offsetLimit
    omega
  simp only [id, run_bind_of_ok (run_word hdistance r), hsum, ← hover]
  refine Follows.ite Iff.rfl (fun _ => .fails _) fun hlimit => ?_
  have hoffset' := toInt_ofInt (not_not.1 (mt hover.2 hlimit))
  refine Follows.bind (mirrors_plain byte) fun attributes t => ?_
  obtain ⟨position, hposition, hrun⟩ := run_plus hc hoffset' t
  rw [run_bind_of_ok hrun]
  refine .goesOn ⟨hoffset', ?_⟩
  simp only [hposition]
  rfl

theorem mirrors_readGroups {c : Triple} (hc : IsCorner x y c) :
    Mirrors id Failure.load (Placement.readAll x y)
      (Reader.loop (moreGroups c x y) (progress_moreGroups c x y) { id := -1, acc := [] }) := by
  let R (g : Placement.Groups) (g' : Groups) : Prop := g'.id.toInt = (g.bound : ℤ) - 1 ∧ g.bound ≤ 65536 ∧ g'.acc = g.acc
  refine Mirrors.loop (R := R) ?_ ⟨rfl, by simp, rfl⟩
  rintro ⟨bound, _⟩ ⟨wordId, acc⟩ s ⟨hid, hbound, rfl⟩
  refine Follows.bind (mirrors_plain smart) fun step r => ?_
  refine Follows.ite Iff.rfl (fun _ => .ends _ _) fun h0 => ?_
  have hlt := step.toNat_lt
  have hpos : step.toNat ≠ 0 := fun hzero => h0 (UInt16.toNat_inj.1 hzero)
  simp only at hid hbound
  -- an id goes on from one that has been checked, by less than 65536, and so needs no check of its own
  have hsum : wordId.toInt + (step.toNat : ℤ) = (bound + step.toNat - 1 : ℕ) := by omega
  have hfits : Holds ((bound + step.toNat - 1 : ℕ) : ℤ) := by
    unfold Holds
    omega
  simp only [id, hsum, run_bind_of_ok (run_word hfits r), toInt_ofInt hfits, Int.toNat_natCast]
  refine Follows.ite (by omega) (fun _ => .fails _) fun hlimit => ?_
  refine Follows.bind (mirrors_readGroup hc acc) fun acc t => .goesOn ⟨?_, Nat.not_lt.1 hlimit, rfl⟩
  rw [toInt_ofInt hfits]
  simp only
  omega

/-- Reading in words is reading: no number is too great for a word that is not an error of the file. -/
theorem decodeAll_words (file : Bytes) (x y : UInt8) :
    decodeAll file x y = (Placement.decodeAll file x y).mapError .load := by
  obtain ⟨c, hc, hcorner⟩ := run_corner x y file
  unfold decodeAll Placement.decodeAll
  rw [readAll, run_bind_of_ok hcorner, mirrors_readGroups hc file]
  cases (Placement.readAll x y).run file <;> rfl

end Words

/-! ### Any bytes -/

/-- What holds of the placements of the region with the given coordinates. -/
structure InRegion (x y : UInt8) (ps : List Placement) : Prop where
  column : ∀ p ∈ ps, 64 * (x.toNat : ℤ) ≤ p.position.x ∧ p.position.x < 64 * x.toNat + 64
  row : ∀ p ∈ ps, 64 * (y.toNat : ℤ) ≤ p.position.y ∧ p.position.y < 64 * y.toNat + 64
  plane : ∀ p ∈ ps, 0 ≤ p.position.z ∧ p.position.z < 0x80000
  kind : ∀ p ∈ ps, p.kind < 64
  orientation : ∀ p ∈ ps, p.orientation < 4
  ascending : ps.Pairwise (Before x y)

theorem kind_lt (attributes : UInt8) : attributes >>> 2 < 64 := by
  revert attributes
  decide +kernel

theorem orientation_lt (attributes : UInt8) : attributes &&& 3 < 4 := by
  revert attributes
  decide +kernel

theorem inRegion_of_isFile {groups : List (UInt16 × List Spot)} {w : Bytes} (h : IsFile 0 groups w) (x y : UInt8) :
    InRegion x y (ofGroups x y groups) := by
  have hoffset := hasOffset_of_isFile (x := x) (y := y) h
  refine ⟨?_, ?_, ?_, ?_, ?_, pairwise_ofGroups (writable_iff.2 ⟨w, h⟩) x y⟩ <;> intro p hp <;>
    obtain ⟨offset, attributes, hle, hp⟩ := hoffset p hp <;> rw [hp]
  · simp only [ofOffset, place, regionSize]
    omega
  · simp only [ofOffset, place, regionSize]
    omega
  · simp only [ofOffset, place]
    unfold offsetLimit at hle
    omega
  · exact kind_lt attributes
  · exact orientation_lt attributes

/-- Whatever the bytes: reading fails only because they stop short or because an id or an offset is out of range,
and it does not overflow in words. What it places lies in the region, in order, and owes nothing to the bytes
behind the written groups; and it is what is placed in the first region, moved. -/
theorem decodeAll_anyFile (file : Bytes) (x y : UInt8) :
    (∀ e, decodeAll file x y = .error e → IsStreamFault e) ∧
    Words.decodeAll file x y = (decodeAll file x y).mapError .load ∧
    (∀ ps, decodeAll file x y = .ok ps → InRegion x y ps ∧
      ∃ groups w r, IsFile 0 groups w ∧ file = w ++ r ∧ ∀ r', decodeAll (w ++ r') x y = .ok ps) ∧
    decodeAll file x y = ((decodeAll file 0 0).map (List.map (moved x y))).mapError (named x y) := by
  refine ⟨fun e h => isStreamFault_of_decodeAll h, Words.decodeAll_words file x y, fun ps h => ?_,
    decodeAll_eq_moved file x y⟩
  obtain ⟨groups, w, r, hw, rfl, rfl⟩ := decodeAll_eq_ok_iff.1 h
  exact ⟨inRegion_of_isFile hw x y, groups, w, r, hw, rfl, fun r' => decodeAll_of_isFile hw x y r'⟩

/-- Two objects on one plane and on the next, and bytes that are not looked at. -/
def twoPlanes : Bytes := [1, 5, 2, 0, 4, 0x90, 1, 0x29, 1, 3, 0, 0, 9]

/-- Three objects, the last of which is beyond the greatest id. -/
def beyondIds : Bytes := [0xFF, 0xFF, 0, 0xFF, 0xFF, 0, 0xFF, 0xFF, 0]

theorem decodeAll_anyFile_samples :
    (∃ ps, decodeAll twoPlanes 50 255 = .ok ps ∧ ps.length = 3 ∧ InRegion 50 255 ps) ∧
    decodeAll beyondIds 50 255 = .error (.corrupted (.objectIdRange 98300 50 255)) ∧
      IsStreamFault (.corrupted (.objectIdRange 98300 50 255)) := by
  have hdecode : decodeAll twoPlanes 50 255 = .ok
      [⟨0, ⟨3200, 16324, 0⟩, 0, 2⟩, ⟨4, ⟨3200, 16320, 1⟩, 10, 1⟩, ⟨4, ⟨3200, 16320, 1⟩, 0, 3⟩] := by decide +kernel
  have hbeyond : decodeAll beyondIds 50 255 = .error (.corrupted (.objectIdRange 98300 50 255)) := by
    decide +kernel
  have hplanes := (decodeAll_anyFile twoPlanes 50 255).2.2.1 _ hdecode
  exact ⟨⟨_, hdecode, rfl, hplanes.1⟩, hbeyond, (decodeAll_anyFile beyondIds 50 255).1 _ hbeyond⟩

end AssetCache.Placement
