import Mathlib
import AssetCache.Proofs.CursorRequests

/-!
# Fields one after the other

`Field.Spells` says in numbers what the written form of a value is, and `spells_iff` that the encoder writes just
that. A cursor takes the written form of a value as a whole, and in less than that it runs out of bytes; so it reads
back what was written in a row, up to the value in which the bytes break off. Main statement: `performAll_written`.
-/

namespace AssetCache

namespace Bytes

/-- The number that bytes are, the first of them being the most significant. -/
def number : Bytes → ℕ
  | [] => 0
  | b :: bs => b.toNat * 256 ^ bs.length + number bs

theorem number_lt (bs : Bytes) : bs.number < 256 ^ bs.length := by
  induction bs with
  | nil => simp [number]
  | cons b bs ih =>
    have hb := b.toNat_lt
    calc b.toNat * 256 ^ bs.length + number bs
      _ < b.toNat * 256 ^ bs.length + 256 ^ bs.length := Nat.add_lt_add_left ih _
      _ = (b.toNat + 1) * 256 ^ bs.length := (Nat.succ_mul _ _).symm
      _ ≤ 256 * 256 ^ bs.length := Nat.mul_le_mul_right _ hb
      _ = 256 ^ (bs.length + 1) := (Nat.pow_succ' ..).symm

theorem eq_of_number_eq {u v : Bytes} (hlength : u.length = v.length) (h : u.number = v.number) : u = v := by
  induction u generalizing v with
  | nil => exact (List.length_eq_zero_iff.1 hlength.symm).symm
  | cons a u ih =>
    rcases v with _ | ⟨b, v⟩
    · simp at hlength
    · simp only [List.length_cons, Nat.add_right_cancel_iff] at hlength
      have hu := number_lt u
      have hv := number_lt v
      rw [number, number, hlength] at h
      rw [hlength] at hu
      have hdigit (n : ℕ) {r : ℕ} (hr : r < 256 ^ v.length) : (n * 256 ^ v.length + r) / 256 ^ v.length = n := by
        rw [Nat.mul_comm, Nat.mul_add_div (Nat.pow_pos (by decide)), Nat.div_eq_of_lt hr, Nat.add_zero]
      have hab : a.toNat = b.toNat := by rw [← hdigit a.toNat hu, h, hdigit b.toNat hv]
      have hrest : number u = number v := by
        rw [hab] at h
        exact Nat.add_left_cancel h
      rw [UInt8.toNat_inj.1 hab, ih hlength hrest]

/-- The bits of a number are its two's complement. -/
theorem toNat_eq_toInt_emod {w : ℕ} (b : BitVec w) : (b.toNat : ℤ) = b.toInt % 2 ^ w := by
  have hlt : (b.toNat : ℤ) < (2 ^ w : ℕ) := by exact_mod_cast b.isLt
  have hbits : (b.toNat : ℤ) % (2 ^ w : ℕ) = b.toNat := Int.emod_eq_of_lt (Int.natCast_nonneg _) hlt
  rw [← Int.bmod_emod, ← BitVec.toInt_eq_toNat_bmod] at hbits
  exact_mod_cast hbits.symm

theorem number_ofU16 (w : UInt16) : (ofU16 w).number = w.toNat := by
  have := w.toNat_lt
  simp [ofU16, number]
  omega

end Bytes

namespace Field
variable {f : Field} {u v w : Bytes}

/-- The written form of a value: numbers with the most significant byte first and negative ones in two's complement,
small numbers in one byte if they go into seven bits, and texts with their end. -/
def Spells : Field → Bytes → Prop
  | u8 n, w => w.length = 1 ∧ w.number = n.toNat
  | i8 n, w => w.length = 1 ∧ (w.number : ℤ) = n.toInt % 2 ^ 8
  | u16 n, w => w.length = 2 ∧ w.number = n.toNat
  | i16 n, w => w.length = 2 ∧ (w.number : ℤ) = n.toInt % 2 ^ 16
  | u24 n, w => w.length = 3 ∧ w.number = n
  | u32 n, w => w.length = 4 ∧ w.number = n.toNat
  | smart n, w =>
    if n.toNat < 0x80 then w.length = 1 ∧ w.number = n.toNat else w.length = 2 ∧ w.number = 0x8000 + n.toNat
  | text t, w => '\n' ∉ t.toList ∧ w.map UInt8.toNat = t.toList.map Char.toNat ++ [0x0A]
  | block bytes, w => w = bytes

theorem Spells.unique (hu : f.Spells u) (hv : f.Spells v) : u = v := by
  cases f with
  | smart n =>
    simp only [Spells] at hu hv
    split at hu <;> rename_i hn <;> simp only [hn, if_true, if_false] at hv <;>
      exact Bytes.eq_of_number_eq (hu.1.trans hv.1.symm) (hu.2.trans hv.2.symm)
  | text t => exact List.map_injective_iff.2 (fun _ _ => UInt8.toNat_inj.1) (hu.2.trans hv.2.symm)
  | block bytes => exact hu.trans hv.symm
  | i8 n => exact Bytes.eq_of_number_eq (hu.1.trans hv.1.symm) (by exact_mod_cast hu.2.trans hv.2.symm)
  | i16 n => exact Bytes.eq_of_number_eq (hu.1.trans hv.1.symm) (by exact_mod_cast hu.2.trans hv.2.symm)
  | _ => exact Bytes.eq_of_number_eq (hu.1.trans hv.1.symm) (hu.2.trans hv.2.symm)

theorem Spells.fits (h : f.Spells w) : f.Fits := by
  cases f with
  | u24 n =>
    have hlt := w.number_lt
    rw [h.1, h.2] at hlt
    exact hlt
  | smart n =>
    have hlt := w.number_lt
    show n.toNat < 0x8000
    simp only [Spells] at h
    split at h
    · omega
    · rw [h.1, h.2] at hlt
      omega
  | text t =>
    obtain ⟨hend, hmap⟩ := h
    intro c hc
    have hbyte : c.toNat ∈ w.map UInt8.toNat := by simp [hmap, List.mem_map_of_mem hc]
    obtain ⟨b, -, hb⟩ := List.mem_map.1 hbyte
    refine ⟨hb ▸ b.toNat_lt, fun he => ?_⟩
    obtain rfl : c = '\n' := Char.toNat_inj.1 he
    exact hend hc
  | _ => trivial

theorem spells_encode (h : f.Fits) : f.Spells f.encode := by
  cases f with
  | u8 n => simp [Spells, encode, Bytes.number]
  | i8 n =>
    refine ⟨rfl, ?_⟩
    have hnumber : Bytes.number [n.toUInt8] = n.toBitVec.toNat := Nat.mul_one _
    rw [encode, hnumber, ← Int8.toInt_toBitVec, Bytes.toNat_eq_toInt_emod]
  | u16 n => exact ⟨rfl, Bytes.number_ofU16 n⟩
  | i16 n =>
    refine ⟨rfl, ?_⟩
    rw [encode, Bytes.number_ofU16, ← Int16.toInt_toBitVec]
    exact Bytes.toNat_eq_toInt_emod n.toBitVec
  | u24 n =>
    have hlt : n < 0x1000000 := h
    simp [Spells, encode, Bytes.number, Bytes.ofU24]
    omega
  | u32 n =>
    have hlt := n.toNat_lt
    simp [Spells, encode, Bytes.number, Bytes.ofU32]
    omega
  | smart n =>
    have hlt : n.toNat < 0x8000 := h
    simp only [Spells, encode, Bytes.ofSmart]
    by_cases hshort : n.toNat < 0x80
    · rw [if_pos hshort, if_pos (UInt16.lt_iff_toNat_lt.2 hshort)]
      have hbyte : n.toNat % 256 = n.toNat := Nat.mod_eq_of_lt (by omega)
      simp [Bytes.number, hbyte]
    · rw [if_neg hshort, if_neg (mt UInt16.lt_iff_toNat_lt.1 hshort), Bytes.number_ofU16, UInt16.toNat_add]
      refine ⟨rfl, ?_⟩
      show (n.toNat + 0x8000) % 2 ^ 16 = _
      omega
  | text t =>
    constructor
    · exact fun hmem => (h _ hmem).2 rfl
    · have hbytes : t.toList.map (UInt8.toNat ∘ fun c => UInt8.ofNat c.toNat) = t.toList.map Char.toNat :=
        List.map_congr_left fun c hc => UInt8.toNat_ofNat_of_lt' (h c hc).1
      simp [encode, Bytes.ofLine, Bytes.ofText, Bytes.lineEnd, hbytes]
  | block bytes => rfl

theorem spells_iff : f.Spells w ↔ f.Fits ∧ w = f.encode := by
  constructor
  · intro h
    exact ⟨h.fits, h.unique (spells_encode h.fits)⟩
  · rintro ⟨h, rfl⟩
    exact spells_encode h

/-! ### Reading -/

open ByteReader in
theorem takes_value (h : f.Fits) : Takes (CursorRequest.value f.type).reader f.encode (some f) := by
  refine Takes.map (show Takes f.type.read f.encode f from ?_) some
  cases f with
  | u8 n => exact (recognizes_byte.takes rfl).map _
  | i8 n => exact (recognizes_i8.takes rfl).map _
  | u16 n => exact (recognizes_u16.takes rfl).map _
  | i16 n => exact (recognizes_i16.takes rfl).map _
  | u24 n => exact (recognizes_u24.takes ⟨h, rfl⟩).map _
  | u32 n => exact (recognizes_u32.takes rfl).map _
  | smart n => exact (Placement.recognizes_smart.takes (.ofSmart h)).map _
  | text t => exact (recognizes_text.takes ⟨h, rfl⟩).map _
  | block bytes => exact ((recognizes_bytes _).takes ⟨rfl, rfl⟩).map _

end Field

namespace Cursor
variable {q : CursorRequest} {w s : Bytes} {value : Option Field} {fs : List Field}

theorem perform_of_takes (h : q.reader.Takes w value) (pos : ℕ) (r : Bytes) :
    perform ⟨pos, w ++ r⟩ q = (.ok value, ⟨pos + w.length, r⟩) := by
  simp [perform, read, h.run r]

/-- Inside of a word there is not enough for a request that takes all of it. -/
theorem perform_of_endsInside (h : q.reader.Takes w value) (hs : s.EndsInside w) (pos : ℕ) : ∃ needed,
    s.length < needed ∧ perform ⟨pos, s⟩ q = (.error (.endOfData needed s.length), ⟨pos, s⟩) := by
  obtain ⟨needed, remaining, hrun⟩ := h.starves s hs
  have hlt : s.length < q.need s := by
    refine Nat.lt_of_not_le fun hle => ?_
    obtain ⟨_, hok, -⟩ := q.atomic_reader.run_of_le hle
    cases hrun.symm.trans hok
  exact ⟨q.need s, hlt, read_of_lt q.atomic_reader hlt⟩

theorem performAll_append (qs qs' : List CursorRequest) (c : Cursor) : performAll (qs ++ qs') c =
    ((performAll qs c).1 ++ (performAll qs' (performAll qs c).2).1, (performAll qs' (performAll qs c).2).2) := by
  induction qs generalizing c with
  | nil => rfl
  | cons q qs ih => simp only [List.cons_append, performAll, ih]

/-- The requests for values of the types of some fields. -/
def requests (fs : List Field) : List CursorRequest := fs.map fun f => .value f.type

/-- The answers that are the given values. -/
def answers (fs : List Field) : List CursorAnswer := fs.map fun f => .ok (some f)

theorem performAll_encode (h : ∀ f ∈ fs, f.Fits) (pos : ℕ) (r : Bytes) :
    performAll (requests fs) ⟨pos, fs.flatMap Field.encode ++ r⟩ =
      (answers fs, ⟨pos + (fs.flatMap Field.encode).length, r⟩) := by
  induction fs generalizing pos with
  | nil => rfl
  | cons f fs ih =>
    obtain ⟨hf, hfs⟩ := List.forall_mem_cons.1 h
    have hfirst := perform_of_takes (Field.takes_value hf) pos (fs.flatMap Field.encode ++ r)
    simp only [requests, answers, List.map_cons, List.flatMap_cons, List.append_assoc, performAll, hfirst]
    rw [← requests, ih hfs, List.length_append, Nat.add_assoc]
    rfl

/-- That bytes hold the written forms of some values and break off in that of the next one. -/
structure BreaksOff (fs : List Field) (s : Bytes) (before : List Field) (f : Field) (left : Bytes) : Prop where
  fields : before ++ [f] <+: fs
  whole : s = before.flatMap Field.encode ++ left
  inside : left.EndsInside f.encode

theorem exists_breaksOff (h : s.EndsInside (fs.flatMap Field.encode)) :
    ∃ before f left, BreaksOff fs s before f left := by
  induction fs generalizing s with
  | nil => exact absurd h Bytes.EndsInside.nil_right
  | cons f fs ih =>
    rw [List.flatMap_cons] at h
    -- the bytes break off in the first value, or behind it in the others
    rcases h.of_append with hinside | ⟨t, rfl, ht⟩
    · exact ⟨[], f, s, by simp, rfl, hinside⟩
    · obtain ⟨before, g, left, hfields, rfl, hinside⟩ := ih ht
      exact ⟨f :: before, g, left, by simpa using hfields, by simp, hinside⟩

theorem performAll_of_breaksOff (h : ∀ f ∈ fs, f.Fits) {before : List Field} {f : Field} {left : Bytes}
    (hbreaks : BreaksOff fs s before f left) (pos : ℕ) : ∃ needed, left.length < needed ∧
      performAll (requests (before ++ [f])) ⟨pos, s⟩ = (answers before ++ [.error (.endOfData needed left.length)],
        ⟨pos + (before.flatMap Field.encode).length, left⟩) := by
  obtain ⟨hfields, rfl, hinside⟩ := hbreaks
  have hbefore : ∀ g ∈ before, g.Fits := fun g hg => h g (hfields.subset (List.mem_append_left _ hg))
  have hf : f.Fits := h f (hfields.subset (by simp))
  obtain ⟨needed, hlt, hlast⟩ := perform_of_endsInside (Field.takes_value hf) hinside
    (pos + (before.flatMap Field.encode).length)
  refine ⟨needed, hlt, ?_⟩
  rw [requests, List.map_append, performAll_append, ← requests, performAll_encode hbefore]
  simp only [List.map_cons, List.map_nil, performAll, hlast]

/-- Values that are written one after the other are read again one after the other, whatever comes behind them, and
the cursor is then behind the last of them. If the bytes break off, the values before the break are read, and the one
in which they break off is not. -/
theorem performAll_written (h : ∀ f ∈ fs, f.Fits) (pos : ℕ) :
    (∀ f ∈ fs, ∀ w, f.Spells w ↔ w = f.encode) ∧
    (∀ r, performAll (requests fs) ⟨pos, fs.flatMap Field.encode ++ r⟩ =
      (answers fs, ⟨pos + (fs.flatMap Field.encode).length, r⟩)) ∧
    ∀ s, s.EndsInside (fs.flatMap Field.encode) → ∃ before f left, BreaksOff fs s before f left ∧
      ∃ needed, left.length < needed ∧ performAll (requests (before ++ [f])) ⟨pos, s⟩ =
        (answers before ++ [.error (.endOfData needed left.length)],
          ⟨pos + (before.flatMap Field.encode).length, left⟩) := by
  refine ⟨fun f hf w => ?_, performAll_encode h pos, fun s hs => ?_⟩
  · rw [Field.spells_iff, and_iff_right (h f hf)]
  · obtain ⟨before, f, left, hbreaks⟩ := exists_breaksOff hs
    exact ⟨before, f, left, hbreaks, performAll_of_breaksOff h hbreaks pos⟩

/-- A negative number, small numbers of both widths, a line with an accent and a block; and the numbers alone, cut off
in the last of them. -/
theorem performAll_written_samples :
    performAll (requests [.i16 (-2), .smart 0x7F, .smart 0x80, .text "\u00e9", .block [1, 2]])
        ⟨0, [0xFF, 0xFE, 0x7F, 0x80, 0x80, 0xE9, 0x0A, 1, 2, 5]⟩ =
      (answers [.i16 (-2), .smart 0x7F, .smart 0x80, .text "\u00e9", .block [1, 2]], ⟨9, [5]⟩) ∧
    ∃ before f left, BreaksOff [.i16 (-2), .smart 0x7F, .smart 0x80] [0xFF, 0xFE, 0x7F, 0x80] before f left ∧
      ∃ needed, left.length < needed ∧ performAll (requests (before ++ [f])) ⟨0, [0xFF, 0xFE, 0x7F, 0x80]⟩ =
        (answers before ++ [.error (.endOfData needed left.length)],
          ⟨0 + (before.flatMap Field.encode).length, left⟩) := by
  have hfits : ∀ f ∈ [Field.i16 (-2), .smart 0x7F, .smart 0x80, .text "\u00e9", .block [1, 2]], f.Fits := by decide
  have hnumbers : ∀ f ∈ [Field.i16 (-2), .smart 0x7F, .smart 0x80], f.Fits := by decide
  have hwhole := (performAll_written hfits 0).2.1 [5]
  have hbroken := (performAll_written hnumbers 0).2.2 [0xFF, 0xFE, 0x7F, 0x80] ⟨0x80, [], by decide⟩
  exact ⟨hwhole, hbroken⟩

end Cursor

end AssetCache
