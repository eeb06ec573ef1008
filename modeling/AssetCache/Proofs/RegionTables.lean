import Mathlib
import AssetCache.Region.Words

/-!
# Region tables

What a table says is said by one relation, entry by entry (`Tabulates`). Every table of whole entries has its list of
regions, and reading finds that list, whether the entries are counted or read until nothing is left. Only the byte
that asks for preloading can hold more than is read from it. Main statement: `decodeAll_table`.
-/

namespace AssetCache.Region

open Bytes (toU16 ofU16)

variable {r : Region} {rs : List Region} {w table : Bytes}

/-! ### Coordinates -/

theorem eq_toU16_iff {n : UInt16} {a b : UInt8} : n = toU16 a b ↔ n.toNat = 256 * a.toNat + b.toNat := by
  rw [← Bytes.toNat_toU16, UInt16.toNat_inj]

theorem high_toU16 (a b : UInt8) : (toU16 a b >>> 8).toUInt8 = a := by
  have ha := a.toNat_lt
  have hb := b.toNat_lt
  apply UInt8.toNat_inj.1
  rw [UInt16.toNat_toUInt8, UInt16.toNat_shiftRight, Bytes.toNat_toU16]
  show (256 * a.toNat + b.toNat) >>> 8 % 2 ^ 8 = a.toNat
  rw [Nat.shiftRight_eq_div_pow]
  omega

theorem low_toU16 (a b : UInt8) : (toU16 a b &&& 0xFF).toUInt8 = b := by
  have hb := b.toNat_lt
  apply UInt8.toNat_inj.1
  rw [UInt16.toNat_toUInt8, UInt16.toNat_and, Bytes.toNat_toU16]
  show ((256 * a.toNat + b.toNat) &&& (2 ^ 8 - 1)) % 2 ^ 8 = b.toNat
  rw [Nat.and_two_pow_sub_one_eq_mod]
  omega

theorem Words.toNat_id (r : Region) : (Words.id r).toNat = r.id := by
  have hx := r.x.toNat_lt
  have hy := r.y.toNat_lt
  have hshift : (r.x.toUInt32 <<< 8).toNat = r.x.toNat <<< 8 := by
    rw [UInt32.toNat_shiftLeft, UInt8.toNat_toUInt32]
    show r.x.toNat <<< 8 % 2 ^ 32 = r.x.toNat <<< 8
    rw [Nat.shiftLeft_eq]
    omega
  rw [Words.id, UInt32.toNat_or, hshift, UInt8.toNat_toUInt32, ← Nat.shiftLeft_add_eq_or_of_lt hy, Nat.shiftLeft_eq,
    Region.id]
  omega

theorem Words.encode_eq (r : Region) : Words.encode r = r.encode := by
  have hid : (Words.id r).toUInt16 = UInt16.ofNat r.id := by
    apply UInt16.toNat_inj.1
    rw [UInt32.toNat_toUInt16, Words.toNat_id, UInt16.toNat_ofNat']
  rw [Words.encode, hid, Region.encode]

/-! ### One entry -/

/-- The seven bytes of an entry: the coordinates, two numbers with the high byte first, and a byte that is one if the
region is wanted ahead of time. -/
def Spells (r : Region) (w : Bytes) : Prop := ∃ t t' o o' p, w = [r.x, r.y, t, t', o, o', p] ∧
  r.terrainId.toNat = 256 * t.toNat + t'.toNat ∧ r.objectsId.toNat = 256 * o.toNat + o'.toNat ∧
  (r.preload = true ↔ p = 1)

theorem spells_iff : r.Spells w ↔ ∃ x y t t' o o' p, w = [x, y, t, t', o, o', p] ∧
    r = ⟨x, y, toU16 t t', toU16 o o', p = 1⟩ := by
  constructor
  · rintro ⟨t, t', o, o', p, rfl, ht, ho, hp⟩
    refine ⟨_, _, t, t', o, o', p, rfl, ?_⟩
    rw [← eq_toU16_iff.2 ht, ← eq_toU16_iff.2 ho]
    simp [← hp]
  · rintro ⟨x, y, t, t', o, o', p, rfl, rfl⟩
    exact ⟨t, t', o, o', p, rfl, eq_toU16_iff.1 rfl, eq_toU16_iff.1 rfl, decide_eq_true_iff⟩

theorem exists_spells (h : w.length = entrySize) : ∃ r : Region, r.Spells w := by
  match w, h with
  | [x, y, t, t', o, o', p], _ => exact ⟨_, spells_iff.2 ⟨x, y, t, t', o, o', p, rfl, rfl⟩⟩

theorem encode_mk (x y t t' o o' : UInt8) (p : Bool) :
    encode ⟨x, y, toU16 t t', toU16 o o', p⟩ = [x, y, t, t', o, o', p.toUInt8] := by
  have hcoordinates : ofU16 (UInt16.ofNat (256 * x.toNat + y.toNat)) = [x, y] := Bytes.ofU16_toU16 x y
  simp only [encode, id, Bytes.ofU16_toU16, hcoordinates, List.cons_append, List.nil_append]

theorem spells_encode (r : Region) : r.Spells r.encode := by
  rcases r with ⟨x, y, terrainId, objectsId, preload⟩
  have hwords (n : UInt16) : ∃ a b, n = toU16 a b := ⟨_, _, (Bytes.toU16_ofU16 n).symm⟩
  obtain ⟨t, t', rfl⟩ := hwords terrainId
  obtain ⟨o, o', rfl⟩ := hwords objectsId
  refine spells_iff.2 ⟨x, y, t, t', o, o', preload.toUInt8, encode_mk .., ?_⟩
  cases preload <;> rfl

namespace Spells

theorem length_eq (h : r.Spells w) : w.length = entrySize := by
  obtain ⟨t, t', o, o', p, rfl, -⟩ := h
  rfl

theorem run_read (h : r.Spells w) (s : Bytes) : read.run (w ++ s) = .ok (r, s) := by
  obtain ⟨x, y, t, t', o, o', p, rfl, rfl⟩ := spells_iff.1 h
  rfl

theorem run_words (h : r.Spells w) (s : Bytes) : Words.read.run (w ++ s) = .ok (r, s) := by
  obtain ⟨x, y, t, t', o, o', p, rfl, rfl⟩ := spells_iff.1 h
  have hread : Words.read.run ([x, y, t, t', o, o', p] ++ s) =
    .ok (⟨(toU16 x y >>> 8).toUInt8, (toU16 x y &&& 0xFF).toUInt8, toU16 t t', toU16 o o', p == 1⟩, s) := rfl
  rw [hread, high_toU16, low_toU16]
  rfl

end Spells

/-- What writing makes of the byte at an index of a table that was read: a byte that asks for preloading in any other
way than by one does not ask for it. -/
def settled (i : ℕ) (b : UInt8) : UInt8 := if i % 7 = 6 ∧ b ≠ 0 ∧ b ≠ 1 then 0 else b

theorem settled_add_entrySize (i : ℕ) : settled (i + entrySize) = settled i := by
  funext b
  simp [settled, entrySize]

theorem Spells.encode_eq (h : r.Spells w) : r.encode = w.mapIdx settled := by
  obtain ⟨x, y, t, t', o, o', p, rfl, rfl⟩ := spells_iff.1 h
  have hlast : (decide (p = 1)).toUInt8 = settled 6 p := by
    by_cases h1 : p = 1
    · subst h1
      rfl
    · by_cases h0 : p = 0
      · subst h0
        rfl
      · rw [decide_eq_false h1]
        exact (if_pos ⟨rfl, h0, h1⟩).symm
  rw [encode_mk, hlast]
  rfl

/-! ### Tables -/

/-- That a table holds the entries of a list of regions, and nothing else. -/
inductive Tabulates : Bytes → List Region → Prop
  | nil : Tabulates [] []
  | cons {r : Region} {rs : List Region} {w table : Bytes} :
      r.Spells w → Tabulates table rs → Tabulates (w ++ table) (r :: rs)

theorem exists_tabulates (h : entrySize ∣ table.length) : ∃ rs, Tabulates table rs := by
  obtain ⟨n, hn⟩ := h
  induction n generalizing table with
  | zero =>
    obtain rfl := List.length_eq_zero_iff.1 hn
    exact ⟨[], .nil⟩
  | succ n ih =>
    have hfirst : (table.take entrySize).length = entrySize := by
      rw [List.length_take, hn]
      exact Nat.min_eq_left (Nat.le_mul_of_pos_right _ n.succ_pos)
    have hrest : (table.drop entrySize).length = entrySize * n := by
      rw [List.length_drop, hn, Nat.mul_succ, Nat.add_sub_cancel]
    obtain ⟨r, hr⟩ := exists_spells hfirst
    obtain ⟨rs, hrs⟩ := ih hrest
    exact ⟨r :: rs, List.take_append_drop entrySize table ▸ Tabulates.cons hr hrs⟩

theorem tabulates_encodeAll (rs : List Region) : Tabulates (encodeAll rs) rs := by
  induction rs with
  | nil => exact .nil
  | cons r rs ih => exact .cons (spells_encode r) ih

namespace Tabulates

theorem length_eq (h : Tabulates table rs) : table.length = entrySize * rs.length := by
  induction h with
  | nil => rfl
  | cons hr _ ih => rw [List.length_append, hr.length_eq, ih, List.length_cons, Nat.mul_succ, Nat.add_comm]

theorem spells_getElem (h : Tabulates table rs) (i : ℕ) (hi : i < rs.length) :
    rs[i].Spells ((table.drop (entrySize * i)).take entrySize) := by
  induction h generalizing i with
  | nil => exact absurd hi (Nat.not_lt_zero i)
  | @cons r rs w table hr _ ih =>
    rcases i with _ | i
    · simpa [← hr.length_eq] using hr
    · have hdrop : (w ++ table).drop (entrySize * (i + 1)) = table.drop (entrySize * i) := by
        rw [Nat.mul_succ, Nat.add_comm, ← hr.length_eq, List.drop_append, Nat.add_sub_cancel_left,
          List.drop_eq_nil_of_le (Nat.le_add_right ..), List.nil_append]
      rw [hdrop]
      exact ih i (Nat.lt_of_succ_lt_succ hi)

theorem encodeAll_eq (h : Tabulates table rs) : encodeAll rs = table.mapIdx settled := by
  induction h with
  | nil => rfl
  | cons hr _ ih =>
    rw [List.mapIdx_append, hr.length_eq]
    simp only [settled_add_entrySize]
    rw [← hr.encode_eq, ← ih]
    rfl

theorem run_replicate (h : Tabulates table rs) : (read.replicate rs.length).run table = .ok (rs, []) := by
  induction h with
  | nil => rfl
  | cons hr _ ih =>
    rw [List.length_cons, Reader.run_replicate_succ, Reader.run_bind_of_ok (hr.run_read _), Reader.run_bind_of_ok ih]
    rfl

theorem run_readAll (h : Tabulates table rs) (acc : List Region) :
    (Reader.loop Words.more Words.progress_more acc).run table = .ok (acc.reverse ++ rs, []) := by
  induction h generalizing acc with
  | nil =>
    rw [Reader.run_loop, List.append_nil]
    rfl
  | @cons r rs w table hr _ ih =>
    -- an entry is never empty, so something is left and the loop goes on
    have hleft : (w ++ table).isEmpty = false := by
      have hlength := hr.length_eq
      cases w with
      | nil => cases hlength
      | cons => rfl
    have hmore : (Words.more acc).run (w ++ table) = .ok (.inl (r :: acc), table) := by
      rw [Words.more, Reader.run_bind_of_ok (Reader.run_atEnd _), hleft, if_neg Bool.false_ne_true, Reader.run_map,
        hr.run_words]
    rw [Reader.run_loop, hmore]
    simp only [ih, List.reverse_cons, List.append_assoc, List.singleton_append]

theorem decodeAll_eq (h : Tabulates table rs) : decodeAll table = .ok rs := by
  have hcount : table.length / entrySize = rs.length := by
    rw [h.length_eq]
    exact Nat.mul_div_cancel_left _ (by decide)
  rw [decodeAll, if_neg (by simp [h.length_eq]), hcount, h.run_replicate]
  rfl

theorem words_decodeAll_eq (h : Tabulates table rs) : Words.decodeAll table = .ok rs := by
  rw [Words.decodeAll, if_neg (by simp [h.length_eq]), Words.readAll, h.run_readAll]
  rfl

end Tabulates

theorem decodeAll_of_not_dvd (h : ¬ entrySize ∣ table.length) :
    decodeAll table = .error (.corrupted (.regionTableLength table.length entrySize)) ∧
      Words.decodeAll table = decodeAll table := by
  have hrest : table.length % entrySize ≠ 0 := fun h' => h (Nat.dvd_of_mod_eq_zero h')
  rw [Words.decodeAll, decodeAll, if_pos hrest, if_pos hrest]
  exact ⟨rfl, rfl⟩

/-- A table is read if it has whole entries, and then says one region after the other; else its length is at fault. No
entry is then cut off, also for a reader that does not count them. What is written is read again, and what was read is
written again, but for the bytes that ask for preloading in some other way than by one. -/
theorem decodeAll_table (table : Bytes) :
    (7 ∣ table.length → ∃ rs, decodeAll table = .ok rs ∧ rs.length = table.length / 7 ∧
      (∀ i (hi : i < rs.length), rs[i].Spells ((table.drop (7 * i)).take 7)) ∧
      encodeAll rs = table.mapIdx settled) ∧
    (¬ 7 ∣ table.length → decodeAll table = .error (.corrupted (.regionTableLength table.length 7))) ∧
    Words.decodeAll table = decodeAll table ∧
    ∀ rs, decodeAll (encodeAll rs) = .ok rs ∧ rs.flatMap Words.encode = encodeAll rs := by
  refine ⟨fun hdvd => ?_, fun hdvd => (decodeAll_of_not_dvd hdvd).1, ?_, fun rs => ⟨?_, ?_⟩⟩
  · obtain ⟨rs, hrs⟩ := exists_tabulates hdvd
    have hcount : rs.length = table.length / 7 := by
      rw [hrs.length_eq]
      exact (Nat.mul_div_cancel_left _ (by decide)).symm
    exact ⟨rs, hrs.decodeAll_eq, hcount, hrs.spells_getElem, hrs.encodeAll_eq⟩
  · by_cases hdvd : entrySize ∣ table.length
    · obtain ⟨rs, hrs⟩ := exists_tabulates hdvd
      rw [hrs.words_decodeAll_eq, hrs.decodeAll_eq]
    · exact (decodeAll_of_not_dvd hdvd).2
  · exact (tabulates_encodeAll rs).decodeAll_eq
  · rw [encodeAll, funext Words.encode_eq]

/-- Two entries, of which the second one asks for preloading by nine, and a table that ends inside of an entry. -/
theorem decodeAll_table_settled :
    (∃ rs, decodeAll [50, 51, 1, 2, 3, 4, 1, 0, 255, 0, 0, 0, 0, 9] = .ok rs ∧ rs.length = 2 ∧
      encodeAll rs = [50, 51, 1, 2, 3, 4, 1, 0, 255, 0, 0, 0, 0, 0]) ∧
    decodeAll [50, 51, 1] = .error (.corrupted (.regionTableLength 3 7)) := by
  obtain ⟨rs, hrs, hcount, -, hagain⟩ :=
    (decodeAll_table [50, 51, 1, 2, 3, 4, 1, 0, 255, 0, 0, 0, 0, 9]).1 (by decide)
  exact ⟨⟨rs, hrs, hcount, hagain.trans (by decide)⟩, (decodeAll_table [50, 51, 1]).2.1 (by decide)⟩

end AssetCache.Region
