import Mathlib
import AssetCache.Archive

/-!
# Hashes of names

The hash of a name is a number to the base 61 whose digits are the bytes of the name in capitals, each less that of a
space. A space in front is a digit of zero, and the case of a letter is no part of a digit, so these do not matter to a
lookup. Words wrap around while the hash is made, so all this holds modulo `2 ^ 32`. Main statement: `nameHash_laws`.
-/

namespace AssetCache

variable {n m : String} {a : Archive}

/-! ### Capitals -/

/-- The code of a letter as a capital, and any other code. -/
def upperCode (n : ℕ) : ℕ := if 0x61 ≤ n ∧ n ≤ 0x7A then n - 0x20 else n

/-- A byte, as a capital if it is a small letter. -/
def upper (b : UInt8) : UInt8 := if 0x61 ≤ b ∧ b ≤ 0x7A then b - 0x20 else b

theorem toNat_upper (b : UInt8) : (upper b).toNat = upperCode b.toNat := by
  have hsmall : (0x61 ≤ b ∧ b ≤ 0x7A) ↔ 0x61 ≤ b.toNat ∧ b.toNat ≤ 0x7A := Iff.rfl
  unfold upper upperCode
  rw [apply_ite UInt8.toNat]
  simp only [hsmall]
  split_ifs with h
  · exact UInt8.toNat_sub_of_le _ _ (UInt8.le_iff_toNat_le.2 (Nat.le_trans (by decide) h.1))
  · rfl

theorem toNat_toUpper (c : Char) : c.toUpper.toNat = upperCode c.toNat := by
  have hsmall : ('a'.val ≤ c.val ∧ c.val ≤ 'z'.val) ↔ 0x61 ≤ c.toNat ∧ c.toNat ≤ 0x7A := Iff.rfl
  unfold Char.toUpper upperCode
  split_ifs with h h' h'
  · have hval : c.val.toNat < 2 ^ 32 := c.val.toNat_lt
    show (c.val + ('A'.val - 'a'.val)).toNat = c.val.toNat - 0x20
    rw [UInt32.toNat_add, show ('A'.val - 'a'.val).toNat = 2 ^ 32 - 0x20 from rfl]
    have hle : 0x61 ≤ c.val.toNat := h'.1
    omega
  · exact absurd (hsmall.1 h) h'
  · exact absurd (hsmall.2 h') h
  · rfl

theorem upper_upper (b : UInt8) : upper (upper b) = upper b := by
  apply UInt8.toNat_inj.1
  rw [toNat_upper, toNat_upper]
  unfold upperCode
  split_ifs <;> omega

theorem le_of_mem_utf8EncodeChar {c : Char} {b : UInt8} (h : 127 < c.toNat) (hb : b ∈ String.utf8EncodeChar c) :
    128 ≤ b.toNat := by
  have hval : ¬ c.val.toNat ≤ 127 := Nat.not_le.2 h
  unfold String.utf8EncodeChar at hb
  dsimp only at hb
  rw [if_neg hval] at hb
  split_ifs at hb <;> simp only [List.mem_cons, List.not_mem_nil, or_false] at hb
  · rcases hb with rfl | rfl <;> rw [UInt8.toNat_ofNat'] <;> omega
  · rcases hb with rfl | rfl | rfl <;> rw [UInt8.toNat_ofNat'] <;> omega
  · rcases hb with rfl | rfl | rfl | rfl <;> rw [UInt8.toNat_ofNat'] <;> omega

/-- The bytes of a capital. Only a character of one byte has one. -/
theorem map_upper_utf8EncodeChar (c : Char) :
    (String.utf8EncodeChar c).map upper = String.utf8EncodeChar c.toUpper := by
  by_cases h : c.toNat ≤ 127
  · have hone {c : Char} (h : c.toNat ≤ 127) : String.utf8EncodeChar c = [UInt8.ofNat c.toNat] := if_pos h
    have hupper : upperCode c.toNat ≤ 127 := by
      unfold upperCode
      split_ifs <;> omega
    rw [hone h, hone (by rwa [toNat_toUpper]), List.map_singleton, List.singleton_inj]
    apply UInt8.toNat_inj.1
    rw [toNat_upper, toNat_toUpper, UInt8.toNat_ofNat_of_lt' (Nat.lt_of_le_of_lt h (by decide)),
      UInt8.toNat_ofNat_of_lt' (Nat.lt_of_le_of_lt hupper (by decide))]
  · have hlast : 127 < c.toNat := Nat.lt_of_not_le h
    have hsame : c.toUpper = c := by
      apply Char.toNat_inj.1
      rw [toNat_toUpper]
      exact if_neg (by omega)
    have hbytes : ∀ b ∈ String.utf8EncodeChar c, upper b = b := by
      intro b hb
      have hhigh := le_of_mem_utf8EncodeChar hlast hb
      apply UInt8.toNat_inj.1
      rw [toNat_upper]
      exact if_neg (by omega)
    rw [hsame, List.map_congr_left hbytes, List.map_id']

/-! ### A number to the base 61 -/

theorem hashByte_eq (hash : UInt32) (b : UInt8) : hashByte hash b = hash * 61 + (upper b).toUInt32 - 32 := rfl

/-- A byte is a digit, also if it is below that of a space. -/
theorem hashByte_modEq (hash : UInt32) (b : UInt8) :
    ((hashByte hash b).toNat : ℤ) ≡ hash.toNat * 61 + ((upper b).toNat - 32) [ZMOD 2 ^ 32] := by
  have hnat : (hashByte hash b).toNat =
      (2 ^ 32 - 32 + (hash.toNat * 61 % 2 ^ 32 + (upper b).toNat) % 2 ^ 32) % 2 ^ 32 := by
    rw [hashByte_eq, UInt32.toNat_sub, UInt32.toNat_add, UInt32.toNat_mul, UInt8.toNat_toUInt32]
    rfl
  unfold Int.ModEq
  rw [hnat]
  omega

/-- The number that bytes are. -/
def digits (s : Bytes) : ℤ := ∑ i : Fin s.length, (((upper s[i]).toNat : ℤ) - 32) * 61 ^ (s.length - 1 - i)

theorem digits_cons (b : UInt8) (s : Bytes) :
    digits (b :: s) = (((upper b).toNat : ℤ) - 32) * 61 ^ s.length + digits s := by
  refine (Fin.sum_univ_succ (n := s.length) _).trans (congrArg₂ (· + ·) rfl ?_)
  refine Finset.sum_congr rfl fun i _ => ?_
  have hplace : (b :: s).length - 1 - (i.succ : ℕ) = s.length - 1 - i := by
    rw [List.length_cons, Fin.val_succ]
    omega
  rw [hplace]
  rfl

/-- The hash that goes on from a hash, which moves up by as many places as there are bytes. -/
theorem foldl_hashByte_modEq (s : Bytes) (hash : UInt32) :
    ((s.foldl hashByte hash).toNat : ℤ) ≡ hash.toNat * 61 ^ s.length + digits s [ZMOD 2 ^ 32] := by
  induction s generalizing hash with
  | nil => simp [digits, Int.ModEq]
  | cons b s ih =>
    calc ((s.foldl hashByte (hashByte hash b)).toNat : ℤ)
      _ ≡ (hashByte hash b).toNat * 61 ^ s.length + digits s [ZMOD 2 ^ 32] := ih _
      _ ≡ (hash.toNat * 61 + ((upper b).toNat - 32)) * 61 ^ s.length + digits s [ZMOD 2 ^ 32] :=
        ((hashByte_modEq hash b).mul_right _).add_right _
      _ = hash.toNat * 61 ^ (b :: s).length + digits (b :: s) := by
        rw [digits_cons, List.length_cons, pow_succ]
        ring

theorem toNat_eq_emod {w : UInt32} {z : ℤ} (h : (w.toNat : ℤ) ≡ z [ZMOD 2 ^ 32]) :
    (w.toNat : ℤ) = z % 2 ^ 32 := by
  have hw := w.toNat_lt
  rw [← h.eq]
  omega

theorem hashBytes_modEq (s : Bytes) : ((hashBytes s).toNat : ℤ) ≡ digits s [ZMOD 2 ^ 32] := by
  have h := foldl_hashByte_modEq s 0
  rwa [show ((0 : UInt32).toNat : ℤ) = 0 from rfl, zero_mul, zero_add] at h

theorem hashBytes_append_modEq (s t : Bytes) : ((hashBytes (s ++ t)).toNat : ℤ) ≡
    (hashBytes s).toNat * 61 ^ t.length + (hashBytes t).toNat [ZMOD 2 ^ 32] := by
  have hfold : hashBytes (s ++ t) = t.foldl hashByte (hashBytes s) := List.foldl_append
  rw [hfold]
  exact (foldl_hashByte_modEq t _).trans ((hashBytes_modEq t).symm.add_left _)

/-! ### Names that hash the same -/

theorem hashBytes_map_upper (s : Bytes) : hashBytes (s.map upper) = hashBytes s := by
  have hbyte : (fun hash b => hashByte hash (upper b)) = hashByte := by
    funext hash b
    rw [hashByte_eq, upper_upper, hashByte_eq]
  rw [hashBytes, List.foldl_map, hbyte, hashBytes]

theorem toList_loop (bytes : ByteArray) (i : ℕ) (acc : Bytes) :
    ByteArray.toList.loop bytes i acc = acc.reverse ++ bytes.data.toList.drop i := by
  fun_induction ByteArray.toList.loop bytes i acc with
  | case1 i acc hi ih =>
    have hlt : i < bytes.data.toList.length := hi
    have hget : bytes.get! i = bytes.data.toList[i] := getElem!_pos bytes.data i hi
    rw [ih, List.drop_eq_getElem_cons hlt, List.reverse_cons, List.append_assoc, hget]
    rfl
  | case2 i acc hi => rw [List.drop_eq_nil_of_le (Nat.le_of_not_lt hi), List.append_nil]

theorem nameHash_eq (n : String) : nameHash n = hashBytes (n.toList.flatMap String.utf8EncodeChar) := by
  have hbytes : n.toUTF8.toList = n.toList.flatMap String.utf8EncodeChar := by
    rw [ByteArray.toList, toList_loop, String.toUTF8_eq_toByteArray, ← String.utf8Encode_toList, List.utf8Encode,
      List.data_toByteArray]
    rfl
  rw [nameHash, hbytes]

theorem nameHash_eq_toUpper (n : String) :
    nameHash n = hashBytes ((n.toList.map Char.toUpper).flatMap String.utf8EncodeChar) := by
  rw [nameHash_eq, ← hashBytes_map_upper, List.map_flatMap, List.flatMap_map]
  simp only [map_upper_utf8EncodeChar]

theorem nameHash_eq_dropWhile (n : String) :
    nameHash n = hashBytes ((n.toList.dropWhile (· == ' ')).flatMap String.utf8EncodeChar) := by
  rw [nameHash_eq]
  induction n.toList with
  | nil => rfl
  | cons c cs ih =>
    rw [List.dropWhile_cons]
    split_ifs with hc
    · obtain rfl : c = ' ' := eq_of_beq hc
      -- the hash of nothing, times 61, and the digit zero
      exact ih
    · rfl

/-- That names differ only in the case of the letters from `a` to `z`, or only in the spaces in front. -/
def Alike (n m : String) : Prop := n.toList.map Char.toUpper = m.toList.map Char.toUpper ∨
  n.toList.dropWhile (· == ' ') = m.toList.dropWhile (· == ' ')

theorem Alike.nameHash_eq (h : Alike n m) : nameHash n = nameHash m := by
  rcases h with h | h
  · rw [nameHash_eq_toUpper, h, nameHash_eq_toUpper]
  · rw [nameHash_eq_dropWhile, h, nameHash_eq_dropWhile]

/-- That an archive answers two names alike, apart from the name itself when there is no such file. -/
structure Archive.Indistinct (a : Archive) (n m : String) : Prop where
  entry : a.entry? n = a.entry? m
  contains : a.contains n = a.contains m
  file : a.contains n = true ∧ a.file n = a.file m ∨
    a.file n = .error (.subFileNotFound (.name n)) ∧ a.file m = .error (.subFileNotFound (.name m))

theorem Archive.indistinct (h : nameHash n = nameHash m) : a.Indistinct n m := by
  have hentry : a.entry? n = a.entry? m := by unfold entry?; rw [h]
  refine ⟨hentry, by rw [contains, contains, hentry], ?_⟩
  unfold contains file lookup entry?
  rw [← h]
  cases a.entryByHash? (nameHash n) with
  | none => exact .inr ⟨rfl, rfl⟩
  | some e => exact .inl ⟨rfl, rfl⟩

/-- The hash is the number that the bytes of a name are, and that of two names in a row the one moved up before the
other. Names that differ only in the case of letters, or only in the spaces in front, have the same hash, so no archive
tells them apart. -/
theorem nameHash_laws (s t : Bytes) :
    ((hashBytes s).toNat : ℤ) =
      (∑ i : Fin s.length, (((upper s[i]).toNat : ℤ) - 32) * 61 ^ (s.length - 1 - i)) % 2 ^ 32 ∧
    (hashBytes (s ++ t)).toNat = ((hashBytes s).toNat * 61 ^ t.length + (hashBytes t).toNat) % 2 ^ 32 ∧
    ∀ n m, Alike n m → nameHash n = nameHash m ∧ ∀ a : Archive, a.Indistinct n m := by
  have happend := toNat_eq_emod (hashBytes_append_modEq s t)
  refine ⟨toNat_eq_emod (hashBytes_modEq s), by exact_mod_cast happend, fun n m h => ?_⟩
  exact ⟨h.nameHash_eq, fun a => Archive.indistinct h.nameHash_eq⟩

/-- A name in capitals and one behind a space and a tab, which is a digit below zero. -/
theorem nameHash_laws_alike :
    nameHash "OBJ.DAT" = nameHash "obj.dat" ∧ (∀ a : Archive, a.Indistinct "  data" "data") ∧
    (hashBytes [0x20, 0x09]).toNat = 0xFFFFFFE9 := by
  obtain ⟨hnumber, -, halike⟩ := nameHash_laws [0x20, 0x09] []
  refine ⟨(halike "OBJ.DAT" "obj.dat" (.inl (by decide))).1, (halike "  data" "data" (.inr (by decide))).2, ?_⟩
  have htab : ((hashBytes [0x20, 0x09]).toNat : ℤ) = -23 % 2 ^ 32 := hnumber.trans (by decide)
  omega

end AssetCache
