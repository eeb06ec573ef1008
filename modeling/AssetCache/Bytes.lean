/-! # Bytes, numbers and text

Numbers are stored with the high byte first. Text is stored one byte a character, so every byte
string is a text and every text over the first 256 characters is a byte string. -/

namespace AssetCache

/-- A run of bytes. -/
abbrev Bytes := List UInt8

namespace Bytes

/-- The two bytes of a 16-bit word. -/
def ofU16 (w : UInt16) : Bytes := [UInt8.ofNat (w.toNat / 256), UInt8.ofNat w.toNat]

/-- The three bytes of a number below `2 ^ 24`. -/
def ofU24 (n : Nat) : Bytes := [UInt8.ofNat (n / 65536), UInt8.ofNat (n / 256), UInt8.ofNat n]

/-- The four bytes of a 32-bit word. -/
def ofU32 (w : UInt32) : Bytes :=
  [UInt8.ofNat (w.toNat / 16777216), UInt8.ofNat (w.toNat / 65536), UInt8.ofNat (w.toNat / 256),
    UInt8.ofNat w.toNat]

/-- The word stored in two bytes. -/
def toU16 (a b : UInt8) : UInt16 := UInt16.ofNat (256 * a.toNat + b.toNat)

/-- The number stored in three bytes. -/
def toU24 (a b c : UInt8) : Nat := 65536 * a.toNat + 256 * b.toNat + c.toNat

/-- The word stored in four bytes. -/
def toU32 (a b c d : UInt8) : UInt32 :=
  UInt32.ofNat (16777216 * a.toNat + 65536 * b.toNat + 256 * c.toNat + d.toNat)

/-- A number below `0x8000` in one byte if it is below `0x80`, else in two with the top bit set. -/
def ofSmart (w : UInt16) : Bytes := if w < 0x80 then [w.toUInt8] else ofU16 (w + 0x8000)

/-- The byte that ends a text. -/
def lineEnd : UInt8 := 0x0A

/-- The text that bytes spell, one character a byte. -/
def toText (bytes : Bytes) : String := String.ofList (bytes.map fun b => Char.ofNat b.toNat)

/-- The bytes of a text over the first 256 characters. -/
def ofText (text : String) : Bytes := text.toList.map fun c => UInt8.ofNat c.toNat

/-- A text and the byte that ends it. -/
def ofLine (text : String) : Bytes := ofText text ++ [lineEnd]

/-- Whether a text is one over the first 256 characters that does not hold its own end. -/
def IsLine (text : String) : Prop := ∀ c ∈ text.toList, c.toNat < 256 ∧ c.toNat ≠ lineEnd.toNat

instance (text : String) : Decidable (IsLine text) :=
  List.decidableBAll (fun c : Char => c.toNat < 256 ∧ c.toNat ≠ lineEnd.toNat) text.toList

theorem toU16_ofU16 (w : UInt16) : toU16 (UInt8.ofNat (w.toNat / 256)) (UInt8.ofNat w.toNat) = w := by
  have := w.toNat_lt
  apply UInt16.toNat_inj.1
  simp only [toU16, UInt8.toNat_ofNat', UInt16.toNat_ofNat']
  omega

theorem toNat_toU16 (a b : UInt8) : (toU16 a b).toNat = 256 * a.toNat + b.toNat := by
  have ha := a.toNat_lt
  have hb := b.toNat_lt
  exact UInt16.toNat_ofNat_of_lt' (by simp only [UInt16.size]; omega)

theorem ofU16_toU16 (a b : UInt8) : ofU16 (toU16 a b) = [a, b] := by
  have ha := a.toNat_lt
  have hb := b.toNat_lt
  have high : UInt8.ofNat ((256 * a.toNat + b.toNat) / 256) = a := by
    refine UInt8.toNat_inj.1 ?_
    rw [UInt8.toNat_ofNat']
    omega
  have low : UInt8.ofNat (256 * a.toNat + b.toNat) = b := by
    refine UInt8.toNat_inj.1 ?_
    rw [UInt8.toNat_ofNat']
    omega
  rw [ofU16, toNat_toU16, high, low]

theorem toU24_ofU24 {n : Nat} (h : n < 0x1000000) :
    toU24 (UInt8.ofNat (n / 65536)) (UInt8.ofNat (n / 256)) (UInt8.ofNat n) = n := by
  simp only [toU24, UInt8.toNat_ofNat']
  omega

theorem toU32_ofU32 (w : UInt32) :
    toU32 (UInt8.ofNat (w.toNat / 16777216)) (UInt8.ofNat (w.toNat / 65536))
      (UInt8.ofNat (w.toNat / 256)) (UInt8.ofNat w.toNat) = w := by
  have := w.toNat_lt
  apply UInt32.toNat_inj.1
  simp only [toU32, UInt8.toNat_ofNat', UInt32.toNat_ofNat']
  omega

theorem toText_ofText {t : String} (h : ∀ c ∈ t.toList, c.toNat < 256) : toText (ofText t) = t := by
  have id_on : t.toList.map ((fun b : UInt8 => Char.ofNat b.toNat) ∘ fun c => UInt8.ofNat c.toNat) =
      t.toList := by
    conv => rhs; rw [← List.map_id t.toList]
    refine List.map_congr_left fun c hc => ?_
    simp only [Function.comp, UInt8.toNat_ofNat', Nat.mod_eq_of_lt (h c hc), Char.ofNat_toNat, id]
  rw [toText, ofText, List.map_map, id_on, String.ofList_toList]

theorem ne_lineEnd_of_mem_ofText {t : String} (h : IsLine t) : ∀ b ∈ ofText t, (b != lineEnd) = true := by
  intro b hb
  obtain ⟨c, hc, rfl⟩ := List.mem_map.1 hb
  obtain ⟨hlt, hne⟩ := h c hc
  refine bne_iff_ne.2 fun e => hne ?_
  have := congrArg UInt8.toNat e
  rwa [UInt8.toNat_ofNat', Nat.mod_eq_of_lt hlt] at this

end Bytes

end AssetCache
